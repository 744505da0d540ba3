import DnsForwarder.Proofs.Message.RoundTrip

/-! How far the writing of a message goes. Nothing is left out of a layout; a
message is cut just when the writing of its layout would go too far. Names are
written in full before pointers shorten them, so that the writing can go further
than what stays of it. -/

namespace DnsForwarder.Message

/-- What is written when nothing limits a message, and the offset up to which
the writing goes. -/
structure Layout where
  bytes : Octets
  table : Table
  reach : Nat

def layPiece (table : Table) (offset : Nat) : Piece → Layout
  | .bytes chunks =>
      ⟨chunks.flatten, table, offset + chunks.flatten.length⟩
  | .name labels =>
      let stop := offset + labels.span
      let (bytes, table) := writeLabels stop table offset labels
      ⟨bytes, table, max stop (offset + bytes.length)⟩
  | .fullName labels =>
      let (bytes, table) :=
        writeInFull (offset + labels.span) table offset labels
      ⟨bytes, table, offset + bytes.length⟩
  | .string bytes =>
      let bytes := (countedChunks bytes).flatten
      ⟨bytes, table, offset + bytes.length⟩

def layPieces (table : Table) (offset : Nat) : List Piece → Layout
  | [] => ⟨[], table, offset⟩
  | piece :: rest =>
      let first := layPiece table offset piece
      let others := layPieces first.table (offset + first.bytes.length) rest
      ⟨first.bytes ++ others.bytes, others.table, max first.reach others.reach⟩

def layRecord (table : Table) (offset : Nat) (record : WireRecord) : Layout :=
  let head := layPieces table offset (headPieces record)
  let data :=
    layPieces head.table (offset + head.bytes.length) (dataPieces record.data)
  let size := wordBytes (UInt16.ofNat data.bytes.length)
  ⟨head.bytes.take (head.bytes.length - 2) ++ size ++ data.bytes, data.table,
    max head.reach data.reach⟩

def layRecords (table : Table) (offset : Nat) : List WireRecord → Layout
  | [] => ⟨[], table, offset⟩
  | record :: rest =>
      let first := layRecord table offset record
      let others := layRecords first.table (offset + first.bytes.length) rest
      ⟨first.bytes ++ others.bytes, others.table, max first.reach others.reach⟩

def layMessage (header : Header) (questions : List Inquiry)
    (answers : List WireRecord) : Layout :=
  let inquiries := layPieces [] headerSize (questions.flatMap inquiryPieces)
  let body :=
    layRecords inquiries.table (headerSize + inquiries.bytes.length) answers
  ⟨wordBytes header.id ++ flagBytes header ++ countBytes questions.length ++
      countBytes answers.length ++ countBytes 0 ++ countBytes 0 ++
      inquiries.bytes ++ body.bytes,
    body.table, max inquiries.reach body.reach⟩

/-- A writer makes the layout, or the layout goes too far and the message has
room for what is left of it, or something cannot be written at all. -/
def Layout.Bounds (layout : Layout) (offset : Nat) :
    Except WriteFault Written → Prop
  | .ok written =>
      written = ⟨layout.bytes, layout.table⟩ ∧ layout.reach ≤ maxSize
  | .error (.full left) =>
      maxSize < layout.reach ∧ offset + left.length ≤ maxSize
  | .error .stringTooLong => True

variable {table : Table} {offset : Nat}

section Reach

theorem length_writeLabels_pos (stop : Nat) (table : Table) (offset : Nat)
    (labels : Labels) :
    0 < (writeLabels stop table offset labels).1.length := by
  cases labels with
  | nil => exact Nat.zero_lt_one
  | cons label rest =>
      rw [writeLabels]
      cases table.lookup (label :: rest) with
      | some target => exact Nat.zero_lt_two
      | none => exact Nat.succ_pos _

theorem layPiece_le_reach (table : Table) (offset : Nat) (piece : Piece) :
    offset + (layPiece table offset piece).bytes.length ≤
      (layPiece table offset piece).reach := by
  cases piece with
  | name labels => exact Nat.le_max_right _ _
  | _ => exact Nat.le_refl _

theorem layPieces_le_reach (table : Table) (offset : Nat)
    (pieces : List Piece) :
    offset + (layPieces table offset pieces).bytes.length ≤
      (layPieces table offset pieces).reach := by
  induction pieces generalizing table offset with
  | nil => exact Nat.le_refl _
  | cons piece rest ih =>
      have hrest := ih (layPiece table offset piece).table
        (offset + (layPiece table offset piece).bytes.length)
      simp only [layPieces, List.length_append]
      omega

/-- No name is longer than others by more than what one byte of it can stand
for. -/
theorem layPiece_reach_le {piece : Piece} (hfits : piece.Fits) (table : Table)
    (offset : Nat) :
    (layPiece table offset piece).reach ≤
      offset + (layPiece table offset piece).bytes.length + 253 := by
  cases piece with
  | name labels =>
      have hspan := (labels_isValid_iff.mp hfits).2
      have hpos :=
        length_writeLabels_pos (offset + labels.span) table offset labels
      simp only [Labels.maxLength] at hspan
      simp only [layPiece]
      omega
  | _ => exact Nat.le_add_right _ _

theorem layPieces_reach_le {pieces : List Piece}
    (hfits : ∀ piece ∈ pieces, piece.Fits) (table : Table) (offset : Nat) :
    (layPieces table offset pieces).reach ≤
      offset + (layPieces table offset pieces).bytes.length + 253 := by
  induction pieces generalizing table offset with
  | nil => exact Nat.le_add_right _ _
  | cons piece rest ih =>
      obtain ⟨hpiece, hothers⟩ := List.forall_mem_cons.mp hfits
      have hfirst := layPiece_reach_le hpiece table offset
      have hrest := ih hothers (layPiece table offset piece).table
        (offset + (layPiece table offset piece).bytes.length)
      simp only [layPieces, List.length_append]
      omega

theorem length_layRecord (table : Table) (offset : Nat) (record : WireRecord) :
    let head := layPieces table offset (headPieces record)
    (layRecord table offset record).bytes.length = head.bytes.length +
      (layPieces head.table (offset + head.bytes.length)
        (dataPieces record.data)).bytes.length := by
  intro head
  have hhead : 2 ≤ head.bytes.length := by
    simp only [head, headPieces, layPieces, layPiece, List.flatten_cons,
      List.flatten_nil, List.length_append, List.length_cons, List.length_nil]
    omega
  simp only [head] at hhead
  simp only [head, layRecord, List.length_append, List.length_take,
    length_wordBytes]
  omega

theorem layRecord_le_reach (table : Table) (offset : Nat)
    (record : WireRecord) :
    offset + (layRecord table offset record).bytes.length ≤
      (layRecord table offset record).reach := by
  let head := layPieces table offset (headPieces record)
  have hdata :=
    layPieces_le_reach head.table (offset + head.bytes.length)
      (dataPieces record.data)
  rw [length_layRecord, ← Nat.add_assoc]
  exact Nat.le_trans hdata (Nat.le_max_right _ _)

theorem layRecord_reach_le {record : WireRecord} (hnamed : record.Named)
    (table : Table) (offset : Nat) :
    (layRecord table offset record).reach ≤
      offset + (layRecord table offset record).bytes.length + 253 := by
  have hpieces : ∀ piece ∈ headPieces record, piece.Fits := by
    simp only [headPieces, List.forall_mem_cons]
    exact ⟨hnamed.owner, trivial, List.forall_mem_nil _⟩
  let head := layPieces table offset (headPieces record)
  have hhead : head.reach ≤ offset + head.bytes.length + 253 :=
    layPieces_reach_le hpieces table offset
  have hdata := layPieces_reach_le (dataPieces_fits hnamed.names) head.table
    (offset + head.bytes.length)
  rw [length_layRecord]
  refine Nat.max_le.mpr ⟨?_, ?_⟩
  · refine Nat.le_trans hhead ?_
    simp only [head]
    omega
  · refine Nat.le_trans hdata ?_
    simp only [head]
    omega

theorem layRecords_reach_le {records : List WireRecord}
    (hnamed : ∀ record ∈ records, record.Named) (table : Table) (offset : Nat) :
    (layRecords table offset records).reach ≤
      offset + (layRecords table offset records).bytes.length + 253 := by
  induction records generalizing table offset with
  | nil => exact Nat.le_add_right _ _
  | cons record rest ih =>
      obtain ⟨hrecord, hothers⟩ := List.forall_mem_cons.mp hnamed
      have hfirst := layRecord_reach_le hrecord table offset
      have hrest := ih hothers (layRecord table offset record).table
        (offset + (layRecord table offset record).bytes.length)
      simp only [layRecords, List.length_append]
      omega

theorem length_layMessage (header : Header) (questions : List Inquiry)
    (answers : List WireRecord) :
    let inquiries := layPieces [] headerSize (questions.flatMap inquiryPieces)
    (layMessage header questions answers).bytes.length =
      headerSize + inquiries.bytes.length +
        (layRecords inquiries.table
          (headerSize + inquiries.bytes.length) answers).bytes.length := by
  simp only [layMessage, List.length_append]
  rfl

/-- Whatever is as long as this below the longest message is written in full. -/
theorem layMessage_reach_le (header : Header) {questions : List Inquiry}
    {answers : List WireRecord}
    (hquestions : ∀ inquiry ∈ questions, inquiry.name.isValid)
    (hanswers : ∀ answer ∈ answers, answer.Named) :
    (layMessage header questions answers).reach ≤
      (layMessage header questions answers).bytes.length + 253 := by
  let inquiries := layPieces [] headerSize (questions.flatMap inquiryPieces)
  have hhead := layPieces_reach_le (inquiryPieces_fits hquestions) [] headerSize
  have hbody :=
    layRecords_reach_le hanswers inquiries.table
      (headerSize + inquiries.bytes.length)
  rw [length_layMessage]
  refine Nat.max_le.mpr ⟨?_, hbody⟩
  refine Nat.le_trans hhead ?_
  omega

end Reach

section Writing

theorem length_fitting_le (room : Nat) (chunks : List Octets) :
    (fitting room chunks).length ≤ room := by
  induction chunks generalizing room with
  | nil => exact Nat.zero_le room
  | cons chunk rest ih =>
      rw [fitting]
      split
      next => exact Nat.zero_le room
      next hroom =>
        have hrest := ih (room - chunk.length)
        rw [List.length_append]
        omega

theorem Written.upTo_bounds (written : Written) {offset : Nat}
    (hroom : offset ≤ maxSize) (stop : Nat) (chunks : List Octets) :
    Layout.Bounds ⟨written.bytes, written.table, stop⟩ offset
      (written.upTo offset stop chunks) := by
  rw [upTo]
  split
  next hbeyond =>
    have hleft := length_fitting_le (maxSize - offset) chunks
    exact ⟨hbeyond, by omega⟩
  next hshort => exact ⟨rfl, Nat.le_of_not_lt hshort⟩

theorem writePiece_bounds (table : Table) {offset : Nat}
    (hroom : offset ≤ maxSize) (piece : Piece) :
    (layPiece table offset piece).Bounds offset
      (writePiece table offset piece) := by
  cases piece with
  | string bytes =>
      rw [writePiece]
      split
      next => trivial
      next => exact Written.upTo_bounds _ hroom _ _
  | _ => exact Written.upTo_bounds _ hroom _ _

theorem Layout.Bounds.andThen {first last whole : Layout} {offset : Nat}
    {write : Except WriteFault Written}
    {next : Written → Except WriteFault Written}
    {join : Written → Written → Written} (hfirst : first.Bounds offset write)
    (hlast : first.reach ≤ maxSize →
      last.Bounds (offset + first.bytes.length)
        (next ⟨first.bytes, first.table⟩))
    (hjoin : join ⟨first.bytes, first.table⟩ ⟨last.bytes, last.table⟩ =
      ⟨whole.bytes, whole.table⟩)
    (hreach : whole.reach = max first.reach last.reach) :
    whole.Bounds offset (do
      let front ← write
      let back ← (next front).mapError (.behind front.bytes)
      return join front back) := by
  cases write with
  | error fault =>
      cases fault with
      | full left =>
          obtain ⟨hbeyond, hleft⟩ := hfirst
          refine ⟨?_, hleft⟩
          exact hreach ▸ Nat.lt_of_lt_of_le hbeyond (Nat.le_max_left _ _)
      | stringTooLong => trivial
  | ok front =>
      obtain ⟨rfl, hshort⟩ := hfirst
      have hback := hlast hshort
      simp only [bind, Except.bind]
      cases hnext : next ⟨first.bytes, first.table⟩ with
      | error fault =>
          rw [hnext] at hback
          cases fault with
          | full left =>
              obtain ⟨hbeyond, hleft⟩ := hback
              refine ⟨?_, ?_⟩
              · exact hreach ▸ Nat.lt_of_lt_of_le hbeyond (Nat.le_max_right _ _)
              · rwa [List.length_append, ← Nat.add_assoc]
          | stringTooLong => trivial
      | ok back =>
          rw [hnext] at hback
          obtain ⟨rfl, hend⟩ := hback
          exact ⟨hjoin, hreach ▸ Nat.max_le.mpr ⟨hshort, hend⟩⟩

theorem writePieces_bounds (table : Table) {offset : Nat}
    (hroom : offset ≤ maxSize) (pieces : List Piece) :
    (layPieces table offset pieces).Bounds offset
      (writePieces table offset pieces) := by
  induction pieces generalizing table offset with
  | nil => exact ⟨rfl, hroom⟩
  | cons piece rest ih =>
      refine (writePiece_bounds table hroom piece).andThen ?_ rfl rfl
      intro hshort
      exact ih _ (Nat.le_trans (layPiece_le_reach table offset piece) hshort)

theorem writeRecord_bounds (table : Table) {offset : Nat}
    (hroom : offset ≤ maxSize) (record : WireRecord) :
    (layRecord table offset record).Bounds offset
      (writeRecord table offset record) := by
  refine (writePieces_bounds table hroom _).andThen ?_ rfl rfl
  intro hshort
  have hstop := Nat.le_trans (layPieces_le_reach table offset _) hshort
  exact writePieces_bounds _ hstop _

/-- Records are cut just when the writing of all of them would go too far. What
is left of one that does not fit makes no message too long. -/
theorem writeRecords_bounds (table : Table) {offset : Nat}
    (hroom : offset ≤ maxSize) {records : List WireRecord}
    {body : AnswerSection}
    (hwrite : writeRecords table offset records = .ok body) :
    let whole := layRecords table offset records
    offset + body.bytes.length + body.left.length ≤ maxSize ∧
      (whole.reach ≤ maxSize ∧ body = ⟨whole.bytes, records.length, []⟩ ∨
        maxSize < whole.reach ∧ body.count < records.length) := by
  induction records generalizing table offset body with
  | nil =>
      cases hwrite
      exact ⟨hroom, .inl ⟨hroom, rfl⟩⟩
  | cons record rest ih =>
      have hrecord := writeRecord_bounds table hroom record
      have hstop := layRecord_le_reach table offset record
      rw [writeRecords] at hwrite
      cases hfirst : writeRecord table offset record with
      | error fault =>
          rw [hfirst] at hwrite hrecord
          cases fault with
          | full left =>
              -- The first record that has no room ends the section, with those
              -- behind it.
              cases hwrite
              obtain ⟨hbeyond, hleft⟩ := hrecord
              refine ⟨hleft, .inr ⟨?_, Nat.succ_pos _⟩⟩
              exact Nat.lt_of_lt_of_le hbeyond (Nat.le_max_left _ _)
          | stringTooLong => cases hwrite
      | ok first =>
          rw [hfirst] at hrecord
          obtain ⟨rfl, hshort⟩ := hrecord
          simp only [hfirst] at hwrite
          cases hothers : writeRecords (layRecord table offset record).table
              (offset + (layRecord table offset record).bytes.length) rest with
          | error fault =>
              rw [hothers] at hwrite
              cases hwrite
          | ok others =>
              rw [hothers] at hwrite
              cases hwrite
              obtain ⟨hlength, hrest⟩ :=
                ih _ (Nat.le_trans hstop hshort) hothers
              rw [Nat.add_assoc offset, ← List.length_append] at hlength
              refine ⟨hlength, ?_⟩
              rcases hrest with ⟨hend, rfl⟩ | ⟨hbeyond, hcount⟩
              · exact .inl ⟨Nat.max_le.mpr ⟨hshort, hend⟩, rfl⟩
              · refine .inr ⟨?_, Nat.succ_lt_succ hcount⟩
                exact Nat.lt_of_lt_of_le hbeyond (Nat.le_max_right _ _)

theorem truncatedBit_flags (header : Header) (rest : Octets) :
    truncatedBit (wordBytes header.id ++ (flagBytes header ++ rest)) =
      header.truncated := by
  obtain ⟨-, -, htruncated, -⟩ := highFlags header.isResponse header.truncated
    header.recursionDesired
    (Nat.mod_lt header.opcode.toNat (Nat.zero_lt_succ 15))
  exact htruncated

/-- A message is its layout, or it is marked as cut. -/
theorem encode_bounds {header : Header} {questions : List Inquiry}
    {answers : List WireRecord} {bytes : Octets}
    (hencode : encode header questions answers = .ok bytes) :
    let whole := layMessage header questions answers
    bytes.length ≤ maxSize ∧
      (whole.reach ≤ maxSize ∧ bytes = whole.bytes ∨
        maxSize < whole.reach ∧ truncatedBit bytes = true) := by
  obtain ⟨inquiries, hinquiries, hencode⟩ := bind_eq_ok.mp hencode
  obtain ⟨body, hbody, hencode⟩ := bind_eq_ok.mp hencode
  cases hencode
  have hstart : headerSize ≤ maxSize := by decide
  have hasked := writePieces_bounds [] hstart (questions.flatMap inquiryPieces)
  rw [hinquiries] at hasked
  obtain ⟨rfl, hroom⟩ := hasked
  have hbehind := Nat.le_trans (layPieces_le_reach [] headerSize _) hroom
  obtain ⟨hlength, hbody⟩ := writeRecords_bounds _ hbehind hbody
  refine ⟨?_, ?_⟩
  · simp only [List.length_append]
    exact hlength
  · rcases hbody with ⟨hreach, rfl⟩ | ⟨hbeyond, hcount⟩
    · refine .inl ⟨Nat.max_le.mpr ⟨hroom, hreach⟩, ?_⟩
      simp only [Nat.lt_irrefl, decide_false, Bool.or_false, List.append_nil]
      rfl
    · refine .inr ⟨Nat.lt_of_lt_of_le hbeyond (Nat.le_max_right _ _), ?_⟩
      simp only [hcount, decide_true, Bool.or_true, List.append_assoc]
      exact truncatedBit_flags { header with truncated := true } _

end Writing

end DnsForwarder.Message
