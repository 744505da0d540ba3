import DnsForwarder.Proofs.Message.Pieces

/-! Messages between writing and reading. A message with regular names that can
be encoded is decoded as it was, but for the answers that did not fit and the
case of the hosts of services. -/

namespace DnsForwarder

structure RecordData.Regular (data : RecordData Labels Octets) : Prop where
  names : ∀ name ∈ data.names, name.isValid
  strings : data ≠ .txt []

structure WireRecord.Regular (record : WireRecord) : Prop where
  owner : record.owner.isValid
  data : record.data.Regular

structure WireRecord.Named (record : WireRecord) : Prop where
  owner : record.owner.isValid
  names : ∀ name ∈ record.data.names, name.isValid

theorem WireRecord.Regular.named {record : WireRecord}
    (hregular : record.Regular) :
    record.Named :=
  ⟨hregular.owner, hregular.data.names⟩

/-- What arrives of the data: a text without strings is none. -/
def RecordData.carried? :
    RecordData Labels Octets → Option (RecordData Labels Octets)
  | .txt [] => none
  | data => some data.sent

theorem RecordData.carried?_eq {data : RecordData Labels Octets}
    (hstrings : data ≠ .txt []) :
    data.carried? = some data.sent := by
  unfold carried?
  split
  next => exact absurd rfl hstrings
  next => rfl

namespace Message

open Cursor

def arrived (record : WireRecord) : Entry :=
  ⟨record.owner, record.data.typeCode, internet, record.ttl,
    some record.data.sent⟩

def carried (record : WireRecord) : Entry :=
  { arrived record with data := record.data.carried? }

theorem carried_eq_arrived {record : WireRecord} (hregular : record.Regular) :
    carried record = arrived record := by
  rw [carried, RecordData.carried?_eq hregular.data.strings]
  rfl

variable {base bytes : Octets} {table : Table} {written : Written}
  {data : RecordData Labels Octets}

def Piece.IsSolid : Piece → Prop
  | .bytes chunks => chunks.flatten ≠ []
  | _ => True

theorem PiecesMake.length_pos {piece : Piece} {rest : List Piece}
    (hsolid : piece.IsSolid) (hmake : PiecesMake base (piece :: rest) bytes) :
    0 < bytes.length := by
  obtain ⟨first, last, rfl, hfirst, -⟩ := hmake.first
  rw [List.length_append]
  refine Nat.add_pos_left ?_ _
  cases piece with
  | bytes chunks =>
      cases hfirst
      exact List.length_pos_iff.mpr hsolid
  | name labels => exact Spells.length_pos hfirst
  | fullName labels => exact Spells.length_pos hfirst
  | string content =>
      obtain ⟨-, rfl⟩ := hfirst
      exact Nat.succ_pos _

theorem dataPieces_cons (hstrings : data ≠ .txt []) :
    ∃ piece rest, dataPieces data = piece :: rest ∧ piece.IsSolid := by
  cases data with
  | aaaa address =>
      refine ⟨_, _, rfl, ?_⟩
      intro hnil
      have hlength := length_octets address
      rw [Ipv6.octets, List.flatMap_def, hnil] at hlength
      cases hlength
  | txt strings =>
      cases strings with
      | nil => exact absurd rfl hstrings
      | cons string rest => exact ⟨_, _, rfl, trivial⟩
  | a | mx | srv => exact ⟨_, _, rfl, List.cons_ne_nil _ _⟩
  | ptr | ns | cname | soa => exact ⟨_, _, rfl, trivial⟩

theorem ofCode?_typeCode (data : RecordData Labels Octets) :
    RecordType.ofCode? data.typeCode = data.type? ∧
      (data.type? = none → data.typeCode = RecordData.aliasCode) := by
  cases data with
  | cname => exact ⟨rfl, fun _ => rfl⟩
  | _ => exact ⟨rfl, nofun⟩

theorem typeCode_ne_extensionCode (data : RecordData Labels Octets) :
    data.typeCode ≠ extensionCode := by
  rw [RecordData.typeCode]
  cases data.type? with
  | none => decide
  | some type => cases type <;> decide

theorem reads_data (hnames : ∀ name ∈ data.names, name.isValid)
    (hmake : PiecesMake base (dataPieces data) bytes) :
    Reads (readData data.typeCode bytes.length) base bytes data.carried? := by
  intro after
  have htake := reads_take base bytes after
  by_cases hstrings : data = .txt []
  · subst hstrings
    cases hmake
    simp only [readData, htake, Option.bind_eq_bind, Option.bind_some]
    rfl
  obtain ⟨piece, rest, hpieces, hsolid⟩ := dataPieces_cons hstrings
  have hsize : bytes.length ≠ 0 :=
    Nat.ne_of_gt ((hpieces ▸ hmake).length_pos hsolid)
  have hread := reads_known hnames hmake after
  obtain ⟨htype, halias⟩ := ofCode?_typeCode data
  rw [RecordData.carried?_eq hstrings]
  simp only [readData, htake, htype, if_neg hsize, Option.bind_eq_bind,
    Option.bind_some]
  cases hcase : data.type? with
  | none =>
      rw [hcase] at hread
      simp only [halias hcase, beq_self_eq_true, hread, Option.map_some,
        Option.bind_some]
      rfl
  | some type =>
      rw [hcase] at hread
      simp only [hread, Option.map_some, Option.bind_some]
      rfl

theorem dataPieces_fits (hnames : ∀ name ∈ data.names, name.isValid) :
    ∀ piece ∈ dataPieces data, piece.Fits := by
  intro piece hpiece
  cases data with
  | txt strings =>
      obtain ⟨string, -, rfl⟩ := List.mem_map.mp hpiece
      trivial
  | srv priority weight port target =>
      simp only [dataPieces, List.mem_cons, List.not_mem_nil, or_false]
        at hpiece
      rcases hpiece with rfl | rfl
      · trivial
      · exact isValid_lower (hnames target List.mem_cons_self)
  | soa primary mailbox =>
      simp only [dataPieces, List.mem_cons, List.not_mem_nil, or_false]
        at hpiece
      rcases hpiece with rfl | rfl | rfl
      · exact hnames primary List.mem_cons_self
      · exact hnames mailbox (by simp [RecordData.names])
      · trivial
  | mx preference exchange =>
      simp only [dataPieces, List.mem_cons, List.not_mem_nil, or_false]
        at hpiece
      rcases hpiece with rfl | rfl
      · trivial
      · exact hnames exchange List.mem_cons_self
  | a | aaaa =>
      rw [List.mem_singleton.mp hpiece]
      trivial
  | ptr target | ns target | cname target =>
      rw [List.mem_singleton.mp hpiece]
      exact hnames target List.mem_cons_self

def recordFields (record : WireRecord) : Octets :=
  wordBytes record.data.typeCode ++ wordBytes internet ++ longBytes record.ttl

theorem writeHead_eq_ok {offset : Nat} {record : WireRecord}
    (hwrite : writePieces table offset (headPieces record) = .ok written) :
    ∃ name, writePiece table offset (.name record.owner) = .ok name ∧
      written =
        ⟨name.bytes ++ recordFields record ++ [0, 0], name.table⟩ ∧
      offset + (name.bytes ++ recordFields record).length + 2 ≤ maxSize := by
  obtain ⟨name, space, hname, hspace, rfl⟩ := writePieces_cons hwrite
  obtain ⟨place, last, hplace, hlast, rfl⟩ := writePieces_cons hspace
  obtain ⟨hshort, rfl⟩ := Written.upTo_eq_ok.mp hplace
  cases hlast
  refine ⟨name, hname, by simp [recordFields], ?_⟩
  simp only [recordFields, List.flatten_cons, List.flatten_nil,
    List.length_append, List.length_cons, List.length_nil] at hshort ⊢
  omega

/-- The length of the data takes its place when the data has been written, so
the table is right for the message with the length in it. -/
theorem writeRecord_eq_ok {record : WireRecord} (hsound : table.Sound base)
    (hnamed : record.Named)
    (hwrite : writeRecord table base.length record = .ok written) :
    ∃ name data, Spells base record.owner name ∧
      PiecesMake (base ++ (name ++ recordFields record ++
        wordBytes (UInt16.ofNat data.length))) (dataPieces record.data) data ∧
      written.bytes = name ++ recordFields record ++
        wordBytes (UInt16.ofNat data.length) ++ data ∧
      written.Follows base := by
  obtain ⟨head, hhead, hwrite⟩ := bind_eq_ok.mp hwrite
  obtain ⟨data, hdata, hwrite⟩ := bind_eq_ok.mp hwrite
  obtain ⟨name, hname, rfl, hroom⟩ := writeHead_eq_ok hhead
  have howner : (Piece.name record.owner).Fits := hnamed.owner
  obtain ⟨hspells, hfollows⟩ := writePiece_eq_ok hsound howner hname
  let front := name.bytes ++ recordFields record ++
    wordBytes (UInt16.ofNat data.bytes.length)
  have hlength : base.length +
      (name.bytes ++ recordFields record ++ [0, 0]).length =
      (base ++ front).length := by
    simp only [front, List.length_append, length_wordBytes]
    rfl
  have hshort : (base ++ front).length ≤ maxSize := by
    simp only [← hlength, List.length_append, List.length_cons,
      List.length_nil] at hroom ⊢
    omega
  have hfront : name.table.Sound (base ++ front) := by
    simp only [front, List.append_assoc]
    rw [← List.append_assoc]
    exact hfollows.sound.append _
  have hdata := mapError_eq_ok.mp hdata
  rw [hlength] at hdata
  obtain ⟨hmake, hend⟩ := writePieces_eq_ok hfront hshort
    (dataPieces_fits hnamed.names) hdata
  have htake : (name.bytes ++ recordFields record ++ [0, 0]).take
      ((name.bytes ++ recordFields record ++ [0, 0]).length - 2) =
      name.bytes ++ recordFields record := by
    rw [List.length_append, List.length_cons, List.length_singleton,
      Nat.add_sub_cancel]
    exact List.take_left
  have hwritten : written = ⟨front ++ data.bytes, data.table⟩ := by
    cases hwrite
    rw [htake]
  subst hwritten
  refine ⟨name.bytes, data.bytes, hspells, hmake, rfl, ?_, ?_⟩
  · rw [← List.append_assoc]
    exact hend.sound
  · rw [List.length_append, ← Nat.add_assoc, ← List.length_append]
    exact hend.short

theorem reads_record {record : WireRecord} (hsound : table.Sound base)
    (hnamed : record.Named)
    (hwrite : writeRecord table base.length record = .ok written) :
    Reads readEntry base written.bytes (carried record) := by
  obtain ⟨name, data, hspells, hmake, hbytes, hfollows⟩ :=
    writeRecord_eq_ok hsound hnamed hwrite
  have hsize : (UInt16.ofNat data.length).toNat = data.length := by
    have hshort := hfollows.short
    rw [hbytes, List.length_append] at hshort
    rw [UInt16.toNat_ofNat']
    simp only [maxSize] at hshort
    omega
  have howner := hspells.reads hnamed.owner
  have hplain : ¬(record.data.typeCode = extensionCode ∧ record.owner ≠ []) :=
    fun hboth => typeCode_ne_extensionCode record.data hboth.1
  have hdata := reads_data hnamed.names hmake
  intro after
  simp only [hbytes, recordFields, List.append_assoc] at hdata ⊢
  simp only [readEntry, howner _, reads_word _ _ _, reads_long _ _ _,
    if_neg hplain, hsize,
    Option.bind_eq_bind, Option.bind_some, List.append_assoc, hdata _]
  rfl

theorem writeRecord_length_pos {record : WireRecord}
    (hsound : table.Sound base) (hnamed : record.Named)
    (hwrite : writeRecord table base.length record = .ok written) :
    0 < written.bytes.length := by
  obtain ⟨name, data, hspells, -, hbytes, -⟩ :=
    writeRecord_eq_ok hsound hnamed hwrite
  have hname := hspells.length_pos
  simp only [hbytes, List.length_append]
  omega

/-- The records in front of the first that does not fit are read again. Each
takes at least a byte, so that their number fits into the header. -/
theorem writeRecords_eq_ok {records : List WireRecord} {body : AnswerSection}
    (hsound : table.Sound base) (hroom : base.length ≤ maxSize)
    (hnamed : ∀ record ∈ records, record.Named)
    (hwrite : writeRecords table base.length records = .ok body) :
    body.count ≤ records.length ∧ base.length + body.count ≤ maxSize ∧
      Reads (readMany readEntry body.count) base body.bytes
        ((records.take body.count).map carried) := by
  induction records generalizing base table body with
  | nil =>
      cases hwrite
      exact ⟨Nat.le_refl 0, hroom, fun after => by simp [readMany]⟩
  | cons record rest ih =>
      obtain ⟨hrecord, hrest⟩ := List.forall_mem_cons.mp hnamed
      rw [writeRecords] at hwrite
      cases hfirst : writeRecord table base.length record with
      | error fault =>
          rw [hfirst] at hwrite
          cases fault with
          | full =>
              cases hwrite
              exact ⟨Nat.zero_le _, hroom, fun after => by simp [readMany]⟩
          | stringTooLong => cases hwrite
      | ok first =>
          simp only [hfirst] at hwrite
          cases hothers : writeRecords first.table
            (base.length + first.bytes.length) rest with
          | error fault =>
              rw [hothers] at hwrite
              cases hwrite
          | ok others =>
              rw [hothers] at hwrite
              cases hwrite
              obtain ⟨-, -, -, -, -, hfollows⟩ :=
                writeRecord_eq_ok hsound hrecord hfirst
              have hpos := writeRecord_length_pos hsound hrecord hfirst
              rw [← List.length_append] at hothers
              obtain ⟨hcount, hshort, hread⟩ := ih hfollows.sound
                (by simpa only [List.length_append] using hfollows.short)
                hrest hothers
              refine ⟨Nat.succ_le_succ hcount, ?_, ?_⟩
              · rw [List.length_append] at hshort
                change base.length + (others.count + 1) ≤ maxSize
                omega
              · intro after
                have hreadFirst := reads_record hsound hrecord hfirst
                simp only [readMany, List.append_assoc, hreadFirst _,
                  Option.bind_eq_bind, Option.bind_some]
                rw [hread after]
                simp

theorem reads_inquiries {inquiries : List Inquiry}
    (hvalid : ∀ inquiry ∈ inquiries, inquiry.name.isValid)
    (hmake : PiecesMake base (inquiries.flatMap inquiryPieces) bytes) :
    inquiries.length ≤ bytes.length ∧
      Reads (readMany readInquiry inquiries.length) base bytes inquiries := by
  induction inquiries generalizing base bytes with
  | nil =>
      cases hmake
      exact ⟨Nat.le_refl 0, fun after => by simp [readMany]⟩
  | cons inquiry rest ih =>
      obtain ⟨hinquiry, hrest⟩ := List.forall_mem_cons.mp hvalid
      obtain ⟨first, last, rfl, hfirst, hlast⟩ := hmake.append
      have hname : (Piece.name inquiry.name).IsSolid := trivial
      have hpos : 0 < first.length := PiecesMake.length_pos hname hfirst
      obtain ⟨hcount, hread⟩ := ih hrest hlast
      refine ⟨?_, fun after => ?_⟩
      · rw [List.length_cons, List.length_append]
        omega
      · have hreadFirst := reads_inquiry hinquiry hfirst
        simp only [List.length_cons, readMany, List.append_assoc, hreadFirst _,
          Option.bind_eq_bind, Option.bind_some, hread after]
        rfl

/-- The header as it arrives: four bits hold the opcode, and four the response
code. -/
def Header.arrived (header : Header) (cut : Bool) : Header :=
  { header with
    opcode := UInt8.ofNat (header.opcode.toNat % 16)
    truncated := header.truncated || cut
    rcode := UInt16.ofNat (header.rcode.toNat % 16) }

theorem highFlags (response truncated recursion : Bool) {opcode : Nat}
    (hopcode : opcode < 16) :
    let byte := UInt8.ofNat
      (bit response 0x80 + opcode * 8 + bit truncated 2 + bit recursion 1)
    flag byte 7 = response ∧ byte.toNat / 8 % 16 = opcode ∧
    flag byte 1 = truncated ∧ flag byte 0 = recursion := by
  have hall : ∀ (response truncated recursion : Bool) (opcode : Fin 16),
      let byte := UInt8.ofNat
        (bit response 0x80 + opcode.val * 8 + bit truncated 2 + bit recursion 1)
      flag byte 7 = response ∧ byte.toNat / 8 % 16 = opcode.val ∧
      flag byte 1 = truncated ∧ flag byte 0 = recursion := by
    decide +kernel
  exact hall response truncated recursion ⟨opcode, hopcode⟩

theorem lowFlags (recursion : Bool) {rcode : Nat} (hrcode : rcode < 16) :
    let byte := UInt8.ofNat (bit recursion 0x80 + rcode)
    flag byte 7 = recursion ∧ byte.toNat % 16 = rcode := by
  have hall : ∀ (recursion : Bool) (rcode : Fin 16),
      let byte := UInt8.ofNat (bit recursion 0x80 + rcode.val)
      flag byte 7 = recursion ∧ byte.toNat % 16 = rcode.val := by
    decide +kernel
  exact hall recursion ⟨rcode, hrcode⟩

theorem reads_header (base : Octets) (header : Header) (cut : Bool) :
    Reads readHeader base
      (wordBytes header.id ++
        flagBytes { header with truncated := header.truncated || cut })
      (header.arrived cut) := by
  intro after
  obtain ⟨hresponse, hopcode, htruncated, hrecursion⟩ :=
    highFlags header.isResponse
    (header.truncated || cut) header.recursionDesired
    (Nat.mod_lt header.opcode.toNat (Nat.zero_lt_succ 15))
  obtain ⟨havailable, hrcode⟩ := lowFlags header.recursionAvailable
    (Nat.mod_lt header.rcode.toNat (Nat.zero_lt_succ 15))
  simp only [readHeader, List.append_assoc, reads_word _ _ _, flagBytes,
    List.cons_append,
    List.nil_append, byte?_between, Option.bind_eq_bind, Option.bind_some,
    hresponse, hopcode,
    htruncated, hrecursion, havailable, hrcode]
  rfl

theorem toNat_ofNat_count {count : Nat} (hcount : count ≤ maxSize) :
    (UInt16.ofNat count).toNat = count := by
  rw [UInt16.toNat_ofNat']
  exact Nat.mod_eq_of_lt (Nat.lt_succ_of_le hcount)

theorem inquiryPieces_fits {inquiries : List Inquiry}
    (hvalid : ∀ inquiry ∈ inquiries, inquiry.name.isValid) :
    ∀ piece ∈ inquiries.flatMap inquiryPieces, piece.Fits := by
  intro piece hpiece
  obtain ⟨inquiry, hinquiry, hpiece⟩ := List.mem_flatMap.mp hpiece
  simp only [inquiryPieces, List.mem_cons, List.not_mem_nil, or_false] at hpiece
  rcases hpiece with rfl | rfl
  · exact hvalid inquiry hinquiry
  · trivial

/-- Sections that were written make a message under every header, and it is
decoded up to the answers that were left out. -/
theorem decode?_of_sections {questions : List Inquiry}
    {answers : List WireRecord} {inquiries : Written} {body : AnswerSection}
    (hquestions : ∀ inquiry ∈ questions, inquiry.name.isValid)
    (hanswers : ∀ answer ∈ answers, answer.Named)
    (hinquiries : writePieces [] headerSize (questions.flatMap inquiryPieces) =
      .ok inquiries)
    (hbody : writeRecords inquiries.table (headerSize + inquiries.bytes.length)
      answers = .ok body)
    (header : Header) :
    body.count ≤ answers.length ∧
      ∃ bytes, encode header questions answers = .ok bytes ∧
      decode? bytes = some
        { header := header.arrived (body.count < answers.length)
          questions
          answers := (answers.take body.count).map carried
          authority := []
          additional := []
          extension? := none } := by
  let head := wordBytes header.id ++ flagBytes
    { header with
      truncated := header.truncated || decide (body.count < answers.length) } ++
    countBytes questions.length ++ countBytes body.count ++ countBytes 0 ++
    countBytes 0
  have hencode : encode header questions answers =
      .ok (head ++ inquiries.bytes ++ body.bytes ++ body.left) := by
    simp only [encode, hinquiries, hbody, bind, Except.bind]
    rfl
  have hhead : headerSize = head.length := rfl
  rw [hhead] at hinquiries hbody
  obtain ⟨hmake, hfollows⟩ := writePieces_eq_ok (Table.sound_nil head)
    (show headerSize ≤ maxSize by decide)
    (inquiryPieces_fits hquestions) hinquiries
  obtain ⟨hasked, hreadQuestions⟩ := reads_inquiries hquestions hmake
  rw [← List.length_append] at hbody
  obtain ⟨hcount, hshort, hreadAnswers⟩ := writeRecords_eq_ok hfollows.sound
    (by simpa only [List.length_append] using hfollows.short) hanswers hbody
  refine ⟨hcount, _, hencode, ?_⟩
  have hquestionCount : (UInt16.ofNat questions.length).toNat =
      questions.length := by
    have hroom := hfollows.short
    exact toNat_ofNat_count (by omega)
  have hanswerCount : (UInt16.ofNat body.count).toNat = body.count :=
    toNat_ofNat_count (Nat.le_trans (Nat.le_add_left _ _) hshort)
  have hnone : (UInt16.ofNat 0).toNat = 0 := rfl
  have hstart (message : Octets) : ofOffset message 0 = between [] message :=
    rfl
  have hreadHeader (after : Octets) :=
    reads_header [] header (decide (body.count < answers.length)) after
  have hreadAnswers := hreadAnswers body.left
  simp only [List.append_assoc, List.nil_append] at hreadHeader
  simp only [head, countBytes, List.append_assoc]
    at hreadQuestions hreadAnswers
  simp only [head, decode?, hstart, countBytes, List.append_assoc, hreadHeader,
    reads_word _ _ _,
    hquestionCount, hanswerCount, hreadQuestions _, hreadAnswers,
    hnone, readMany,
    Option.bind_eq_bind, Option.bind_some]
  rfl

/-- What is encoded is decoded, up to the answers that were left out. -/
theorem decode?_encode_carried {header : Header} {questions : List Inquiry}
    {answers : List WireRecord}
    (hquestions : ∀ inquiry ∈ questions, inquiry.name.isValid)
    (hanswers : ∀ answer ∈ answers, answer.Named)
    (hencode : encode header questions answers = .ok bytes) :
    ∃ count ≤ answers.length, decode? bytes = some
      { header := header.arrived (count < answers.length)
        questions
        answers := (answers.take count).map carried
        authority := []
        additional := []
        extension? := none } := by
  obtain ⟨inquiries, hinquiries, hwrite⟩ := bind_eq_ok.mp hencode
  obtain ⟨body, hbody, -⟩ := bind_eq_ok.mp hwrite
  obtain ⟨hcount, written, hwritten, hdecode⟩ :=
    decode?_of_sections hquestions hanswers hinquiries hbody header
  rw [hencode] at hwritten
  cases hwritten
  exact ⟨body.count, hcount, hdecode⟩

theorem decode?_encode {header : Header} {questions : List Inquiry}
    {answers : List WireRecord}
    (hquestions : ∀ inquiry ∈ questions, inquiry.name.isValid)
    (hanswers : ∀ answer ∈ answers, answer.Regular)
    (hencode : encode header questions answers = .ok bytes) :
    ∃ count ≤ answers.length, decode? bytes = some
      { header := header.arrived (count < answers.length)
        questions
        answers := (answers.take count).map arrived
        authority := []
        additional := []
        extension? := none } := by
  have hnamed (answer : WireRecord) (hanswer : answer ∈ answers) :
      answer.Named :=
    (hanswers answer hanswer).named
  obtain ⟨count, hcount, hdecode⟩ :=
    decode?_encode_carried hquestions hnamed hencode
  have hsame : (answers.take count).map carried =
      (answers.take count).map arrived := by
    apply List.map_congr_left
    intro answer hanswer
    exact carried_eq_arrived (hanswers answer (List.mem_of_mem_take hanswer))
  exact ⟨count, hcount, hsame ▸ hdecode⟩

end Message

end DnsForwarder
