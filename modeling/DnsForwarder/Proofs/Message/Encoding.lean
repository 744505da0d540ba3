import DnsForwarder.Message.Response
import DnsForwarder.Proofs.Message.Pieces

/-! Which messages can be encoded. Names that were read are short enough to be
written again, and records that do not fit are left out, so what stands in the
way of a message is a record: one with a name that is no text of a name, or with
a string that is too long. -/

namespace DnsForwarder

namespace Message

variable {table : Table} {offset : Nat}

theorem length_writeLabels_le (stop : Nat) (labels : Labels) (table : Table)
    (offset : Nat) :
    (writeLabels stop table offset labels).1.length ≤ labels.span + 1 := by
  induction labels generalizing table offset with
  | nil => exact Nat.le_refl 1
  | cons label rest ih =>
      rw [writeLabels, Labels.span_cons]
      cases table.lookup (label :: rest) with
      | some target =>
          have hpointer : (pointerBytes target).length = 2 := rfl
          simp only [hpointer]
          omega
      | none =>
          have hrest :=
            ih (table.remember stop offset (label :: rest))
              (offset + label.length + 1)
          simp only [List.length_append, labelBytes, List.length_cons]
          omega

theorem writePiece_name {labels : Labels}
    (hfits : offset + labels.span + 1 ≤ maxSize) (table : Table) :
    ∃ written, writePiece table offset (.name labels) = .ok written ∧
      written.bytes.length ≤ labels.span + 1 := by
  have hlength :=
    length_writeLabels_le (offset + labels.span) labels table offset
  refine ⟨_, Written.upTo_eq_ok.mpr ⟨?_, rfl⟩, hlength⟩
  omega

theorem writePieces_inquiry {inquiry : Inquiry}
    (hfits : offset + inquiry.name.span + 5 ≤ maxSize) :
    ∃ written,
      writePieces table offset (inquiryPieces inquiry) = .ok written := by
  have hname : offset + inquiry.name.span + 1 ≤ maxSize := by omega
  obtain ⟨name, hname, hlength⟩ := writePiece_name hname table
  let chunks := [wordBytes inquiry.typeCode, wordBytes inquiry.classCode]
  have hcodes :
      writePiece name.table (offset + name.bytes.length) (.bytes chunks) =
        .ok ⟨chunks.flatten, name.table⟩ := by
    refine Written.upTo_eq_ok.mpr ⟨?_, rfl⟩
    have hsize : chunks.flatten.length = 4 := rfl
    omega
  refine ⟨⟨name.bytes ++ (chunks.flatten ++ []), name.table⟩, ?_⟩
  simp only [inquiryPieces, writePieces, hname, bind, Except.bind]
  rw [hcodes]
  rfl

theorem writePieces_inquiry? {inquiry? : Option Inquiry}
    (hspan : ∀ inquiry ∈ inquiry?, inquiry.name.span + 1 ≤ Labels.maxLength) :
    ∃ written, writePieces [] headerSize
      (inquiry?.toList.flatMap inquiryPieces) =
      .ok written := by
  cases inquiry? with
  | none => exact ⟨⟨[], []⟩, rfl⟩
  | some inquiry =>
      have hshort := hspan inquiry rfl
      have hpieces : (some inquiry).toList.flatMap inquiryPieces =
          inquiryPieces inquiry := by
        simp
      rw [hpieces]
      apply writePieces_inquiry
      simp only [Labels.maxLength, headerSize, maxSize] at hshort ⊢
      omega

theorem Written.upTo_ne_tooLong (written : Written) (offset stop : Nat)
    (chunks : List Octets) :
    written.upTo offset stop chunks ≠ .error .stringTooLong := by
  rw [upTo]
  split <;> simp

theorem writePiece_tooLong {piece : Piece}
    (hfault : writePiece table offset piece = .error .stringTooLong) :
    ∃ bytes, piece = .string bytes ∧ 255 < bytes.length := by
  cases piece with
  | string bytes =>
      by_cases hlong : 255 < bytes.length
      · exact ⟨bytes, rfl, hlong⟩
      · rw [writePiece, if_neg hlong] at hfault
        exact (Written.upTo_ne_tooLong _ _ _ _ hfault).elim
  | _ => exact (Written.upTo_ne_tooLong _ _ _ _ hfault).elim

theorem WriteFault.behind_eq_tooLong {front : Octets} {fault : WriteFault} :
    fault.behind front = .stringTooLong ↔ fault = .stringTooLong := by
  cases fault <;> simp [behind]

theorem bind_eq_error {α β ε : Type} {first : Except ε α}
    {next : α → Except ε β} {error : ε} :
    first >>= next = .error error ↔
      first = .error error ∨
        ∃ value, first = .ok value ∧ next value = .error error := by
  cases first <;> simp [bind, Except.bind]

theorem mapError_eq_error {α ε δ : Type} {attempt : Except ε α}
    {convert : ε → δ} {error : δ} :
    attempt.mapError convert = .error error ↔
      ∃ reason, attempt = .error reason ∧ convert reason = error := by
  cases attempt with
  | error reason =>
      constructor
      · intro herror
        exact ⟨reason, rfl, Except.error.inj herror⟩
      · rintro ⟨other, hother, rfl⟩
        cases hother
        rfl
  | ok value => exact ⟨nofun, nofun⟩

theorem writePieces_tooLong {pieces : List Piece}
    (hfault : writePieces table offset pieces = .error .stringTooLong) :
    ∃ bytes, .string bytes ∈ pieces ∧ 255 < bytes.length := by
  induction pieces generalizing table offset with
  | nil => cases hfault
  | cons piece rest ih =>
      rcases bind_eq_error.mp hfault with hpiece | ⟨first, -, hfault⟩
      · obtain ⟨bytes, rfl, hlong⟩ := writePiece_tooLong hpiece
        exact ⟨bytes, List.mem_cons_self, hlong⟩
      · rcases bind_eq_error.mp hfault with hothers | ⟨others, -, hothers⟩
        · obtain ⟨fault, hrest, hbehind⟩ := mapError_eq_error.mp hothers
          rw [WriteFault.behind_eq_tooLong] at hbehind
          obtain ⟨bytes, hmem, hlong⟩ := ih (hbehind ▸ hrest)
          exact ⟨bytes, List.mem_cons_of_mem _ hmem, hlong⟩
        · cases hothers

end Message

def RecordData.strings {ν σ : Type} : RecordData ν σ → List σ
  | .txt strings => strings
  | _ => []

namespace Message

theorem string_mem_dataPieces {data : RecordData Labels Octets} {bytes : Octets}
    (hmem : .string bytes ∈ dataPieces data) : bytes ∈ data.strings := by
  cases data with
  | txt strings =>
      obtain ⟨string, hstring, heq⟩ := List.mem_map.mp hmem
      cases heq
      exact hstring
  | _ => simp [dataPieces] at hmem

theorem writeRecord_tooLong {record : WireRecord}
    (hfault : writeRecord table offset record = .error .stringTooLong) :
    ∃ bytes ∈ record.data.strings, 255 < bytes.length := by
  rcases bind_eq_error.mp hfault with hhead | ⟨head, -, hfault⟩
  · obtain ⟨bytes, hmem, -⟩ := writePieces_tooLong hhead
    simp [headPieces] at hmem
  · rcases bind_eq_error.mp hfault with hdata | ⟨data, -, hdata⟩
    · obtain ⟨fault, hdata, hbehind⟩ := mapError_eq_error.mp hdata
      rw [WriteFault.behind_eq_tooLong] at hbehind
      obtain ⟨bytes, hmem, hlong⟩ := writePieces_tooLong (hbehind ▸ hdata)
      exact ⟨bytes, string_mem_dataPieces hmem, hlong⟩
    · cases hdata

/-- Records can be written unless one has a string that is too long: what does
not fit is left out. -/
theorem writeRecords_error {records : List WireRecord} {fault : WriteFault}
    (hfault : writeRecords table offset records = .error fault) :
    ∃ record ∈ records, ∃ bytes ∈ record.data.strings, 255 < bytes.length := by
  induction records generalizing table offset fault with
  | nil => cases hfault
  | cons record rest ih =>
      rw [writeRecords] at hfault
      cases hrecord : writeRecord table offset record with
      | error first =>
          rw [hrecord] at hfault
          cases first with
          | full => cases hfault
          | stringTooLong =>
              obtain ⟨bytes, hmem, hlong⟩ := writeRecord_tooLong hrecord
              exact ⟨record, List.mem_cons_self, bytes, hmem, hlong⟩
      | ok first =>
          simp only [hrecord] at hfault
          cases hrest : writeRecords first.table
            (offset + first.bytes.length) rest with
          | error later =>
              obtain ⟨other, hmem, hlong⟩ := ih hrest
              exact ⟨other, List.mem_cons_of_mem _ hmem, hlong⟩
          | ok others =>
              rw [hrest] at hfault
              cases hfault

end Message

end DnsForwarder
