import DnsForwarder.Message.Reader
import DnsForwarder.Server.Listener

/-! What is known of a message that was decoded: its names are short enough to
be written again, and its id stands in front of its bytes. -/

namespace DnsForwarder.Message

variable {cursor behind : Cursor}

theorem readName_short {labels : Labels}
    (hread : readName cursor = some (labels, behind)) :
    labels.span + 1 ≤ Labels.maxLength := by
  simp only [readName, Option.bind_eq_bind, Option.bind_eq_some_iff] at hread
  obtain ⟨⟨found, rest⟩, -, hread⟩ := hread
  split at hread
  next hshort =>
    cases hread
    exact hshort
  next => cases hread

theorem readInquiry_short {inquiry : Inquiry}
    (hread : readInquiry cursor = some (inquiry, behind)) :
    inquiry.name.span + 1 ≤ Labels.maxLength := by
  simp only [readInquiry, Option.bind_eq_bind, Option.bind_eq_some_iff] at hread
  obtain ⟨⟨name, rest⟩, hname, _, -, _, -, hread⟩ := hread
  cases hread
  exact readName_short hname

theorem readMany_forall {α : Type} {read : Cursor → Option (α × Cursor)}
    {property : α → Prop}
    (hread : ∀ cursor value behind, read cursor = some (value, behind) →
      property value)
    {count : Nat} {values : List α}
    (hmany : readMany read count cursor = some (values, behind)) :
    ∀ value ∈ values, property value := by
  induction count generalizing cursor values behind with
  | zero =>
      cases hmany
      nofun
  | succ count ih =>
      simp only [readMany, Option.bind_eq_bind, Option.bind_eq_some_iff]
        at hmany
      obtain ⟨⟨first, next⟩, hfirst, ⟨others, last⟩, hothers, hmany⟩ := hmany
      cases hmany
      rw [List.forall_mem_cons]
      exact ⟨hread cursor first next hfirst, ih hothers⟩

theorem decode?_cases {bytes : Octets} {request : Message}
    (hdecode : decode? bytes = some request) :
    ∃ cursor count next behind,
      readHeader (Cursor.ofOffset bytes 0) = some (request.header, cursor) ∧
      readMany readInquiry count next = some (request.questions, behind) := by
  simp only [decode?, Option.bind_eq_bind, Option.bind_eq_some_iff] at hdecode
  obtain ⟨⟨header, cursor⟩, hheader, ⟨count, _⟩, -, _, -, _, -, ⟨_, next⟩, -,
    ⟨questions, behind⟩, hquestions, _, -, _, -, _, -, hdecode⟩ := hdecode
  split at hdecode
  next => cases hdecode
  next =>
    cases hdecode
    exact ⟨cursor, count.toNat, next, behind, hheader, hquestions⟩

theorem decode?_short {bytes : Octets} {request : Message}
    (hdecode : decode? bytes = some request) :
    ∀ inquiry ∈ request.questions, inquiry.name.span + 1 ≤
      Labels.maxLength := by
  obtain ⟨-, count, next, behind, -, hquestions⟩ := decode?_cases hdecode
  exact readMany_forall (fun _ _ _ => readInquiry_short) hquestions

theorem ofOffset_word? {bytes : Octets} {word : UInt16}
    (hword : (Cursor.ofOffset bytes 0).word? = some (word, behind)) :
    Server.idOf? bytes = some word := by
  match bytes, hword with
  | high :: low :: _, hword =>
      cases hword
      rfl

theorem decode?_id {bytes : Octets} {request : Message}
    (hdecode : decode? bytes = some request) :
    Server.idOf? bytes = some request.header.id := by
  obtain ⟨cursor, -, -, -, hheader, -⟩ := decode?_cases hdecode
  simp only [readHeader, Option.bind_eq_bind, Option.bind_eq_some_iff]
    at hheader
  obtain ⟨⟨id, rest⟩, hword, _, -, _, -, hheader⟩ := hheader
  have hid : id = request.header.id :=
    congrArg (fun read => read.1.id) (Option.some.inj hheader)
  rw [← hid]
  exact ofOffset_word? hword

end DnsForwarder.Message
