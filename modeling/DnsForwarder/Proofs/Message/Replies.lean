import DnsForwarder.Proofs.Message.Encoding
import DnsForwarder.Server.Listener
import Mathlib.Data.List.Forall2

/-! The messages that replies are. One that reports an error can always be
written; what stands in the way of one with records is a record that no message
can carry. -/

namespace DnsForwarder

/-- A message can carry the record: its names can be read, and no string of it
is too long. -/
def Record.Sendable (record : Record) : Prop :=
  ∃ wire, record.toWire = .ok wire ∧
    ∀ bytes ∈ wire.data.strings, bytes.length ≤ 255

namespace Message

theorem mapM_eq_ok {α β ε : Type} {convert : α → Except ε β} {values : List α}
    {converted : List β} (hmap : values.mapM convert = .ok converted) :
    List.Forall₂ (fun value result => convert value = .ok result) values
      converted := by
  induction values generalizing converted with
  | nil =>
      cases hmap
      exact .nil
  | cons value rest ih =>
      rw [List.mapM_cons] at hmap
      cases hvalue : convert value with
      | error error =>
          rw [hvalue] at hmap
          cases hmap
      | ok result =>
          cases hrest : rest.mapM convert with
          | error error =>
              rw [hvalue, hrest] at hmap
              cases hmap
          | ok results =>
              rw [hvalue, hrest] at hmap
              cases hmap
              exact .cons hvalue (ih hrest)

theorem forall₂_mem_right {α β : Type} {relation : α → β → Prop}
    {values : List α} {results : List β}
    (hall : List.Forall₂ relation values results) {result : β}
    (hresult : result ∈ results) : ∃ value ∈ values, relation value result := by
  obtain ⟨index, hindex, rfl⟩ := List.getElem_of_mem hresult
  obtain ⟨hlength, hget⟩ := List.forall₂_iff_get.mp hall
  exact ⟨_, List.getElem_mem _, hget index (hlength ▸ hindex) hindex⟩

theorem mapM_eq_error {α β ε : Type} {convert : α → Except ε β}
    {values : List α} {error : ε} (hmap : values.mapM convert = .error error) :
    ∃ value ∈ values, convert value = .error error := by
  induction values with
  | nil => cases hmap
  | cons value rest ih =>
      rw [List.mapM_cons] at hmap
      cases hvalue : convert value with
      | error first =>
          rw [hvalue] at hmap
          cases hmap
          exact ⟨value, List.mem_cons_self, hvalue⟩
      | ok result =>
          cases hrest : rest.mapM convert with
          | error later =>
              rw [hvalue, hrest] at hmap
              cases hmap
              obtain ⟨other, hother, herror⟩ := ih hrest
              exact ⟨other, List.mem_cons_of_mem _ hother, herror⟩
          | ok results =>
              rw [hvalue, hrest] at hmap
              cases hmap

theorem encoded_eq_ok {result : Except WriteFault Octets} {bytes : Octets}
    (hencoded : encoded result = .ok bytes) : result = .ok bytes := by
  cases result with
  | error fault => cases hencoded
  | ok written =>
      cases hencoded
      rfl

theorem encode_id {header : Header} {questions : List Inquiry}
    {answers : List WireRecord} {bytes : Octets}
    (hencode : encode header questions answers = .ok bytes) :
    Server.idOf? bytes = some header.id := by
  simp only [encode, bind, Except.bind] at hencode
  split at hencode
  next => cases hencode
  next =>
    split at hencode
    next => cases hencode
    next =>
      cases hencode
      exact congrArg some (wordOfBytes_wordBytes header.id)

variable {inquiry? : Option Inquiry}

/-- Beside its question, a message with at most one that is short can be written
up to a string that is too long. -/
theorem encode_error {header : Header} {answers : List WireRecord}
    {fault : WriteFault}
    (hspan : ∀ inquiry ∈ inquiry?, inquiry.name.span + 1 ≤ Labels.maxLength)
    (hencode : encode header inquiry?.toList answers = .error fault) :
    ∃ record ∈ answers, ∃ bytes ∈ record.data.strings, 255 < bytes.length := by
  obtain ⟨inquiries, hinquiries⟩ := writePieces_inquiry? hspan
  simp only [encode, hinquiries, bind, Except.bind] at hencode
  split at hencode
  next hrecords => exact writeRecords_error hrecords
  next => cases hencode

theorem buildError_ok (id : UInt16) (opcode : Opcode) (rcode : Rcode)
    (hspan : ∀ inquiry ∈ inquiry?, inquiry.name.span + 1 ≤ Labels.maxLength) :
    ∃ bytes, buildError id opcode inquiry? rcode = .ok bytes := by
  rw [buildError]
  cases hencode : encode (errorHeader id opcode rcode) inquiry?.toList [] with
  | error fault =>
      obtain ⟨record, hrecord, -⟩ := encode_error hspan hencode
      cases hrecord
  | ok bytes => exact ⟨bytes, rfl⟩

theorem buildError_id {id : UInt16} {opcode : Opcode} {rcode : Rcode}
    {bytes : Octets}
    (hbuild : buildError id opcode inquiry? rcode = .ok bytes) :
    Server.idOf? bytes = some id :=
  encode_id (encoded_eq_ok hbuild)

variable {header : ReplyHeader} {rcode : Rcode} {records : List Record}

theorem buildResponse_eq_ok {bytes : Octets}
    (hbuild : buildResponse header inquiry? rcode records = .ok bytes) :
    ∃ wires, (if header.truncated then [] else records).mapM Record.toWire =
      .ok wires ∧
      encode (replyHeader header rcode) inquiry?.toList wires = .ok bytes := by
  simp only [buildResponse, bind, Except.bind] at hbuild
  split at hbuild
  next => cases hbuild
  next wires hwires => exact ⟨wires, hwires, encoded_eq_ok hbuild⟩

theorem buildResponse_id {bytes : Octets}
    (hbuild : buildResponse header inquiry? rcode records = .ok bytes) :
    Server.idOf? bytes = some header.id := by
  obtain ⟨wires, -, hencode⟩ := buildResponse_eq_ok hbuild
  exact encode_id hencode

theorem buildResponse_readable {bytes : Octets}
    (hbuild : buildResponse header inquiry? rcode records = .ok bytes)
    (hwhole : header.truncated = false) :
    ∀ record ∈ records, ∃ wire, record.toWire = .ok wire := by
  obtain ⟨wires, hwires, -⟩ := buildResponse_eq_ok hbuild
  rw [hwhole] at hwires
  intro record hrecord
  obtain ⟨index, hindex, rfl⟩ := List.getElem_of_mem hrecord
  have hall := List.forall₂_iff_get.mp (mapM_eq_ok hwires)
  exact ⟨_, hall.2 index hindex (hall.1 ▸ hindex)⟩

theorem buildResponse_error {error : Error}
    (hspan : ∀ inquiry ∈ inquiry?, inquiry.name.span + 1 ≤ Labels.maxLength)
    (hbuild : buildResponse header inquiry? rcode records = .error error) :
    header.truncated = false ∧ ∃ record ∈ records, ¬record.Sendable := by
  simp only [buildResponse, bind, Except.bind] at hbuild
  split at hbuild
  next hwires =>
    obtain ⟨record, hrecord, herror⟩ := mapM_eq_error hwires
    split at hrecord
    next => cases hrecord
    next htruncated =>
      refine ⟨by simpa using htruncated, record, hrecord, ?_⟩
      rintro ⟨wire, hwire, -⟩
      rw [herror] at hwire
      cases hwire
  next wires hwires =>
    have hall := mapM_eq_ok hwires
    cases hencode : encode (replyHeader header rcode) inquiry?.toList wires with
    | ok bytes =>
        rw [hencode] at hbuild
        cases hbuild
    | error fault =>
        obtain ⟨wire, hwire, bytes, hbytes, hlong⟩ := encode_error hspan hencode
        obtain ⟨record, hrecord, hsame⟩ := forall₂_mem_right hall hwire
        split at hrecord
        next => cases hrecord
        next htruncated =>
          refine ⟨by simpa using htruncated, record, hrecord, ?_⟩
          rintro ⟨other, hother, hshort⟩
          rw [hsame] at hother
          cases hother
          have hle := hshort bytes hbytes
          omega

section Causes

variable {ε ν ν' σ σ' : Type} {error : ε}

theorem mapNames_eq_error {convert : ν → Except ε ν'} {onString : σ → σ'}
    {data : RecordData ν σ}
    (hmap : data.mapNames convert onString = .error error) :
    ∃ name, convert name = .error error := by
  have hsole {build : ν' → RecordData ν' σ'} {name : ν}
      (hmap : (convert name).map build = .error error) :
      ∃ name, convert name = .error error := by
    cases hname : convert name with
    | error fault =>
        rw [hname] at hmap
        cases hmap
        exact ⟨name, hname⟩
    | ok read =>
        rw [hname] at hmap
        cases hmap
  cases data with
  | a | aaaa | txt => cases hmap
  | ptr | ns | cname | mx | srv => exact hsole hmap
  | soa primary mailbox =>
      rcases bind_eq_error.mp hmap with hprimary | ⟨first, -, hmap⟩
      · exact ⟨primary, hprimary⟩
      · rcases bind_eq_error.mp hmap with hmailbox | ⟨second, -, hmap⟩
        · exact ⟨mailbox, hmailbox⟩
        · cases hmap

end Causes

theorem buildResponse_eq_error {error : Error}
    (hbuild : buildResponse header inquiry? rcode records = .error error) :
    (∃ fault, error = .invalidName fault) ∨
      error = .invalidMessage .unencodable := by
  have hname {name : String} {error : Error} (hread : DomainName.toLabels name =
      .error error) : ∃ fault, error = .invalidName fault := by
    simp only [DomainName.toLabels, DomainName.toSpelled] at hread
    split at hread
    next => cases hread
    next =>
      split at hread
      next => cases hread
      next =>
        cases hread
        exact ⟨_, rfl⟩
  rcases bind_eq_error.mp hbuild with hwires | ⟨wires, -, hencoded⟩
  · obtain ⟨record, -, hrecord⟩ := mapM_eq_error hwires
    rcases bind_eq_error.mp hrecord with howner | ⟨owner, -, hrecord⟩
    · exact .inl (hname howner)
    · rcases bind_eq_error.mp hrecord with hdata | ⟨data, -, hrecord⟩
      · obtain ⟨name, hread⟩ := mapNames_eq_error hdata
        exact .inl (hname hread)
      · cases hrecord
  · unfold encoded at hencoded
    split at hencoded
    next => cases hencoded
    next =>
      cases hencoded
      exact .inr rfl

end Message

end DnsForwarder
