import DnsForwarder.Proofs.DomainName.Spelling
import DnsForwarder.Proofs.Message.Regular
import DnsForwarder.Proofs.Message.RoundTrip

/-! Responses that belong to a query. A query is read as what was asked, and a
response is held for one to it just when it repeats the id and the question;
names are compared as texts, and that comes to the same as labels up to case. -/

namespace DnsForwarder

namespace Message

/-- A message is a response to another one: it has the same id and asks the
same, up to case. -/
structure Echoes (response query : Message) : Prop where
  isResponse : response.header.isResponse
  id : response.header.id = query.header.id
  question : ∃ asked echoed, query.questions = [asked] ∧
    response.questions = [echoed] ∧
    echoed.typeCode = asked.typeCode ∧ echoed.name.lower = asked.name.lower

variable {question : Question} {id : UInt16} {query bytes : Octets}
  {response : Response}

theorem decode?_query (hbuild : buildQuery question id = .ok query) :
    ∃ asked, Inquiry.ofQuestion question = .ok asked ∧
      decode? query = some ⟨queryHeader id, [asked], [], [], [], none⟩ := by
  obtain ⟨asked, hasked, hbuild⟩ := bind_eq_ok.mp hbuild
  refine ⟨asked, hasked, ?_⟩
  obtain ⟨name, hname, hinquiry⟩ := bind_eq_ok.mp hasked
  cases hinquiry
  obtain ⟨count, -, hdecode⟩ := decode?_encode
    (by simpa using DomainName.toLabels_isValid hname) (by simp)
    (encoded_eq_ok hbuild)
  simpa [Header.arrived, queryHeader, Message.query, Rcode.noError]
    using hdecode

theorem decode?_buildQuery (hbuild : buildQuery question id = .ok query) :
    ∃ message asked, decode? query = some message ∧ message.header.id = id ∧
      message.questions = [asked] ∧ DomainName.toLabels question.queryName =
        .ok asked.name ∧
      asked.typeCode = question.type.code := by
  obtain ⟨asked, hasked, hdecode⟩ := decode?_query hbuild
  obtain ⟨name, hname, hinquiry⟩ := bind_eq_ok.mp hasked
  cases hinquiry
  exact ⟨_, _, hdecode, rfl, rfl, hname, rfl⟩

theorem exists_buildQuery {labels : Labels}
    (hlabels : DomainName.toLabels question.queryName = .ok labels)
    (id : UInt16) :
    ∃ query, buildQuery question id = .ok query := by
  let inquiry : Inquiry := ⟨labels, question.type.code, internet⟩
  have hspan : ∀ asked ∈ some inquiry, asked.name.span + 1 ≤
      Labels.maxLength := by
    intro asked hasked
    cases hasked
    exact (labels_isValid_iff.mp (DomainName.toLabels_isValid hlabels)).2
  have hbuild :
      buildQuery question id =
      encoded (encode (queryHeader id) [inquiry] []) := by
    simp only [buildQuery, Inquiry.ofQuestion, hlabels]
    rfl
  cases hencode : encode (queryHeader id) [inquiry] [] with
  | error fault =>
      obtain ⟨record, hrecord, -⟩ := encode_error hspan hencode
      cases hrecord
  | ok query => exact ⟨query, by rw [hbuild, hencode]; rfl⟩

/-- A query cannot be built just when the name cannot be read, whatever the id
is. -/
theorem buildQuery_eq_error_iff {error : Error} :
    buildQuery question id = .error error ↔
      DomainName.toLabels question.queryName = .error error := by
  cases hlabels : DomainName.toLabels question.queryName with
  | error fault =>
      simp [buildQuery, Inquiry.ofQuestion, hlabels, bind, Except.bind]
  | ok labels =>
      obtain ⟨query, hquery⟩ := exists_buildQuery hlabels id
      simp [hquery]

theorem label_ne_nil {labels : Labels} (hvalid : labels.isValid) :
    ∀ label ∈ labels, label ≠ [] := by
  intro label hlabel hnil
  have hlength := ((labels_isValid_iff.mp hvalid).1 label hlabel).1
  rw [hnil] at hlength
  exact Nat.not_succ_le_zero 0 hlength

theorem echoes_of_answers (hbuild : buildQuery question id = .ok query)
    (hparse : Response.parse bytes = .ok response)
    (hanswers : response.answers id question) :
    ∃ sent received, decode? query = some sent ∧ sent.header.id = id ∧
      (∃ asked, sent.questions = [asked] ∧
        asked.typeCode = question.type.code) ∧
      decode? bytes = some received ∧ response = .ofMessage received ∧
      received.Echoes sent := by
  obtain ⟨received, hreceived, hisResponse, rfl⟩ := Response.parse_eq_ok hparse
  obtain ⟨sent, asked, hsent, hid, hasked, hname, htype⟩ :=
    decode?_buildQuery hbuild
  rw [Response.answers] at hanswers
  split at hanswers
  next echoed hechoed =>
    simp only [Bool.and_eq_true, beq_iff_eq, RecordType.ofCode?_eq_some_iff]
      at hanswers
    obtain ⟨⟨hsame, hcode⟩, htext⟩ := hanswers
    have hquestions : received.questions = [echoed] := hechoed
    have hvalid := decode?_isValid hreceived echoed (by simp [hquestions])
    have hlower :=
      DomainName.labels_of_fold_text (label_ne_nil hvalid) htext hname
    refine ⟨sent, received, hsent, hid, ⟨asked, hasked, htype⟩,
      hreceived, rfl, ?_⟩
    exact {
      isResponse := hisResponse
      id := hsame.trans hid.symm
      question :=
        ⟨asked, echoed, hasked, hquestions, hcode.symm.trans htype.symm, by
          rw [hlower, DomainName.lower_lower]⟩ }
  next => cases hanswers

end Message

end DnsForwarder
