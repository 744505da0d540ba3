import DnsForwarder.Proofs.Message.Queries
import DnsForwarder.Proofs.Server.Replies

/-! Names on their way from a request to the query for it. A query asks the name
of the request, up to the case of letters, and requests are for one question
just when their names are the same up to case. -/

namespace DnsForwarder.Server

open Message DomainName

variable {bytes : Octets} {request : Message} {inquiry : Inquiry}
  {question : Question}

theorem label_ne_nil_of_question (hrequest : decode? bytes = some request)
    (hquestions : request.questions = [inquiry]) :
    ∀ label ∈ inquiry.name, label ≠ [] :=
  label_ne_nil (decode?_isValid hrequest inquiry (by simp [hquestions]))

theorem queryName_of_text {type : RecordType} {labels : Labels}
    (hquestion : Question.ofText type (String.ofList (DomainName.text labels)) =
      .ok question) :
    (∃ address, question = .reverse address) ∨
      question.queryName.toList = Text.fold (DomainName.text labels) := by
  obtain ⟨address, haddress, -⟩ | ⟨name, hname, -, rfl⟩ :=
    Question.ofText_eq_ok hquestion
  · exact .inl ⟨address, haddress⟩
  · rw [String.toList_ofList] at hname
    have hbare : Question.bareName ⟨type, .name (String.ofList name)⟩ = name :=
      String.toList_ofList
    rw [Question.toList_queryName, hbare]
    exact .inr ((normalizeText_text_iff labels).mp hname).1

theorem ofText_of_queryName (hbuilt : Question.Built question)
    (hptr : question.type ≠ .ptr) {labels : Labels}
    (hname : question.queryName.toList = Text.fold (DomainName.text labels)) :
    Question.ofText question.type (String.ofList (DomainName.text labels)) =
      .ok question := by
  obtain ⟨address, rfl⟩ | ⟨hnormal, -, hquestion⟩ := hbuilt.target
  · exact absurd rfl hptr
  · rw [Question.toList_queryName] at hname
    refine (Question.ofText_eq_ok_iff hptr).mpr
      ⟨question.bareName, ?_, hquestion⟩
    rw [String.toList_ofList]
    exact (normalizeText_text_iff labels).mpr ⟨hname, hnormal⟩

/-- The name that is asked for is the name that is forwarded, and no other name
leads to the same question. -/
theorem query_asks_what_was_asked (hrequest : decode? bytes = some request)
    (hquestion : Server.question request = .ok (inquiry, question))
    (hptr : question.type ≠ .ptr) :
    (∀ id query, buildQuery question id = .ok query →
      ∃ sent asked, decode? query = some sent ∧ sent.questions = [asked] ∧
        asked.typeCode = inquiry.typeCode ∧
        asked.name.lower = inquiry.name.lower) ∧
    ∀ bytes other inquiry', decode? bytes = some other → other.header.opcode =
      Message.query →
      other.questions = [inquiry'] → inquiry'.typeCode = inquiry.typeCode →
        (Server.question other = .ok (inquiry', question) ↔
          inquiry'.name.lower = inquiry.name.lower) := by
  obtain ⟨-, hsole, type, hcode, hread⟩ := question_eq_ok_iff.mp hquestion
  have hbuilt : Question.Built question := .asked hread
  have htype := Question.type_of_ofText hread
  have hname :=
    (queryName_of_text hread).resolve_left fun ⟨address, haddress⟩ =>
      hptr (congrArg Question.type haddress)
  have hlabels := label_ne_nil_of_question hrequest hsole
  constructor
  · intro id query hbuild
    obtain ⟨sent, asked, hsent, -, hquestions, hasked, hsentType⟩ :=
      decode?_buildQuery hbuild
    refine ⟨sent, asked, hsent, hquestions, ?_, ?_⟩
    · rw [hsentType, htype, RecordType.ofCode?_eq_some_iff.mp hcode]
    · rw [labels_of_fold_text hlabels hname.symm hasked, lower_lower]
  · intro bytes other inquiry' hother hopcode hothers hsame
    have hlabels' := label_ne_nil_of_question hother hothers
    constructor
    · intro hquestion'
      obtain ⟨-, -, type', -, hread'⟩ := question_eq_ok_iff.mp hquestion'
      have hname' :=
        (queryName_of_text hread').resolve_left fun ⟨address, haddress⟩ =>
          hptr (congrArg Question.type haddress)
      -- Both texts are the query name, and lowercase labels are told apart by
      -- their texts.
      rw [hname, ← text_lower, ← text_lower] at hname'
      exact (text_injective (by simpa [Labels.lower] using hlabels)
        (by simpa [Labels.lower] using hlabels') hname').symm
    · intro hlower
      refine question_eq_ok_iff.mpr ⟨hopcode, hothers, type, hsame ▸ hcode, ?_⟩
      rw [← htype]
      refine ofText_of_queryName hbuilt hptr ?_
      rw [hname, ← text_lower, ← hlower, text_lower]

/-- What a request asks for the address of a name whose first label is `A.b`. -/
def mixedInquiry : Inquiry :=
  ⟨[[65, 46, 98], [69, 120, 97, 109, 112, 108, 101]], 1, internet⟩

def mixedRequest : Octets :=
  [0, 7, 1, 0, 0, 1, 0, 0, 0, 0, 0, 0, 3, 65, 46, 98, 7, 69, 120, 97, 109, 112,
    108, 101, 0, 0, 1, 0, 1]

theorem mixed_request_asks_what_was_asked :
    decode? mixedRequest =
      some ⟨queryHeader 7, [mixedInquiry], [], [], [], none⟩ ∧
      Server.question ⟨queryHeader 7, [mixedInquiry], [], [], [], none⟩ =
        .ok (mixedInquiry, dottedLabel) ∧
      buildQuery dottedLabel 0 = .ok dottedQuery ∧
      ∃ sent asked, decode? dottedQuery = some sent ∧ sent.questions = [asked] ∧
        asked.typeCode = mixedInquiry.typeCode ∧
        asked.name.lower = mixedInquiry.name.lower ∧
        Server.question sent = .ok (asked, dottedLabel) := by
  have hrequest : decode? mixedRequest =
      some ⟨queryHeader 7, [mixedInquiry], [], [], [], none⟩ :=
      by decide +kernel
  have hquestion :
      Server.question ⟨queryHeader 7, [mixedInquiry], [], [], [], none⟩ =
      .ok (mixedInquiry, dottedLabel) := by decide +kernel
  have hbuild : buildQuery dottedLabel 0 = .ok dottedQuery := by decide +kernel
  obtain ⟨hforwarded, hothers⟩ :=
    query_asks_what_was_asked hrequest hquestion (by decide)
  obtain ⟨sent, asked, hsent, hasked, htype, hname⟩ :=
    hforwarded 0 dottedQuery hbuild
  have hopcode : sent.header.opcode = Message.query := by
    obtain ⟨_, -, hquery⟩ := decode?_query hbuild
    cases hsent.symm.trans hquery
    rfl
  exact ⟨hrequest, hquestion, hbuild, sent, asked, hsent, hasked, htype, hname,
    (hothers dottedQuery sent asked hsent hopcode hasked htype).mpr hname⟩

end DnsForwarder.Server
