import DnsForwarder.Proofs.DomainName.Escapes
import DnsForwarder.Proofs.Message.Matching
import DnsForwarder.Proofs.Question

/-! Queries and their echoes. A response that repeats the id and the question of
a query is held for the response to it just when the name that was asked for is
written again as it was read; for an address, and for any name whose backslashes
stand before dots alone, it is. -/

namespace DnsForwarder.Message

open DomainName

variable {question : Question} {id : UInt16} {query : Octets}

/-- A message as a server sends it back that repeats the id and the question
section of a query. -/
structure EchoesExactly (echo query : Message) : Prop where
  isResponse : echo.header.isResponse = true
  id : echo.header.id = query.header.id
  questions : echo.questions = query.questions

theorem askedName_eq_iff (hbuilt : Question.Built question) {asked : Inquiry}
    (hasked : toLabels question.queryName = .ok asked.name) :
    Response.askedName asked = question.queryName.toList ↔
      escapesDots question.bareName = true := by
  have hname := question.toList_queryName
  obtain ⟨spelled, hspelled, hlabels⟩ := spelled?_of_toLabels hname hasked
  rw [Response.askedName, hname, ← hlabels]
  exact fold_text_eq_qualified_iff hbuilt.isNormal_bareName hspelled

/-- A response that repeats a query is read, and held for the response to it
just when the name that was asked for is written as it was. -/
theorem EchoesExactly.answers_iff (hbuilt : Question.Built question)
    (hbuild : buildQuery question id = .ok query) {sent echo : Message}
    {bytes : Octets} (hsent : decode? query = some sent)
    (hecho : decode? bytes = some echo) (hrepeats : echo.EchoesExactly sent) :
    Response.parse bytes = .ok (.ofMessage echo) ∧
      ((Response.ofMessage echo).answers id question = true ↔
        escapesDots question.bareName = true) := by
  obtain ⟨message, asked, hmessage, hid, hquestions, hname, htype⟩ :=
    decode?_buildQuery hbuild
  rw [hsent, Option.some.injEq] at hmessage
  subst hmessage
  constructor
  · simp only [Response.parse, hecho, hrepeats.isResponse, if_true]
  · have hechoed : (Response.ofMessage echo).message.questions = [asked] :=
      hrepeats.questions.trans hquestions
    have hsame : (Response.ofMessage echo).id = id := hrepeats.id.trans hid
    have hcode : RecordType.ofCode? asked.typeCode = some question.type :=
      RecordType.ofCode?_eq_some_iff.mpr htype.symm
    rw [← askedName_eq_iff hbuilt hname]
    simp [Response.answers, hechoed, hsame, hcode]

/-- What a query is read as, and when a response that repeats it is accepted. -/
theorem repeated_query_is_accepted_iff (hbuilt : Question.Built question)
    (hbuild : buildQuery question id = .ok query) :
    ∃ sent asked, decode? query = some sent ∧ sent.header.id = id ∧
      sent.header.recursionDesired = true ∧ sent.header.isResponse = false ∧
      sent.questions = [asked] ∧ asked.typeCode = question.type.code ∧
      ∀ bytes echo, decode? bytes = some echo → echo.EchoesExactly sent →
        ∃ response, Response.parse bytes = .ok response ∧
          (response.answers id question = true ↔
            escapesDots question.bareName = true) := by
  obtain ⟨asked, hasked, hsent⟩ := decode?_query hbuild
  obtain ⟨name, hname, hinquiry⟩ := bind_eq_ok.mp hasked
  cases hinquiry
  exact ⟨_, _, hsent, rfl, rfl, rfl, rfl, rfl, fun bytes echo hecho hrepeats =>
    ⟨_, hrepeats.answers_iff hbuilt hbuild hsent hecho⟩⟩

/-- The question for the address of a name whose first label holds a dot. -/
def dottedLabel : Question :=
  ⟨.a, .name "a\\.b.example"⟩

def dottedQuery : Octets :=
  [0, 0, 1, 0, 0, 1, 0, 0, 0, 0, 0, 0, 3, 97, 46, 98, 7, 101, 120, 97, 109, 112,
    108, 101, 0, 0, 1, 0, 1]

theorem dotted_label_is_accepted :
    buildQuery dottedLabel 0 = .ok dottedQuery ∧
      ∃ sent asked, decode? dottedQuery = some sent ∧ sent.questions = [asked] ∧
        ∀ bytes echo, decode? bytes = some echo → echo.EchoesExactly sent →
          ∃ response, Response.parse bytes = .ok response ∧
            response.answers 0 dottedLabel = true := by
  have hquestion : Question.ofText .a "a\\.B.example" = .ok dottedLabel :=
    by decide +kernel
  have hbuild : buildQuery dottedLabel 0 = .ok dottedQuery := by decide +kernel
  have hescapes : escapesDots dottedLabel.bareName = true := by decide +kernel
  obtain ⟨sent, asked, hsent, -, -, -, hasked, -, hanswers⟩ :=
    repeated_query_is_accepted_iff (.asked hquestion) hbuild
  refine ⟨hbuild, sent, asked, hsent, hasked,
    fun bytes echo hecho hrepeats => ?_⟩
  obtain ⟨response, hparse, hiff⟩ := hanswers bytes echo hecho hrepeats
  exact ⟨response, hparse, hiff.mpr hescapes⟩

/-- The question for the address of a name whose first letter stands behind a
backslash. -/
def escapedLetter : Question :=
  ⟨.a, .name "\\a.example"⟩

/-- What a query for it asks: the letter alone is the first label. -/
def letterInquiry : Inquiry :=
  ⟨[[97], [101, 120, 97, 109, 112, 108, 101]], 1, internet⟩

def letterQuery : Octets :=
  [0, 0, 1, 0, 0, 1, 0, 0, 0, 0, 0, 0, 1, 97, 7, 101, 120, 97, 109, 112, 108,
    101, 0, 0, 1, 0, 1]

def letterEcho : Octets :=
  [0, 0, 129, 128, 0, 1, 0, 0, 0, 0, 0, 0, 1, 97, 7, 101, 120, 97, 109, 112,
    108, 101, 0, 0, 1, 0, 1]

/-- A query whose genuine responses are all taken for those of another one. -/
theorem escaped_letter_is_not_accepted :
    Question.ofText .a "\\a.example" = .ok escapedLetter ∧
      buildQuery escapedLetter 0 = .ok letterQuery ∧
      ∃ sent echo, decode? letterQuery = some sent ∧
      sent.questions = [letterInquiry] ∧
        decode? letterEcho = some echo ∧ echo.EchoesExactly sent ∧
        ∃ response, Response.parse letterEcho = .ok response ∧
          response.answers 0 escapedLetter = false := by
  have hsent : decode? letterQuery =
      some ⟨queryHeader 0, [letterInquiry], [], [], [], none⟩ :=
      by decide +kernel
  have hecho : decode? letterEcho =
      some ⟨{ queryHeader 0 with
              isResponse := true, recursionAvailable := true },
        [letterInquiry], [], [], [], none⟩ := by decide +kernel
  refine ⟨by decide +kernel, by decide +kernel, _, _, hsent, rfl, hecho,
    ⟨rfl, rfl, rfl⟩, ?_⟩
  exact ⟨.ofMessage _, by simp only [Response.parse, hecho]; rfl,
    by decide +kernel⟩

end DnsForwarder.Message
