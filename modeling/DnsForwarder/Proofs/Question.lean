import DnsForwarder.Proofs.Address.Text
import DnsForwarder.Proofs.DomainName.Reverse
import DnsForwarder.Question

/-! Canonical questions. Every question is read back from its type and its query
name, so these two decide which question it is. -/

namespace DnsForwarder.Question

open DomainName

variable {type : RecordType} {question other : Question} {text : String}
  {name : List Char} {address : IpAddress}

/-- The questions that can be asked: those that a text asks, and the reverse
lookups. -/
inductive Built : Question → Prop
  | asked {type : RecordType} {text : String} {question : Question}
      (hquestion : ofText type text = .ok question) : Built question
  | reversed (address : IpAddress) : Built (reverse address)

def bareName (question : Question) : List Char :=
  match question.target with
  | .name name => name.toList
  | .address address => address.bareReverseName

section Reading

theorem ofText_of_literal
    (hliteral : literal? type text.toList = some address) :
    ofText type text = .ok (reverse address) := by
  simp only [ofText, hliteral]

theorem ofText_of_folded (hliteral : literal? type text.toList = none)
    (hname : normalizeText text.toList = .ok name)
    (hfolded : folded? type name = some address) :
    ofText type text = .ok (reverse address) := by
  simp only [ofText, hliteral, hname, hfolded]

theorem ofText_of_name (hliteral : literal? type text.toList = none)
    (hname : normalizeText text.toList = .ok name)
    (hfolded : folded? type name = none) :
    ofText type text = .ok ⟨type, .name (String.ofList name)⟩ := by
  simp only [ofText, hliteral, hname, hfolded]

theorem ofText_eq_ok (hquestion : ofText type text = .ok question) :
    (∃ address, question = reverse address ∧
      (literal? type text.toList = some address ∨
        ∃ name, normalizeText text.toList = .ok name ∧
        folded? type name = some address)) ∨
    ∃ name, normalizeText text.toList = .ok name ∧ folded? type name = none ∧
      question = ⟨type, .name (String.ofList name)⟩ := by
  unfold ofText at hquestion
  split at hquestion
  next address hliteral =>
    cases hquestion
    exact .inl ⟨address, rfl, .inl hliteral⟩
  next =>
    split at hquestion
    next => cases hquestion
    next name hname =>
      split at hquestion
      next address hfolded =>
        cases hquestion
        exact .inl ⟨address, rfl, .inr ⟨name, hname, hfolded⟩⟩
      next hfolded =>
        cases hquestion
        exact .inr ⟨name, hname, hfolded, rfl⟩

theorem type_of_ofText (hquestion : ofText type text = .ok question) :
    question.type = type := by
  obtain ⟨address, rfl, hliteral | ⟨name, -, hfolded⟩⟩ | ⟨name, -, -, rfl⟩ :=
    ofText_eq_ok hquestion
  · by_cases hptr : type = .ptr
    · exact hptr.symm
    · rw [literal?, if_neg hptr] at hliteral
      cases hliteral
  · by_cases hptr : type = .ptr
    · exact hptr.symm
    · rw [folded?, if_neg hptr] at hfolded
      cases hfolded
  · rfl

/-- Without reverse lookups a text asks for its normal form. -/
theorem ofText_eq_ok_iff (hptr : type ≠ .ptr) :
    ofText type text = .ok question ↔
      ∃ name, normalizeText text.toList = .ok name ∧
        question = ⟨type, .name (String.ofList name)⟩ := by
  have hliteral : literal? type text.toList = none := if_neg hptr
  have hfolded (name : List Char) : folded? type name = none := if_neg hptr
  constructor
  · intro hquestion
    obtain ⟨address, rfl, -⟩ | ⟨name, hname, -, rfl⟩ := ofText_eq_ok hquestion
    · exact absurd (type_of_ofText hquestion).symm hptr
    · exact ⟨name, hname, rfl⟩
  · rintro ⟨name, hname, rfl⟩
    exact ofText_of_name hliteral hname (hfolded name)

theorem Built.target (hbuilt : Built question) :
    (∃ address, question = reverse address) ∨
      IsNormal question.bareName ∧
      folded? question.type question.bareName = none ∧
        question = ⟨question.type,
          .name (String.ofList question.bareName)⟩ := by
  cases hbuilt with
  | reversed address => exact .inl ⟨address, rfl⟩
  | asked hquestion =>
      obtain ⟨address, haddress, -⟩ | ⟨name, hname, hfolded, rfl⟩ :=
        ofText_eq_ok hquestion
      · exact .inl ⟨address, haddress⟩
      · have hnormal := isNormal_of_normalizeText hname
        simp only [bareName, String.toList_ofList]
        exact .inr ⟨hnormal, hfolded, trivial⟩

end Reading

section QueryName

theorem toList_queryName (question : Question) :
    question.queryName.toList = qualified question.bareName := by
  obtain ⟨type, target⟩ := question
  cases target with
  | name name =>
      have hroot : name = "." ↔ name.toList = ['.'] := String.toList_inj.symm
      simp only [queryName, bareName, qualified, hroot, apply_ite String.toList,
        String.toList_append]
      rfl
  | address address =>
      exact String.toList_ofList.trans
        (IpAddress.qualified_bareReverseName address).symm

theorem Built.isNormal_bareName (hbuilt : Built question) :
    IsNormal question.bareName := by
  obtain ⟨address, rfl⟩ | ⟨hnormal, -, -⟩ := hbuilt.target
  · exact IpAddress.isNormal_bareReverseName address
  · exact hnormal

theorem literal?_qualified (type : RecordType) (hnormal : IsNormal name) :
    literal? type (qualified name) = none := by
  unfold literal?
  split
  next =>
    obtain ⟨front, hfront⟩ := exists_qualified_eq name
    rw [hnormal.trim_qualified, hfront]
    exact Address.parse?_append_dot front
  next => rfl

theorem Built.ofText_queryName (hbuilt : Built question) :
    ofText question.type question.queryName = .ok question := by
  have hnormal := hbuilt.isNormal_bareName
  have hliteral : literal? question.type question.queryName.toList = none := by
    rw [toList_queryName]
    exact literal?_qualified question.type hnormal
  have hname : normalizeText question.queryName.toList =
      .ok question.bareName := by
    rw [toList_queryName]
    exact hnormal.normalizeText_qualified
  obtain ⟨address, rfl⟩ | ⟨-, hfolded, hquestion⟩ := hbuilt.target
  · exact ofText_of_folded hliteral hname
      (IpAddress.ofReverseName?_bareReverseName address)
  · exact (ofText_of_name hliteral hname hfolded).trans
      (congrArg _ hquestion.symm)

theorem Built.eq_of_queryName (hbuilt : Built question) (hother : Built other)
    (htype : question.type = other.type)
    (hname : question.queryName = other.queryName) :
    question = other := by
  have hquestion := hbuilt.ofText_queryName
  rw [htype, hname, hother.ofText_queryName] at hquestion
  exact (Except.ok.inj hquestion).symm

theorem ofText_toString (address : IpAddress) :
    ofText .ptr (toString address) = .ok (reverse address) := by
  have htext : (toString address).toList = address.text := String.toList_ofList
  refine ofText_of_literal ?_
  rw [htext, literal?, if_pos rfl,
    Text.trim_of_not_blank (Address.not_blank_text address)]
  exact Address.parse?_text address

end QueryName

/-- Each question is read back from its type and its query name, so that two
with both in common are the same; no name that is kept as such has the query
name of an address; and an address is asked for by its text and by its reverse
name alike. -/
theorem canonical :
    (∀ question, Built question → ofText question.type question.queryName =
      .ok question) ∧
      (∀ question other, Built question → Built other →
        question.type = other.type →
        question.queryName = other.queryName → question = other) ∧
      (∀ name address, Built ⟨.ptr, .name name⟩ →
        queryName ⟨.ptr, .name name⟩ ≠ queryName (reverse address)) ∧
      ∀ address : IpAddress, ofText .ptr (toString address) =
        .ok (reverse address) ∧
        ofText .ptr (String.ofList address.reverseName) =
          .ok (reverse address) := by
  refine ⟨fun question hbuilt => hbuilt.ofText_queryName,
    fun question other hbuilt hother => hbuilt.eq_of_queryName hother, ?_, ?_⟩
  · intro name address hbuilt hname
    cases hbuilt.eq_of_queryName (.reversed address) rfl hname
  · exact fun address =>
      ⟨ofText_toString address, (Built.reversed address).ofText_queryName⟩

/-- The address `::ffff:192.0.2.1`. -/
def mappedAddress : IpAddress :=
  .v6 ⟨[0, 0, 0, 0, 0, 0xFFFF, 0xC000, 0x0201], rfl⟩

theorem canonical_mappedAddress :
    Built ⟨.ptr, .name "printer.example"⟩ ∧
      ofText .ptr "printer.example." = .ok ⟨.ptr, .name "printer.example"⟩ ∧
      toString mappedAddress = "::ffff:192.0.2.1" ∧
      ofText .ptr "::ffff:192.0.2.1" = .ok (reverse mappedAddress) := by
  have hbuilt : Built ⟨.ptr, .name "printer.example"⟩ := by
    have hquestion : ofText .ptr "Printer.EXAMPLE" =
        .ok ⟨.ptr, .name "printer.example"⟩ := by
      decide +kernel
    exact .asked hquestion
  have htext : toString mappedAddress = "::ffff:192.0.2.1" := by decide +kernel
  exact ⟨hbuilt, canonical.1 _ hbuilt, htext,
    htext ▸ (canonical.2.2.2 mappedAddress).1⟩

end DnsForwarder.Question
