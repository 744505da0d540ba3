import DnsForwarder.Proofs.Address.Text
import DnsForwarder.Proofs.DomainName.ReverseReading
import DnsForwarder.Proofs.Question

/-! Spellings of questions. Neither case nor white space around a text matters
to the question that it asks, and a dot at its end matters only behind an
address. A name is asked for as an address where it is read as a reverse name,
and the query name is the name again unless a number in it has more in front
than it needs. -/

namespace DnsForwarder

namespace DomainName

variable {text other name : List Char}

/-- Two texts are the same but for case and white space around them. -/
def Alike (text other : List Char) : Prop :=
  Text.fold (Text.trim text) = Text.fold (Text.trim other)

/-- One of two texts has a dot more at its end, which is the only one there. -/
structure Dotted (text other : List Char) : Prop where
  ne_nil : Text.trim text ≠ []
  not_dot : (Text.trim text).getLast? ≠ some '.'
  alike : Text.fold (Text.trim other) = Text.fold (Text.trim text ++ ['.'])

theorem Alike.normalizeText_iff (halike : Alike text other) :
    normalizeText text = .ok name ↔ normalizeText other = .ok name := by
  rw [normalizeText_eq_ok_iff_isNormal,
    normalizeText_eq_ok_iff_isNormal, halike]

namespace Dotted

theorem fold_ne_append_dot (hdotted : Dotted text other) (front : List Char) :
    Text.fold (Text.trim text) ≠ front ++ ['.'] := by
  intro hfold
  obtain ⟨start, hstart, -⟩ := fold_eq_append_dot_iff.mp hfold
  exact hdotted.not_dot (hstart ▸ List.getLast?_concat)

theorem normalizeText_iff_eq (hdotted : Dotted text other) :
    normalizeText text = .ok name ↔ IsNormal name ∧
      Text.fold (Text.trim text) = name := by
  rw [normalizeText_eq_ok_iff_isNormal, or_iff_left]
  intro hqualified
  obtain ⟨front, hfront⟩ := exists_qualified_eq name
  exact hdotted.fold_ne_append_dot front (hqualified.trans hfront)

theorem normalizeText_iff (hdotted : Dotted text other) :
    normalizeText text = .ok name ↔ normalizeText other = .ok name := by
  rw [hdotted.normalizeText_iff_eq, normalizeText_eq_ok_iff_isNormal,
    hdotted.alike, Text.fold_append]
  refine and_congr_right fun hnormal => ?_
  have hsome : Text.fold (Text.trim text) ≠ [] := fun hnil =>
    hdotted.ne_nil (List.map_eq_nil_iff.mp hnil)
  have hdot : Text.fold ['.'] = ['.'] := rfl
  rw [hdot]
  rcases hnormal with rfl | ⟨hbare, -⟩
  · have hroot : Text.fold (Text.trim text) ++ ['.'] ≠ ['.'] := fun hsame =>
      hsome (List.self_eq_append_left.mp hsame.symm)
    have hself : Text.fold (Text.trim text) ≠ ['.'] :=
      hdotted.fold_ne_append_dot []
    simp [qualified, hroot, hself]
  · rw [hbare.qualified, List.append_left_inj,
      or_iff_right (hbare.not_ends_with_dot _)]

end Dotted

end DomainName

namespace Question

open DomainName

variable {type : RecordType} {question : Question} {text other : String}
  {name : List Char}

def ofNormal (type : RecordType) (name : List Char) : Question :=
  match folded? type name with
  | some address => reverse address
  | none => ⟨type, .name (String.ofList name)⟩

theorem ofText_iff_of_literal (hliteral : literal? type text.toList = none) :
    ofText type text = .ok question ↔
      ∃ name, normalizeText text.toList = .ok name ∧
        question = ofNormal type name := by
  simp only [ofText, hliteral]
  cases hname : normalizeText text.toList with
  | error fault => simp
  | ok name =>
      simp only [ofNormal, Except.ok.injEq, exists_eq_left']
      cases folded? type name <;> simp [eq_comm]

def AskSame (type : RecordType) (text other : String) : Prop :=
  ∀ question, ofText type text = .ok question ↔ ofText type other = .ok question

theorem literal?_eq_of_alike (halike : Alike text.toList other.toList) :
    literal? type text.toList = literal? type other.toList := by
  unfold literal?
  rw [← Address.parse?_fold (Text.trim text.toList), halike,
    Address.parse?_fold]

theorem literal?_of_dotted (hdotted : Dotted text.toList other.toList) :
    literal? type other.toList = none := by
  unfold literal?
  rw [← Address.parse?_fold (Text.trim other.toList), hdotted.alike,
    Address.parse?_fold, Address.parse?_append_dot]
  exact ite_self none

theorem parse?_of_ofReverseName? {address : IpAddress}
    (hlower : Text.fold name = name)
    (hread : IpAddress.ofReverseName? name = some address) :
    IpAddress.parse? name = none := by
  obtain ⟨labels, -, rfl⟩ :=
    (IpAddress.ofReverseName?_eq_some_iff hlower).mp hread
  have hmem : 'r' ∈ address.reverseZone := by
    rcases IpAddress.reverseZone_cases address with hzone | hzone <;>
      rw [hzone] <;> decide
  rw [Option.eq_none_iff_forall_ne_some]
  intro found hfound
  exact absurd
    (Address.isCharacter_of_parse? hfound 'r' (List.mem_append_right _ hmem))
    (by decide)

theorem ofText_of_dotted_literal {address : IpAddress}
    (hdotted : Dotted text.toList other.toList)
    (hliteral : literal? type text.toList = some address) :
    ofText type other ≠ .ok (reverse address) := by
  intro hother
  obtain ⟨name, hname, hreverse⟩ :=
    (ofText_iff_of_literal (literal?_of_dotted hdotted)).mp hother
  obtain ⟨hnormal, rfl⟩ :=
    hdotted.normalizeText_iff_eq.mp (hdotted.normalizeText_iff.mpr hname)
  unfold literal? at hliteral
  split_ifs at hliteral with hptr
  rw [← Address.parse?_fold] at hliteral
  unfold ofNormal at hreverse
  split at hreverse
  next found hfolded =>
    rw [folded?, if_pos hptr] at hfolded
    rw [parse?_of_ofReverseName? (Text.fold_fold _) hfolded] at hliteral
    cases hliteral
  next => cases hreverse

/-- Texts that are alike but for case and white space ask the same question, or
none. A dot behind one of them makes a difference just when the other one is
read as an address. -/
theorem spelling_matters_behind_addresses (type : RecordType)
    (text other : String) :
    (Alike text.toList other.toList → AskSame type text other) ∧
      (Dotted text.toList other.toList →
        (AskSame type text other ↔ literal? type text.toList = none)) := by
  constructor
  · intro halike question
    have hliteral : literal? type text.toList = literal? type other.toList :=
      literal?_eq_of_alike halike
    cases hread : literal? type text.toList with
    | some address =>
        rw [ofText_of_literal hread, ofText_of_literal (hliteral ▸ hread)]
    | none =>
        rw [ofText_iff_of_literal hread,
          ofText_iff_of_literal (hliteral ▸ hread)]
        simp only [halike.normalizeText_iff]
  · intro hdotted
    constructor
    · intro hsame
      rw [Option.eq_none_iff_forall_ne_some]
      intro address hliteral
      exact ofText_of_dotted_literal hdotted hliteral
        ((hsame (reverse address)).mp (ofText_of_literal hliteral))
    · intro hliteral question
      rw [ofText_iff_of_literal hliteral,
        ofText_iff_of_literal (literal?_of_dotted hdotted)]
      simp only [hdotted.normalizeText_iff]

theorem spelling_of_printer_is_free :
    Alike " Printer.EXAMPLE".toList "printer.example".toList ∧
      AskSame .ptr " Printer.EXAMPLE" "printer.example" ∧
      Dotted " Printer.EXAMPLE".toList "printer.example. ".toList ∧
      AskSame .ptr " Printer.EXAMPLE" "printer.example. " := by
  have halike : Alike " Printer.EXAMPLE".toList "printer.example".toList := by
    unfold Alike
    decide +kernel
  have hdotted : Dotted " Printer.EXAMPLE".toList "printer.example. ".toList :=
    ⟨by decide +kernel, by decide +kernel, by decide +kernel⟩
  have hliteral : literal? .ptr " Printer.EXAMPLE".toList = none :=
    by decide +kernel
  exact ⟨halike, (spelling_matters_behind_addresses .ptr _ _).1 halike, hdotted,
    ((spelling_matters_behind_addresses .ptr _ _).2 hdotted).mpr hliteral⟩

/-- With a dot behind it, the text of an address asks for a name. -/
theorem dotted_address_asks_for_name :
    Dotted "192.0.2.1".toList "192.0.2.1.".toList ∧
      ofText .ptr "192.0.2.1" = .ok (reverse (.v4 ⟨192, 0, 2, 1⟩)) ∧
      ofText .ptr "192.0.2.1." = .ok ⟨.ptr, .name "192.0.2.1"⟩ ∧
      ¬AskSame .ptr "192.0.2.1" "192.0.2.1." := by
  have hdotted : Dotted "192.0.2.1".toList "192.0.2.1.".toList :=
    ⟨by decide +kernel, by decide +kernel, by decide +kernel⟩
  have haddress :
      ofText .ptr "192.0.2.1" = .ok (reverse (.v4 ⟨192, 0, 2, 1⟩)) := by
    decide +kernel
  have hname : ofText .ptr "192.0.2.1." = .ok ⟨.ptr, .name "192.0.2.1"⟩ :=
    by decide +kernel
  refine ⟨hdotted, haddress, hname, fun hsame => ?_⟩
  have hother := (hsame _).mp haddress
  rw [hname] at hother
  cases hother

section Names

variable {address : IpAddress}

theorem queryName_reverse (address : IpAddress) :
    (reverse address).queryName.toList = address.reverseName :=
  String.toList_ofList

theorem reverseName_eq_qualified_iff (hnormal : IsNormal name) :
    address.reverseName = qualified name ↔
      IpAddress.ofReverseName? name = some address ∧
        ∀ label ∈ Text.split '.' name, ¬Text.Padded label := by
  rcases hnormal with rfl | ⟨hbare, hlower⟩
  · have hroot : IpAddress.ofReverseName? ['.'] = none := by decide
    rw [hroot]
    refine ⟨fun hname => ?_, nofun⟩
    have hfront : ['.'] = address.bareReverseName ++ ['.'] := hname.symm
    exact absurd (List.self_eq_append_left.mp hfront)
      (IpAddress.bare_bareReverseName address).ne_nil
  · rw [hbare.qualified]
    exact IpAddress.reverseName_eq_iff hlower

/-- A normal name is asked for under itself unless it is the text of an address,
or a reverse name in which some number has more in front than it needs. -/
theorem exists_question_of_isNormal (hnormal : IsNormal name) :
    ∃ question, ofText .ptr (String.ofList name) = .ok question ∧
      (question.queryName.toList = qualified name ↔
        IpAddress.parse? name = none ∧ ((IpAddress.ofReverseName? name).isSome →
          ∀ label ∈ Text.split '.' name, ¬Text.Padded label)) := by
  have hname : normalizeText (String.ofList name).toList = .ok name := by
    rw [String.toList_ofList, normalizeText_self hnormal]
  have hliteral : literal? .ptr (String.ofList name).toList =
      IpAddress.parse? name := by
    rw [literal?, if_pos rfl, String.toList_ofList, trim_of_isNormal hnormal]
  cases hparse : IpAddress.parse? name with
  | some address =>
      refine ⟨reverse address, ofText_of_literal (hliteral.trans hparse), ?_⟩
      rw [queryName_reverse, reverseName_eq_qualified_iff hnormal]
      refine iff_of_false (fun hread => ?_) fun hnone => ?_
      · have hnone :=
          parse?_of_ofReverseName? (fold_of_isNormal hnormal) hread.1
        rw [hparse] at hnone
        cases hnone
      · cases hnone.1
  | none =>
      cases hread : IpAddress.ofReverseName? name with
      | some address =>
          refine ⟨reverse address,
            ofText_of_folded (hliteral.trans hparse) hname hread, ?_⟩
          rw [queryName_reverse, reverseName_eq_qualified_iff hnormal, hread]
          simp
      | none =>
          refine ⟨_, ofText_of_name (hliteral.trans hparse) hname hread, ?_⟩
          simp [toList_queryName, bareName, String.toList_ofList]

/-- A normal name is read as the reverse name of an address when its labels are
those of the address, for an IPv4 address with a plus sign or zeros in front of
the numbers or without. It is the reverse name when there are none of these, and
then and only then the question for the address asks for the name. -/
theorem reverse_names_are_read_loosely (text name : List Char)
    (hname : normalizeText text = .ok name) :
    (∀ address : IpAddress,
      (IpAddress.ofReverseName? name = some address ↔
        ∃ labels, List.Forall₂ address.Accepts address.reverseLabels labels ∧
          name = Text.join ['.'] labels ++ address.reverseZone) ∧
      (address.reverseName = name ++ ['.'] ↔
        IpAddress.ofReverseName? name = some address ∧
          ∀ label ∈ Text.split '.' name, ¬Text.Padded label)) ∧
    ∃ question, ofText .ptr (String.ofList name) = .ok question ∧
      (question.queryName.toList = qualified name ↔
        IpAddress.parse? name = none ∧ ((IpAddress.ofReverseName? name).isSome →
          ∀ label ∈ Text.split '.' name, ¬Text.Padded label)) := by
  have hnormal := isNormal_of_normalizeText hname
  have hlower := fold_of_isNormal hnormal
  exact ⟨fun address => ⟨IpAddress.ofReverseName?_eq_some_iff hlower,
    IpAddress.reverseName_eq_iff hlower⟩, exists_question_of_isNormal hnormal⟩

theorem exact_reverse_name_is_kept :
    let name := "7.2.0.192.in-addr.arpa".toList
    normalizeText "7.2.0.192.IN-ADDR.ARPA.".toList = .ok name ∧
      IpAddress.reverseName (.v4 ⟨192, 0, 2, 7⟩) = name ++ ['.'] ∧
      ∃ question, ofText .ptr (String.ofList name) = .ok question ∧
        question.queryName.toList = qualified name := by
  intro name
  have hname : normalizeText "7.2.0.192.IN-ADDR.ARPA.".toList = .ok name :=
    by decide +kernel
  have hread : IpAddress.ofReverseName? name = some (.v4 ⟨192, 0, 2, 7⟩) :=
    by decide +kernel
  have hplain : ∀ label ∈ Text.split '.' name, ¬Text.Padded label :=
    by decide +kernel
  have hparse : IpAddress.parse? name = none := by decide +kernel
  obtain ⟨haddresses, question, hquestion, hquery⟩ :=
    reverse_names_are_read_loosely _ name hname
  exact ⟨hname, (haddresses _).2.mpr ⟨hread, hplain⟩, question, hquestion,
    hquery.mpr ⟨hparse, fun _ => hplain⟩⟩

/-- A name with a zero in front of a number is read as a reverse name that it is
not, and the question for it asks for the other name. -/
theorem padded_name_asks_for_another :
    let name := "01.2.0.192.in-addr.arpa".toList
    normalizeText name = .ok name ∧
      IpAddress.ofReverseName? name = some (.v4 ⟨192, 0, 2, 1⟩) ∧
      IpAddress.reverseName (.v4 ⟨192, 0, 2, 1⟩) ≠ name ++ ['.'] ∧
      (ofText .ptr (String.ofList name)).map queryName =
      .ok "1.2.0.192.in-addr.arpa." := by
  decide +kernel

end Names

end Question

end DnsForwarder
