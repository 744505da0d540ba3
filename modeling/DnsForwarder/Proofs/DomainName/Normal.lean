import DnsForwarder.DomainName.Normal
import DnsForwarder.Proofs.Text.Split

/-! The grammar of normal names. A text has a normal form just when it is,
without the white space around it, the root's dot or a row of labels with dots
between them and perhaps one behind; and the normal form of a normal name is the
name. -/

namespace DnsForwarder.DomainName

variable {text name bare whole label : List Char}

structure LabelFits (label : List Char) : Prop where
  ne_nil : label ≠ []
  short : Text.byteLength label ≤ NameFault.maxLabelLength
  printable : ∀ c ∈ label, Text.isBlank c = false ∧ Text.isControl c = false

structure Bare (text : List Char) : Prop where
  short : Text.byteLength text ≤ NameFault.maxNameLength
  labels : ∀ label ∈ Text.split '.' text, LabelFits label

theorem labelFault?_eq_none_iff :
    labelFault? whole label = none ↔ LabelFits label := by
  unfold labelFault?
  split
  next hnil => exact ⟨nofun, fun hfits => absurd hnil hfits.ne_nil⟩
  next hnil =>
    split
    next hlong =>
      exact ⟨nofun, fun hfits => absurd hlong (Nat.not_lt.mpr hfits.short)⟩
    next hshort =>
      have hprintable :
          (label.any fun c => Text.isBlank c || Text.isControl c) = false ↔
          ∀ c ∈ label, Text.isBlank c = false ∧ Text.isControl c = false := by
        simp
      split
      next hbad =>
        refine ⟨nofun, fun hfits => ?_⟩
        rw [hprintable.mpr hfits.printable] at hbad
        cases hbad
      next hgood =>
        rw [Bool.not_eq_true] at hgood
        exact ⟨fun _ => ⟨hnil, Nat.not_lt.mp hshort, hprintable.mp hgood⟩,
          fun _ => rfl⟩

theorem labelFits_fold_iff : LabelFits (Text.fold label) ↔ LabelFits label := by
  have hcharacters :
      (∀ c ∈ Text.fold label, Text.isBlank c = false ∧
        Text.isControl c = false) ↔
      ∀ c ∈ label, Text.isBlank c = false ∧ Text.isControl c = false := by
    simp [Text.fold, Text.isBlank_toLower, Text.isControl_toLower]
  constructor
  · exact fun hfits =>
      ⟨by simpa [Text.fold] using hfits.ne_nil, by simpa using hfits.short,
      hcharacters.mp hfits.printable⟩
  · exact fun hfits =>
      ⟨by simpa [Text.fold] using hfits.ne_nil, by simpa using hfits.short,
      hcharacters.mpr hfits.printable⟩

theorem bare_fold_iff : Bare (Text.fold bare) ↔ Bare bare := by
  have hlabels : (∀ label ∈ Text.split '.' (Text.fold bare), LabelFits label) ↔
      ∀ label ∈ Text.split '.' bare, LabelFits label := by
    simp only [Text.split_fold, List.forall_mem_map, labelFits_fold_iff]
  constructor
  · exact fun hbare => ⟨by simpa using hbare.short, hlabels.mp hbare.labels⟩
  · exact fun hbare => ⟨by simpa using hbare.short, hlabels.mpr hbare.labels⟩

namespace Bare

theorem ne_nil (hbare : Bare bare) : bare ≠ [] := by
  rintro rfl
  exact (hbare.labels [] (List.mem_singleton_self _)).ne_nil rfl

theorem not_ends_with_dot (hbare : Bare bare) (front : List Char) :
    front ++ ['.'] ≠ bare := by
  rintro rfl
  have hlast : [] ∈ Text.split '.' (front ++ ['.']) := by
    rw [Text.split_append_separator]
    simp [Text.split]
  exact (hbare.labels [] hlast).ne_nil rfl

theorem dropEnding? (hbare : Bare bare) :
    Text.dropEnding? ['.'] bare = none := by
  cases hdrop : Text.dropEnding? ['.'] bare with
  | none => rfl
  | some front =>
      exact absurd (Text.dropEnding?_eq_some_iff.mp hdrop)
        (hbare.not_ends_with_dot front)

theorem not_blank (hbare : Bare bare) : ∀ c ∈ bare, Text.isBlank c = false := by
  intro c hc
  by_cases hdot : c = '.'
  · rw [hdot]
    rfl
  · obtain ⟨label, hlabel, hmem⟩ := Text.mem_piece_of_mem hc hdot
    exact ((hbare.labels label hlabel).printable c hmem).1

theorem getD_dropEnding? (hbare : Bare bare) {trimmed : List Char}
    (htrimmed : trimmed = bare ∨ trimmed = bare ++ ['.']) :
    (Text.dropEnding? ['.'] trimmed).getD trimmed = bare := by
  rcases htrimmed with rfl | rfl
  · rw [hbare.dropEnding?]
    rfl
  · rw [Text.dropEnding?_append]
    rfl

end Bare

/-- At most one dot is taken off the end of a text to get at the name. -/
theorem exists_bare_iff {trimmed given : List Char}
    (hgiven : (Text.dropEnding? ['.'] trimmed).getD trimmed = given) :
    (∃ bare, Bare bare ∧ (trimmed = bare ∨ trimmed = bare ++ ['.']) ∧
      name = Text.fold bare) ↔
      Bare given ∧ name = Text.fold given := by
  have hcases : trimmed = given ∨ trimmed = given ++ ['.'] := by
    cases hdrop : Text.dropEnding? ['.'] trimmed with
    | none => exact .inl (by simpa [hdrop] using hgiven)
    | some front =>
        rw [← hgiven, hdrop]
        exact .inr (Text.dropEnding?_eq_some_iff.mp hdrop).symm
  constructor
  · rintro ⟨bare, hbare, htrimmed, hname⟩
    rw [hbare.getD_dropEnding? htrimmed] at hgiven
    exact hgiven ▸ ⟨hbare, hname⟩
  · exact fun ⟨hbare, hname⟩ => ⟨given, hbare, hcases, hname⟩

theorem normalizeText_eq_ok_iff :
    normalizeText text = .ok name ↔
      (Text.trim text = ['.'] ∧ name = ['.']) ∨
        ∃ bare, Bare bare ∧
        (Text.trim text = bare ∨ Text.trim text = bare ++ ['.']) ∧
          name = Text.fold bare := by
  by_cases hroot : Text.trim text = ['.']
  · have hnone : ¬∃ bare, Bare bare ∧ (['.'] = bare ∨ ['.'] = bare ++ ['.']) ∧
        name = Text.fold bare := by
      rintro ⟨bare, hbare, hdot | hdot, -⟩
      · exact hbare.not_ends_with_dot [] hdot
      · exact hbare.ne_nil (List.self_eq_append_left.mp hdot)
    simp only [normalizeText, hroot, if_true, Except.ok.injEq, true_and,
      hnone, or_false]
    exact eq_comm
  · simp only [normalizeText, hroot, if_false, false_and, false_or]
    generalize hgiven : (Text.dropEnding? ['.'] (Text.trim text)).getD
      (Text.trim text) = given
    rw [exists_bare_iff hgiven]
    split
    next hnil =>
      refine ⟨nofun, fun h => absurd hnil h.1.ne_nil⟩
    next =>
      split
      next hlong =>
        exact ⟨nofun, fun h => absurd hlong (Nat.not_lt.mpr h.1.short)⟩
      next hshort =>
        split
        next fault hfault =>
          refine ⟨nofun, fun h => ?_⟩
          obtain ⟨label, hlabel, hlabelFault⟩ :=
            List.exists_of_findSome?_eq_some hfault
          rw [labelFault?_eq_none_iff.mpr (h.1.labels label hlabel)]
            at hlabelFault
          cases hlabelFault
        next hnone =>
          rw [List.findSome?_eq_none_iff] at hnone
          have hlabels : ∀ label ∈ Text.split '.' given, LabelFits label :=
            fun label hlabel =>
              labelFault?_eq_none_iff.mp (hnone label hlabel)
          rw [Except.ok.injEq, eq_comm]
          exact ⟨fun hname =>
            ⟨⟨Nat.not_lt.mp hshort, hlabels⟩, hname⟩, And.right⟩

def IsNormal (name : List Char) : Prop :=
  name = ['.'] ∨ Bare name ∧ Text.fold name = name

def qualified (name : List Char) : List Char :=
  if name = ['.'] then name else name ++ ['.']

theorem isNormal_of_normalizeText (hnormalize : normalizeText text = .ok name) :
    IsNormal name := by
  obtain ⟨-, rfl⟩ | ⟨bare, hbare, -, rfl⟩ :=
    normalizeText_eq_ok_iff.mp hnormalize
  · exact .inl rfl
  · exact .inr ⟨bare_fold_iff.mpr hbare, Text.fold_fold bare⟩

theorem exists_qualified_eq (name : List Char) :
    ∃ front, qualified name = front ++ ['.'] := by
  unfold qualified
  split
  next hroot => exact ⟨[], hroot⟩
  next => exact ⟨name, rfl⟩

theorem Bare.qualified (hbare : Bare bare) : qualified bare = bare ++ ['.'] :=
  if_neg fun hroot => hbare.not_ends_with_dot [] hroot.symm

theorem normalizeText_append_dot_iff
    (hblank : ∀ c ∈ bare, Text.isBlank c = false) :
    normalizeText (bare ++ ['.']) = .ok name ↔
      qualified name = Text.fold (bare ++ ['.']) ∧ IsNormal name := by
  have htrim : Text.trim (bare ++ ['.']) = bare ++ ['.'] := by
    apply Text.trim_of_not_blank
    rw [List.forall_mem_append]
    exact ⟨hblank, Text.not_blank_of_all rfl⟩
  have hdot : Text.fold ['.'] = ['.'] := rfl
  rw [normalizeText_eq_ok_iff, htrim, Text.fold_append, hdot]
  constructor
  · rintro (⟨hroot, rfl⟩ | ⟨given, hgiven, hsame | hsame, rfl⟩)
    · rw [List.self_eq_append_left.mp hroot.symm]
      exact ⟨rfl, .inl rfl⟩
    · exact absurd hsame (hgiven.not_ends_with_dot bare)
    · rw [List.append_cancel_right hsame]
      have hfolded := bare_fold_iff.mpr hgiven
      exact ⟨hfolded.qualified, .inr ⟨hfolded, Text.fold_fold given⟩⟩
  · rintro ⟨hname, rfl | ⟨hbare, -⟩⟩
    · have hnil : bare = [] :=
        by simpa [Text.fold] using List.self_eq_append_left.mp hname
      exact .inl ⟨by rw [hnil]; rfl, rfl⟩
    · rw [hbare.qualified] at hname
      have hfold := List.append_cancel_right hname
      exact .inr ⟨bare, bare_fold_iff.mp (hfold ▸ hbare), .inr rfl, hfold⟩

namespace IsNormal

theorem trim_qualified (hnormal : IsNormal name) :
    Text.trim (qualified name) = qualified name := by
  rcases hnormal with rfl | ⟨hbare, -⟩
  · rfl
  · rw [hbare.qualified]
    apply Text.trim_of_not_blank
    rw [List.forall_mem_append]
    exact ⟨hbare.not_blank, Text.not_blank_of_all rfl⟩

theorem normalizeText_qualified (hnormal : IsNormal name) :
    normalizeText (qualified name) = .ok name := by
  rcases hnormal with rfl | ⟨hbare, hfold⟩
  · rfl
  · have hnamed : qualified name = Text.fold (name ++ ['.']) := by
      rw [hbare.qualified, Text.fold_append, hfold]
      rfl
    rw [hbare.qualified]
    exact (normalizeText_append_dot_iff hbare.not_blank).mpr
      ⟨hnamed, .inr ⟨hbare, hfold⟩⟩

end IsNormal

theorem fold_eq_append_dot_iff :
    Text.fold text = name ++ ['.'] ↔ ∃ front, text = front ++ ['.'] ∧
      Text.fold front = name := by
  constructor
  · intro hfold
    obtain ⟨front, last, rfl, hfront, hlast⟩ := List.map_eq_append_iff.mp hfold
    obtain ⟨c, rfl, hc⟩ := List.map_eq_singleton_iff.mp hlast
    exact ⟨front, by rw [(Text.toLower_eq_dot_iff c).mp hc], hfront⟩
  · rintro ⟨front, rfl, rfl⟩
    exact Text.fold_append front ['.']

/-- A text has a name as its normal form when it is the name, with a dot behind
it or without, but for case and white space around it. -/
theorem normalizeText_eq_ok_iff_isNormal :
    normalizeText text = .ok name ↔
      IsNormal name ∧
        (Text.fold (Text.trim text) = name ∨ Text.fold (Text.trim text) =
          qualified name) := by
  constructor
  · intro hnormalize
    refine ⟨isNormal_of_normalizeText hnormalize, ?_⟩
    obtain ⟨htrim, rfl⟩ | ⟨bare, hbare, htrim | htrim, rfl⟩ :=
      normalizeText_eq_ok_iff.mp hnormalize
    · rw [htrim]
      exact .inl rfl
    · exact .inl (congrArg Text.fold htrim)
    · rw [(bare_fold_iff.mpr hbare).qualified, htrim]
      exact .inr (Text.fold_append bare ['.'])
  · rintro ⟨rfl | ⟨hbare, hfold⟩, htext⟩
    · have hroot : Text.fold (Text.trim text) = [] ++ ['.'] := htext.elim id id
      obtain ⟨front, hfront, hnil⟩ := fold_eq_append_dot_iff.mp hroot
      rw [List.map_eq_nil_iff.mp hnil] at hfront
      exact normalizeText_eq_ok_iff.mpr (.inl ⟨hfront, rfl⟩)
    · refine normalizeText_eq_ok_iff.mpr (.inr ?_)
      rcases htext with hsame | hdotted
      · exact ⟨_, bare_fold_iff.mp (hsame ▸ hbare), .inl rfl, hsame.symm⟩
      · rw [hbare.qualified] at hdotted
        obtain ⟨front, hfront, rfl⟩ := fold_eq_append_dot_iff.mp hdotted
        exact ⟨front, bare_fold_iff.mp hbare, .inr hfront, rfl⟩

theorem fold_of_isNormal (hnormal : IsNormal name) : Text.fold name = name := by
  rcases hnormal with rfl | ⟨-, hlower⟩
  · rfl
  · exact hlower

theorem trim_of_isNormal (hnormal : IsNormal name) : Text.trim name = name := by
  rcases hnormal with rfl | ⟨hbare, -⟩
  · rfl
  · exact Text.trim_of_not_blank hbare.not_blank

theorem normalizeText_self (hnormal : IsNormal name) :
    normalizeText name = .ok name := by
  rw [normalizeText_eq_ok_iff_isNormal, trim_of_isNormal hnormal,
    fold_of_isNormal hnormal]
  exact ⟨hnormal, .inl rfl⟩

end DnsForwarder.DomainName
