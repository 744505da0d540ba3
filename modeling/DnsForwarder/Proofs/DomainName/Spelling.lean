import DnsForwarder.DomainName.Presentation

/-! Texts of names. What is written for labels reads as these labels or is
refused, also in the form that answers carry, where the letters are small and
the last dot is gone. -/

namespace DnsForwarder.DomainName

variable {label last : Label} {labels front : Labels} {rest : List Char}
  {spelled : Spelled}

def byteChar (byte : UInt8) : Char :=
  Char.ofNat byte.toNat

section Bytes

theorem forall_byte {property : UInt8 → Prop}
    (hproperty : ∀ number < 256, property (.ofNat number)) (byte : UInt8) :
    property byte := by
  simpa using hproperty byte.toNat byte.toNat_lt

theorem toNat_byteChar : ∀ byte, (byteChar byte).toNat = byte.toNat :=
  forall_byte (by decide +kernel)

theorem ofNat_byteChar (byte : UInt8) :
    UInt8.ofNat (byteChar byte).toNat = byte := by
  rw [toNat_byteChar, UInt8.ofNat_toNat]

theorem plain_cases : ∀ byte leading, isPlain leading (byteChar byte) →
    byteChar byte ≠ '\\' ∧ byteChar byte ≠ '.' ∧
    Text.isBlank (byteChar byte) = false ∧
      Text.isControl (byteChar byte) = false :=
  forall_byte (by decide +kernel)

theorem beginsNumber_of_not_plain :
    ∀ byte leading, isPlain leading (byteChar byte) = false →
    beginsNumber (byteChar byte) = false :=
  forall_byte (by decide +kernel)

theorem octalDigit_cases (value : Nat) :
    beginsNumber (octalDigit value) = true ∧ octal? (octalDigit value) =
      some (value % 8) := by
  have hdigits :
      ∀ digit < 8, beginsNumber (Char.ofNat ('0'.toNat + digit)) = true ∧
      octal? (Char.ofNat ('0'.toNat + digit)) = some digit := by decide
  exact hdigits (value % 8) (Nat.mod_lt value (by decide))

theorem byteText_lower : ∀ byte leading,
    byteText leading (Labels.lowerByte byte) =
      Text.fold (byteText leading byte) :=
  forall_byte (by decide +kernel)

theorem lowerByte_lowerByte : ∀ byte,
    Labels.lowerByte (Labels.lowerByte byte) = Labels.lowerByte byte :=
  forall_byte (by decide +kernel)

end Bytes

section Reading

theorem symbols?_char {c : Char} (hslash : c ≠ '\\') (hdot : c ≠ '.')
    (hblank : Text.isBlank c = false) (hcontrol : Text.isControl c = false) :
    symbols? (c :: rest) = (symbols? rest).map (.char c :: ·) := by
  rw [symbols?.eq_def]
  split <;> simp_all

theorem symbols?_dot :
    symbols? ('.' :: rest) = (symbols? rest).map (.dot :: ·) := by
  rw [symbols?] <;> simp

theorem symbols?_quoted {c : Char} (hnumber : beginsNumber c = false) :
    symbols? ('\\' :: c :: rest) = (symbols? rest).map (.char c :: ·) := by
  rw [symbols?.eq_def]
  simp [hnumber]

theorem symbols?_octal (code : Nat) (rest : List Char) :
    symbols? ('\\' :: octalDigit (code / 64) :: octalDigit (code / 8) ::
      octalDigit code :: rest) =
      (symbols? rest).map
        (.char (Char.ofNat
          (code / 64 % 8 * 64 + code / 8 % 8 * 8 + code % 8)) :: ·) := by
  rw [symbols?.eq_def]
  simp [octalDigit_cases]

theorem symbols?_byteText (leading : Bool) (byte : UInt8) (rest : List Char) :
    symbols? (byteText leading byte ++ rest) =
      (symbols? rest).map (.char (byteChar byte) :: ·) := by
  rw [byteText]
  change symbols?
    ((if isPlain leading (byteChar byte) then [byteChar byte] else _) ++ rest) =
    _
  by_cases hplain : isPlain leading (byteChar byte)
  · obtain ⟨hslash, hdot, hblank, hcontrol⟩ := plain_cases byte leading hplain
    rw [if_pos hplain]
    exact symbols?_char hslash hdot hblank hcontrol
  · rw [if_neg hplain]
    by_cases hprints : 0x20 < byte ∧ byte < 0x7F
    · rw [if_pos hprints]
      exact symbols?_quoted
        (beginsNumber_of_not_plain byte leading (by simpa using hplain))
    · have hcode : byte.toNat / 64 % 8 * 64 + byte.toNat / 8 % 8 * 8 +
          byte.toNat % 8 = byte.toNat := by
        have hbyte := byte.toNat_lt
        omega
      rw [if_neg hprints]
      have hoctal := symbols?_octal byte.toNat rest
      rw [hcode] at hoctal
      exact hoctal

def charSymbols (label : Label) : List Symbol :=
  label.map fun byte => .char (byteChar byte)

theorem symbols?_labelText (label : Label) (rest : List Char) :
    symbols? (labelText label ++ rest) =
      (symbols? rest).map (charSymbols label ++ ·) := by
  have hfollowing (bytes : List UInt8) (rest : List Char) :
      symbols? (bytes.flatMap (byteText false) ++ rest) =
        (symbols? rest).map (charSymbols bytes ++ ·) := by
    induction bytes with
    | nil => simp [charSymbols]
    | cons byte bytes ih =>
        rw [List.flatMap_cons, List.append_assoc, symbols?_byteText, ih,
          Option.map_map]
        rfl
  cases label with
  | nil => simp [labelText, charSymbols]
  | cons byte bytes =>
      rw [labelText, List.append_assoc, symbols?_byteText, hfollowing,
        Option.map_map]
      rfl

def dotted (labels : Labels) : List Char :=
  labels.flatMap fun label => labelText label ++ ['.']

theorem symbols?_dotted (labels : Labels) (rest : List Char) :
    symbols? (dotted labels ++ rest) =
      (symbols? rest).map
        ((labels.flatMap fun label => charSymbols label ++ [.dot]) ++ ·) := by
  induction labels with
  | nil => simp [dotted]
  | cons label labels ih =>
      rw [dotted, List.flatMap_cons, List.append_assoc, List.append_assoc,
        symbols?_labelText, List.singleton_append, symbols?_dot]
      change Option.map _ (Option.map _ (symbols? (dotted labels ++ rest))) = _
      rw [ih, Option.map_map, Option.map_map]
      simp [Function.comp_def]

theorem pieces_charSymbols (label : Label) :
    pieces (charSymbols label) = [label.map byteChar] := by
  induction label with
  | nil => rfl
  | cons byte bytes ih =>
      simp only [charSymbols, List.map_cons, pieces] at ih ⊢
      rw [ih]

theorem pieces_charSymbols_dot (label : Label) (rest : List Symbol) :
    pieces (charSymbols label ++ .dot :: rest) = label.map byteChar ::
      pieces rest := by
  induction label with
  | nil => rfl
  | cons byte bytes ih =>
      simp only [charSymbols, List.map_cons, List.cons_append, pieces] at ih ⊢
      rw [ih]

theorem pieces_dotted (labels : Labels) (rest : List Symbol) :
    pieces ((labels.flatMap fun label => charSymbols label ++ [.dot]) ++ rest) =
      labels.map (List.map byteChar) ++ pieces rest := by
  induction labels with
  | nil => rfl
  | cons label labels ih =>
      simp [pieces_charSymbols_dot, ih]

end Reading

section Labels

theorem label?_eq_some {chars : List Char}
    (hlabel : label? chars = some label) :
    label = chars.map (fun c => UInt8.ofNat c.toNat) ∧ 1 ≤ label.length ∧
      label.length ≤ 63 := by
  cases chars with
  | nil => cases hlabel
  | cons first others =>
      simp only [label?] at hlabel
      split at hlabel
      next hfits =>
        cases hlabel
        simp only [Bool.and_eq_true, decide_eq_true_eq] at hfits
        simpa using hfits.2
      next => cases hlabel

theorem mapM_label?_eq_some {pieces : List (List Char)}
    (hread : pieces.mapM label? = some labels) :
    labels = pieces.map (List.map fun c => UInt8.ofNat c.toNat) ∧
      ∀ label ∈ labels, 1 ≤ label.length ∧ label.length ≤ 63 := by
  induction pieces generalizing labels with
  | nil =>
      cases hread
      simp
  | cons piece pieces ih =>
      simp only [List.mapM_cons, Option.bind_eq_bind, Option.bind_eq_some_iff]
        at hread
      obtain ⟨first, hfirst, others, hothers, hread⟩ := hread
      cases hread
      obtain ⟨hlabel, hlength⟩ := label?_eq_some hfirst
      obtain ⟨hlabels, hlengths⟩ := ih hothers
      refine ⟨by rw [List.map_cons, ← hlabel, ← hlabels], ?_⟩
      rw [List.forall_mem_cons]
      exact ⟨hlength, hlengths⟩

theorem spelled?_isValid {text : List Char}
    (hread : spelled? text = some spelled) :
    spelled.labels.isValid := by
  simp only [spelled?, Option.bind_eq_bind] at hread
  split at hread
  next =>
    cases hread
    decide
  next =>
    simp only [Option.bind_eq_some_iff] at hread
    obtain ⟨symbols, -, labels, hlabels, hread⟩ := hread
    split at hread
    next hspan =>
      cases hread
      have hlengths := (mapM_label?_eq_some hlabels).2
      simp only [Labels.isValid, Bool.and_eq_true, List.all_eq_true,
        decide_eq_true_eq]
      exact ⟨hlengths, hspan⟩
    next => cases hread

theorem toLabels_isValid {name : String} (hread : toLabels name = .ok labels) :
    labels.isValid := by
  simp only [toLabels, toSpelled] at hread
  split at hread
  next =>
    cases hread
    decide
  next =>
    split at hread
    next spelled hspelled =>
      cases hread
      exact spelled?_isValid hspelled
    next => cases hread

end Labels

section Names

def named (front : Labels) (last : Label) (dot : Bool) : List Char :=
  dotted front ++ (labelText last ++ if dot then ['.'] else [])

theorem text_concat (front : Labels) (last : Label) :
    text (front ++ [last]) = named front last true := by
  simp [text, named, dotted]

theorem symbols?_named (front : Labels) (last : Label) (dot : Bool) :
    symbols? (named front last dot) =
      some ((front.flatMap fun label => charSymbols label ++ [.dot]) ++
        (charSymbols last ++ if dot then [.dot] else [])) := by
  rw [named, symbols?_dotted, symbols?_labelText]
  cases dot <;> simp [symbols?_dot, symbols?]

theorem char_mem_of_named (front : Labels) (hlast : last ≠ []) (dot : Bool)
    {symbols : List Symbol}
    (hread : symbols? (named front last dot) = some symbols) :
    ∃ c, .char c ∈ symbols := by
  obtain ⟨byte, bytes, rfl⟩ := List.exists_cons_of_ne_nil hlast
  rw [symbols?_named] at hread
  cases hread
  exact ⟨byteChar byte, by simp [charSymbols]⟩

theorem named_ne_dot (hlast : last ≠ []) (dot : Bool) :
    named front last dot ≠ ['.'] := by
  intro htext
  obtain ⟨c, hmem⟩ : ∃ c, .char c ∈ [Symbol.dot] := by
    apply char_mem_of_named front hlast dot
    simp [htext, symbols?_dot, symbols?]
  simp at hmem

theorem named_ne_nil (front : Labels) (hlast : last ≠ []) (dot : Bool) :
    named front last dot ≠ [] := by
  intro htext
  obtain ⟨c, hmem⟩ : ∃ c, .char c ∈ ([] : List Symbol) := by
    apply char_mem_of_named front hlast dot
    simp [htext, symbols?]
  simp at hmem

/-- The text of labels reads as nothing else, with the dot at its end and
without it. -/
theorem labels_of_spelled? (hlast : last ≠ []) (dot : Bool)
    (hread : spelled? (named front last dot) = some spelled) :
    spelled.labels = front ++ [last] := by
  have hpieces : pieces (charSymbols last ++ if dot then [.dot] else []) =
      last.map byteChar :: if dot then [[]] else [] := by
    cases dot with
    | false => simpa using pieces_charSymbols last
    | true => exact pieces_charSymbols_dot last []
  have hqualified : (((front.map (List.map byteChar)) ++ last.map byteChar ::
      if dot then [[]] else []).getLast? == some []) = dot := by
    cases dot <;> simp [hlast]
  have hkept :
      (if dot then ((front.map (List.map byteChar)) ++ last.map byteChar ::
      if dot then [[]] else []).dropLast else (front.map (List.map byteChar)) ++
        last.map byteChar :: if dot then [[]] else []) =
      (front ++ [last]).map (List.map byteChar) := by
    cases dot <;> simp
  simp only [spelled?, if_neg (named_ne_dot hlast dot), symbols?_named,
    Option.bind_eq_bind,
    Option.bind_some, pieces_dotted, hpieces, hqualified, hkept] at hread
  obtain ⟨labels, hlabels, hread⟩ := Option.bind_eq_some_iff.mp hread
  split at hread
  next =>
    cases hread
    simpa [Function.comp_def, ofNat_byteChar]
      using (mapM_label?_eq_some hlabels).1
  next => cases hread

theorem labelText_lower (label : Label) :
    labelText (label.map Labels.lowerByte) = Text.fold (labelText label) := by
  have hfollowing (bytes : List UInt8) :
      (bytes.map Labels.lowerByte).flatMap (byteText false) =
        Text.fold (bytes.flatMap (byteText false)) := by
    induction bytes with
    | nil => rfl
    | cons byte bytes ih =>
        simp only [List.map_cons, List.flatMap_cons, Text.fold_append,
          byteText_lower, ih]
  cases label with
  | nil => rfl
  | cons byte bytes =>
      simp only [List.map_cons, labelText, Text.fold_append,
        byteText_lower, hfollowing]

theorem text_lower (labels : Labels) :
    text labels.lower = Text.fold (text labels) := by
  have hdotted : dotted labels.lower = Text.fold (dotted labels) := by
    induction labels with
    | nil => rfl
    | cons label labels ih =>
        simp only [dotted, Labels.lower, List.map_cons, List.flatMap_cons,
          Text.fold_append, labelText_lower] at ih ⊢
        rw [ih]
        rfl
  cases labels with
  | nil => rfl
  | cons label labels => exact hdotted

theorem lower_lower (labels : Labels) : labels.lower.lower = labels.lower := by
  simp [Labels.lower, Function.comp_def, lowerByte_lowerByte]

theorem storedText_lower (labels : Labels) :
    storedText labels.lower = storedText labels := by
  have hfold : Text.fold (text labels.lower) = Text.fold (text labels) := by
    rw [← text_lower, lower_lower, text_lower]
  rw [storedText, storedText, stored, stored, hfold]

theorem storedText_concat (hlast : last ≠ []) :
    storedText (front ++ [last]) =
      named (Labels.lower front) (last.map Labels.lowerByte) false := by
  have hdrop (chars : List Char) : Text.dropEnding? ['.'] (chars ++ ['.']) =
      some chars := by
    change (List.isPrefixOf? ['.'] (chars ++ ['.']).reverse).map List.reverse =
      some chars
    rw [List.reverse_concat]
    exact congrArg some (List.reverse_reverse chars)
  have htext : Text.fold (text (front ++ [last])) =
      named (Labels.lower front) (last.map Labels.lowerByte) false ++
      ['.'] := by
    rw [← text_lower]
    simpa [Labels.lower, named] using text_concat (Labels.lower front)
      (last.map Labels.lowerByte)
  have hlowered : last.map Labels.lowerByte ≠ [] := by simpa using hlast
  obtain ⟨c, rest, hbare⟩ := List.exists_cons_of_ne_nil
    (named_ne_nil (Labels.lower front) hlowered false)
  rw [storedText, stored, htext, hdrop, hbare]

theorem toLabels_named (hlast : last ≠ []) (dot : Bool) {name : String}
    (hname : name.toList = named front last dot) {read : Labels}
    (hread : toLabels name = .ok read) : read = front ++ [last] := by
  simp only [toLabels, toSpelled, hname, if_neg (named_ne_nil front hlast dot)]
    at hread
  split at hread
  next spelled hspelled =>
    cases hread
    split at hspelled
    next => exact labels_of_spelled? hlast dot hspelled
    next hopen =>
      cases dot with
      | true => simp [named, List.getLast?_append] at hopen
      | false =>
          exact labels_of_spelled? hlast true (by simpa [named] using hspelled)
  next => cases hread

theorem lower_concat (front : Labels) (last : Label) :
    Labels.lower (front ++ [last]) = Labels.lower front ++
      [last.map Labels.lowerByte] := by
  simp [Labels.lower]

/-- A stored name stands for the labels in lowercase and for nothing else. -/
theorem labels_of_stored (hlabels : ∀ label ∈ labels, label ≠ [])
    {read : Labels}
    (hread : toLabels (String.ofList (storedText labels)) = .ok read) :
    read = labels.lower := by
  rcases List.eq_nil_or_concat labels with rfl | ⟨front, last, rfl⟩
  · cases hread
    rfl
  · rw [List.concat_eq_append] at hlabels hread ⊢
    have hlast : last ≠ [] := hlabels last (by simp)
    rw [lower_concat]
    refine toLabels_named (by simpa using hlast) false ?_ hread
    rw [String.toList_ofList, storedText_concat hlast]

theorem labels_of_fold_text (hlabels : ∀ label ∈ labels, label ≠ [])
    {name : String} {read : Labels}
    (hname : Text.fold (text labels) = name.toList)
    (hread : toLabels name = .ok read) : read = labels.lower := by
  rcases List.eq_nil_or_concat labels with rfl | ⟨front, last, rfl⟩
  · have hroot : name = "." := String.toList_inj.mp hname.symm
    subst hroot
    cases hread
    rfl
  · rw [List.concat_eq_append] at hlabels hname ⊢
    have hlast : last ≠ [] := hlabels last (by simp)
    rw [← text_lower, lower_concat, text_concat] at hname
    rw [lower_concat]
    exact toLabels_named (by simpa using hlast) true hname.symm hread

end Names

end DnsForwarder.DomainName
