import DnsForwarder.Proofs.DomainName.Normal
import DnsForwarder.Proofs.DomainName.Spelling

/-! Normal names between texts and labels. The text of labels keeps all of them,
and its normal form is the text itself but for case. A name that was read as
labels is written again as it was just when a backslash stands in it nowhere but
before a dot. -/

namespace DnsForwarder.DomainName

variable {labels others : Labels} {label : Label}
  {name text chars rest : List Char} {spelled : Spelled}

section Written

theorem not_blank_byteText :
    ∀ byte leading, (byteText leading byte).all fun c => !Text.isBlank c :=
  forall_byte (by decide +kernel)

theorem not_blank_labelText (label : Label) :
    ∀ c ∈ labelText label, Text.isBlank c = false := by
  cases label with
  | nil => exact nofun
  | cons byte bytes =>
      rw [labelText, List.forall_mem_append]
      refine ⟨Text.not_blank_of_all (not_blank_byteText byte true),
        fun c hc => ?_⟩
      obtain ⟨other, -, hother⟩ := List.mem_flatMap.mp hc
      exact Text.not_blank_of_all (not_blank_byteText other false) c hother

theorem not_blank_named (front : Labels) (last : Label) :
    ∀ c ∈ named front last false, Text.isBlank c = false := by
  simp only [named, dotted, Bool.false_eq_true, if_false, List.append_nil,
    List.forall_mem_append]
  refine ⟨fun c hc => ?_, not_blank_labelText last⟩
  obtain ⟨label, -, hlabel⟩ := List.mem_flatMap.mp hc
  rcases List.mem_append.mp hlabel with hmem | hdot
  · exact not_blank_labelText label c hmem
  · rw [List.mem_singleton.mp hdot]
    rfl

theorem dotted_injective (hdotted : dotted labels = dotted others) :
    labels = others := by
  have hpieces (labels : Labels) : (symbols? (dotted labels)).map pieces =
      some (labels.map (List.map byteChar) ++ [[]]) := by
    have hread := symbols?_dotted labels []
    have hrest := pieces_dotted labels []
    rw [List.append_nil] at hread hrest
    rw [hread, symbols?, Option.map_some, Option.map_some, List.append_nil,
      hrest, pieces]
  have hsame := hpieces labels
  rw [hdotted, hpieces others, Option.some.injEq] at hsame
  have hbytes (labels : Labels) :
      (labels.map (List.map byteChar)).map (List.map fun c =>
        UInt8.ofNat c.toNat) = labels := by
    simp [Function.comp_def, ofNat_byteChar]
  rw [← hbytes labels, ← List.append_cancel_right hsame, hbytes]

theorem text_injective (hlabels : ∀ label ∈ labels, label ≠ [])
    (hothers : ∀ label ∈ others, label ≠ [])
    (htext : DomainName.text labels = DomainName.text others) :
    labels = others := by
  have hroot {labels : Labels} (hlabels : ∀ label ∈ labels, label ≠ [])
      (htext : DomainName.text labels = ['.']) : labels = [] := by
    rcases List.eq_nil_or_concat labels with rfl | ⟨front, last, rfl⟩
    · rfl
    · rw [List.concat_eq_append] at hlabels htext
      rw [text_concat] at htext
      exact absurd htext (named_ne_dot (hlabels last (by simp)) true)
  by_cases hnil : labels = []
  · subst hnil
    exact (hroot hothers htext.symm).symm
  · have hothersNil : others ≠ [] := by
      rintro rfl
      exact hnil (hroot hlabels htext)
    rw [DomainName.text, DomainName.text, if_neg hnil, if_neg hothersNil]
      at htext
    exact dotted_injective htext

theorem normalizeText_text_iff (labels : Labels) :
    normalizeText (DomainName.text labels) = .ok name ↔
      qualified name = Text.fold (DomainName.text labels) ∧ IsNormal name := by
  rcases List.eq_nil_or_concat labels with rfl | ⟨front, last, rfl⟩
  · have hempty : ∀ c ∈ ([] : List Char), Text.isBlank c = false := nofun
    exact normalizeText_append_dot_iff hempty
  · have hdot : DomainName.text (front ++ [last]) =
        named front last false ++ ['.'] := by
      simp [text_concat, named]
    rw [List.concat_eq_append, hdot]
    exact normalizeText_append_dot_iff (not_blank_named front last)

end Written

/-- Whether every backslash in a name stands before a dot. -/
def escapesDots : List Char → Bool
  | [] => true
  | '\\' :: '.' :: rest => escapesDots rest
  | c :: rest => c != '\\' && escapesDots rest

section Escapes

theorem escapesDots_quoted (rest : List Char) :
    escapesDots ('\\' :: '.' :: rest) = escapesDots rest := by
  rw [escapesDots]

theorem escapesDots_cons {c : Char} (hslash : c ≠ '\\') (rest : List Char) :
    escapesDots (c :: rest) = escapesDots rest := by
  rw [escapesDots.eq_def]
  split <;> simp_all

def quoteDots (chars : List Char) : List Char :=
  chars.flatMap fun c => if c = '.' then ['\\', '.'] else [c]

theorem escapesDots_quoteDots (hslash : ∀ c ∈ chars, c ≠ '\\')
    (rest : List Char) :
    escapesDots (quoteDots chars ++ rest) = escapesDots rest := by
  induction chars with
  | nil => rfl
  | cons c chars ih =>
      obtain ⟨hfirst, hrest⟩ := List.forall_mem_cons.mp hslash
      rw [quoteDots, List.flatMap_cons, List.append_assoc]
      change escapesDots (_ ++ (quoteDots chars ++ rest)) = _
      split
      next => exact (escapesDots_quoted _).trans (ih hrest)
      next => exact (escapesDots_cons hfirst _).trans (ih hrest)

theorem toLower_eq_slash : ∀ c : Char, c.toLower = '\\' → c = '\\' :=
  Text.toLower_induction (fun _ hsame hslash => hsame.symm.trans hslash)
    (by decide)

theorem quoteDots_fold (chars : List Char) :
    quoteDots (Text.fold chars) = Text.fold (quoteDots chars) := by
  induction chars with
  | nil => rfl
  | cons c chars ih =>
      have hfirst : (if c.toLower = '.' then ['\\', '.'] else [c.toLower]) =
          Text.fold (if c = '.' then ['\\', '.'] else [c]) := by
        simp only [Text.toLower_eq_dot_iff]
        split <;> rfl
      change (if c.toLower = '.' then ['\\', '.'] else [c.toLower]) ++
        quoteDots (Text.fold chars) = _
      rw [hfirst, ih, ← Text.fold_append]
      rfl

theorem toNat_lt_of_isPlain {c : Char} {leading : Bool}
    (hplain : isPlain leading c) :
    c.toNat < 128 := by
  unfold isPlain Char.isAlphanum Char.isAlpha Char.isUpper Char.isLower
    Char.isDigit at hplain
  simp only [Bool.or_eq_true, Bool.and_eq_true, decide_eq_true_eq, beq_iff_eq,
    UInt32.le_iff_toNat_le, ge_iff_le] at hplain
  rcases hplain with
    ((((hrange | hrange) | hrange) | rfl) | ⟨rfl, -⟩) | ⟨rfl, -⟩
  · exact Nat.lt_of_le_of_lt hrange.2 (by decide)
  · exact Nat.lt_of_le_of_lt hrange.2 (by decide)
  · exact Nat.lt_of_le_of_lt hrange.2 (by decide)
  all_goals decide

theorem byteText_of_plain {c : Char} {leading : Bool}
    (hplain : isPlain leading c || c == '.') :
    byteText leading (UInt8.ofNat c.toNat) =
      (if c = '.' then ['\\', '.'] else [c]) ∧
      c ≠ '\\' := by
  have hascii : c.toNat < 128 := by
    rcases Bool.or_eq_true_iff.mp hplain with hplain | hdot
    · exact toNat_lt_of_isPlain hplain
    · rw [beq_iff_eq.mp hdot]
      decide
  have hwritten : ∀ code < 128, ∀ leading,
      isPlain leading (Char.ofNat code) || Char.ofNat code == '.' →
        byteText leading (UInt8.ofNat code) =
          (if Char.ofNat code = '.' then ['\\', '.'] else [Char.ofNat code]) ∧
            Char.ofNat code ≠ '\\' := by
    decide +kernel
  have hchar := hwritten c.toNat hascii leading
  rw [Char.ofNat_toNat] at hchar
  exact hchar hplain

theorem labelText_eq_quoteDots (hlabel : label? chars = some label) :
    labelText label = quoteDots chars ∧ ∀ c ∈ chars, c ≠ '\\' := by
  cases chars with
  | nil => cases hlabel
  | cons first rest =>
      simp only [label?] at hlabel
      split at hlabel
      next hfits =>
        cases hlabel
        simp only [Bool.and_eq_true, List.all_eq_true] at hfits
        obtain ⟨⟨hfirst, hrest⟩, -⟩ := hfits
        have hfirst := byteText_of_plain hfirst
        have hrest (c : Char) (hc : c ∈ rest) := byteText_of_plain (hrest c hc)
        constructor
        · rw [List.map_cons, labelText, hfirst.1, List.flatMap_map]
          exact congrArg _ (List.flatMap_congr fun c hc => (hrest c hc).1)
        · rw [List.forall_mem_cons]
          exact ⟨hfirst.2, fun c hc => (hrest c hc).2⟩
      next => cases hlabel

theorem mapM_label?_dotted {pieces : List (List Char)}
    (hread : pieces.mapM label? = some labels) :
    dotted labels = pieces.flatMap (fun piece => quoteDots piece ++ ['.']) ∧
      ∀ label ∈ labels, ∃ chars, label? chars = some label := by
  induction pieces generalizing labels with
  | nil =>
      cases hread
      exact ⟨rfl, nofun⟩
  | cons piece pieces ih =>
      simp only [List.mapM_cons, Option.bind_eq_bind, Option.bind_eq_some_iff]
        at hread
      obtain ⟨first, hfirst, others, hothers, hread⟩ := hread
      cases hread
      obtain ⟨hdotted, hlabels⟩ := ih hothers
      constructor
      · rw [dotted, List.flatMap_cons, List.flatMap_cons,
          (labelText_eq_quoteDots hfirst).1, ← hdotted, dotted]
      · exact List.forall_mem_cons.mpr ⟨⟨piece, hfirst⟩, hlabels⟩

theorem escapesDots_labelText (hlabel : label? chars = some label)
    (rest : List Char) :
    escapesDots (Text.fold (labelText label) ++ rest) = escapesDots rest := by
  obtain ⟨htext, hslash⟩ := labelText_eq_quoteDots hlabel
  rw [htext, ← quoteDots_fold]
  refine escapesDots_quoteDots (fun c hc => ?_) rest
  obtain ⟨upper, hupper, rfl⟩ := List.mem_map.mp hc
  exact mt (toLower_eq_slash upper) (hslash upper hupper)

theorem escapesDots_dotted
    (hlabels : ∀ label ∈ labels, ∃ chars, label? chars = some label)
    (rest : List Char) :
    escapesDots (Text.fold (dotted labels) ++ rest) = escapesDots rest := by
  induction labels with
  | nil => rfl
  | cons label labels ih =>
      obtain ⟨⟨chars, hlabel⟩, hothers⟩ := List.forall_mem_cons.mp hlabels
      have hdotted : Text.fold (dotted (label :: labels)) ++ rest =
          Text.fold (labelText label) ++ '.' ::
          (Text.fold (dotted labels) ++ rest) := by
        simp only [dotted, List.flatMap_cons, Text.fold_append,
          List.append_assoc]
        rfl
      rw [hdotted, escapesDots_labelText hlabel,
        escapesDots_cons (by decide), ih hothers]

end Escapes

section Symbols

def spell (symbols : List Symbol) : List Char :=
  symbols.flatMap fun
    | .char c => if c = '.' then ['\\', '.'] else [c]
    | .dot => ['.']

theorem symbols?_unprintable {c : Char} (hslash : c ≠ '\\') (hdot : c ≠ '.')
    (hblank : (Text.isBlank c || Text.isControl c) = true) :
    symbols? (c :: rest) = none := by
  rw [symbols?.eq_def]
  split <;> simp_all

theorem symbols?_eq_some_cons {c : Char} {symbols : List Symbol}
    (hslash : c ≠ '\\') (hread : symbols? (c :: rest) = some symbols) :
    ∃ first others, symbols = first :: others ∧ spell [first] = [c] ∧
      symbols? rest = some others := by
  by_cases hdot : c = '.'
  · subst hdot
    rw [symbols?_dot] at hread
    obtain ⟨others, hothers, rfl⟩ := Option.map_eq_some_iff.mp hread
    exact ⟨.dot, others, rfl, rfl, hothers⟩
  · cases hblank : Text.isBlank c || Text.isControl c with
    | true =>
        rw [symbols?_unprintable hslash hdot hblank] at hread
        cases hread
    | false =>
        rw [Bool.or_eq_false_iff] at hblank
        rw [symbols?_char hslash hdot hblank.1 hblank.2] at hread
        obtain ⟨others, hothers, rfl⟩ := Option.map_eq_some_iff.mp hread
        exact ⟨.char c, others, rfl, by simp [spell, hdot], hothers⟩

theorem spell_of_escapesDots (hescapes : escapesDots name = true)
    {symbols : List Symbol} (hread : symbols? (name ++ rest) = some symbols) :
    ∃ front back, symbols = front ++ back ∧ spell front = name ∧
      symbols? rest = some back := by
  -- An escaped dot is two characters and one symbol, so the induction takes
  -- both at once.
  induction name using escapesDots.induct generalizing symbols with
  | case1 => exact ⟨[], symbols, rfl, rfl, hread⟩
  | case2 name ih =>
      rw [escapesDots_quoted] at hescapes
      rw [List.cons_append, List.cons_append, symbols?_quoted (by decide)]
        at hread
      obtain ⟨others, hothers, rfl⟩ := Option.map_eq_some_iff.mp hread
      obtain ⟨front, back, rfl, hfront, hback⟩ := ih hescapes hothers
      exact ⟨.char '.' :: front, back, rfl, by rw [← hfront]; rfl, hback⟩
  | case3 c name hquoted ih =>
      rw [escapesDots.eq_3 _ _ hquoted, Bool.and_eq_true, bne_iff_ne]
        at hescapes
      obtain ⟨first, others, rfl, hfirst, hothers⟩ :=
        symbols?_eq_some_cons hescapes.1 hread
      obtain ⟨front, back, rfl, hfront, hback⟩ := ih hescapes.2 hothers
      refine ⟨first :: front, back, rfl, ?_, hback⟩
      rw [← List.singleton_append, spell, List.flatMap_append, ← spell, hfirst,
        ← spell, hfront]
      rfl

theorem pieces_ne_nil (symbols : List Symbol) : pieces symbols ≠ [] := by
  cases symbols with
  | nil => simp [pieces]
  | cons symbol symbols =>
      cases symbol with
      | dot => simp [pieces]
      | char c =>
          simp only [pieces]
          split <;> simp

theorem pieces_append_dot (symbols : List Symbol) :
    pieces (symbols ++ [.dot]) = pieces symbols ++ [[]] := by
  induction symbols with
  | nil => rfl
  | cons symbol symbols ih =>
      cases symbol with
      | dot => simp [pieces, ih]
      | char c =>
          obtain ⟨first, others, hpieces⟩ :=
            List.exists_cons_of_ne_nil (pieces_ne_nil symbols)
          simp [pieces, ih, hpieces]

theorem flatMap_pieces (symbols : List Symbol) :
    (pieces symbols).flatMap (fun piece => quoteDots piece ++ ['.']) =
      spell symbols ++ ['.'] := by
  induction symbols with
  | nil => rfl
  | cons symbol symbols ih =>
      cases symbol with
      | dot =>
          rw [pieces, List.flatMap_cons, ih]
          rfl
      | char c =>
          obtain ⟨first, others, hpieces⟩ :=
            List.exists_cons_of_ne_nil (pieces_ne_nil symbols)
          have hfirst :
              quoteDots (c :: first) = spell [.char c] ++ quoteDots first := by
            simp [quoteDots, spell]
          have hspell :
              spell (.char c :: symbols) =
              spell [.char c] ++ spell symbols := by
            simp [spell]
          rw [hpieces, List.flatMap_cons] at ih
          simp only [pieces, hpieces, List.flatMap_cons, hfirst, hspell,
            List.append_assoc]
          rw [← ih]
          simp only [List.append_assoc]

end Symbols

theorem text_of_escapesDots (hescapes : escapesDots name = true)
    (hbare : Bare name) (hread : spelled? (name ++ ['.']) = some spelled) :
    DomainName.text spelled.labels = name ++ ['.'] := by
  have hroot : name ++ ['.'] ≠ ['.'] := by simpa using hbare.ne_nil
  simp only [spelled?, if_neg hroot, Option.bind_eq_bind,
    Option.bind_eq_some_iff] at hread
  obtain ⟨symbols, hsymbols, labels, hlabels, hspelled⟩ := hread
  obtain ⟨front, back, rfl, hfront, hback⟩ :=
    spell_of_escapesDots hescapes hsymbols
  cases hback
  -- Behind the dot at the end there is an empty piece, which makes no label.
  rw [pieces_append_dot] at hlabels
  simp only [List.getLast?_append, List.getLast?_singleton, Option.some_or,
    beq_self_eq_true, if_true, List.dropLast_concat] at hlabels
  have hdotted := (mapM_label?_dotted hlabels).1
  rw [flatMap_pieces, hfront] at hdotted
  have hnil : labels ≠ [] := by
    rintro rfl
    exact List.append_ne_nil_of_right_ne_nil name (by simp) hdotted.symm
  split at hspelled
  next =>
    cases hspelled
    rw [DomainName.text, if_neg hnil]
    exact hdotted
  next => cases hspelled

theorem exists_label?_eq (hread : spelled? text = some spelled) :
    ∀ label ∈ spelled.labels, ∃ chars, label? chars = some label := by
  simp only [spelled?, Option.bind_eq_bind] at hread
  split at hread
  next =>
    cases hread
    exact List.forall_mem_nil _
  next =>
    obtain ⟨symbols, -, hread⟩ := Option.bind_eq_some_iff.mp hread
    obtain ⟨labels, hlabels, hread⟩ := Option.bind_eq_some_iff.mp hread
    split at hread
    next =>
      cases hread
      exact (mapM_label?_dotted hlabels).2
    next => cases hread

theorem escapesDots_of_text (hbare : Bare name)
    (hread : spelled? (name ++ ['.']) = some spelled)
    (htext : Text.fold (DomainName.text spelled.labels) = name ++ ['.']) :
    escapesDots name = true := by
  have hlabels := exists_label?_eq hread
  rcases List.eq_nil_or_concat spelled.labels with hnil | ⟨front, last, hconcat⟩
  · rw [hnil] at htext
    exact absurd (List.self_eq_append_left.mp htext) hbare.ne_nil
  · rw [hconcat, List.concat_eq_append] at htext hlabels
    obtain ⟨hfront, hlast⟩ := List.forall_mem_append.mp hlabels
    obtain ⟨chars, hchars⟩ := hlast last (List.mem_singleton_self last)
    have hname :
        name = Text.fold (dotted front) ++
        (Text.fold (labelText last) ++ []) := by
      rw [text_concat, named, if_pos rfl, Text.fold_append, Text.fold_append,
        ← List.append_assoc] at htext
      rw [List.append_nil]
      exact (List.append_cancel_right htext).symm
    rw [hname, escapesDots_dotted hfront, escapesDots_labelText hchars,
      escapesDots]

theorem spelled?_of_toLabels {whole : String}
    (hwhole : whole.toList = qualified name)
    (hread : toLabels whole = .ok labels) :
    ∃ spelled, spelled? (qualified name) = some spelled ∧
      spelled.labels = labels := by
  obtain ⟨front, hfront⟩ := exists_qualified_eq name
  have hnil : qualified name ≠ [] := by simp [hfront]
  have hdot : (qualified name).getLast? = some '.' := by simp [hfront]
  simp only [toLabels, toSpelled, hwhole, if_neg hnil, if_pos hdot] at hread
  split at hread
  next spelled hspelled =>
    cases hread
    exact ⟨spelled, hspelled, rfl⟩
  next => cases hread

/-- A name is written again as it was read just when no more than its dots is
escaped in it. -/
theorem fold_text_eq_qualified_iff (hnormal : IsNormal name)
    (hread : spelled? (qualified name) = some spelled) :
    Text.fold (DomainName.text spelled.labels) = qualified name ↔
      escapesDots name = true := by
  rcases hnormal with rfl | ⟨hbare, hfold⟩
  · cases hread
    exact ⟨fun _ => rfl, fun _ => rfl⟩
  · rw [hbare.qualified] at hread ⊢
    refine ⟨escapesDots_of_text hbare hread, fun hescapes => ?_⟩
    rw [text_of_escapesDots hescapes hbare hread, Text.fold_append, hfold]
    rfl

end DnsForwarder.DomainName
