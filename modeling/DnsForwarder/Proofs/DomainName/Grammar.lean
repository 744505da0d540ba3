import DnsForwarder.DomainName.Labels
import DnsForwarder.Proofs.DomainName.Normal
import DnsForwarder.Proofs.Text.Utf8
import Mathlib.Data.List.TakeWhile

/-! The grammar of names: labels with dots between them, and perhaps one behind
the last, or the dot of the root alone. A text has a normal form just when it is
one of these without the white space around it, and the normal form differs from
it in the case of ASCII letters only. -/

namespace DnsForwarder

namespace Text

variable {text trimmed : List Char}

structure Trims (text trimmed : List Char) : Prop where
  around : ∃ front back, text = front ++ trimmed ++ back ∧
    ∀ c ∈ front ++ back, isBlank c = true
  first : ∀ c ∈ trimmed.head?, isBlank c = false
  last : ∀ c ∈ trimmed.getLast?, isBlank c = false

theorem head?_dropWhile_isBlank (text : List Char) :
    ∀ c ∈ (text.dropWhile isBlank).head?, isBlank c = false := by
  intro c hc
  have hnot := List.head?_dropWhile_not isBlank text
  rw [Option.mem_def.mp hc] at hnot
  exact hnot

theorem exists_eq_trimRight_append (text : List Char) :
    ∃ back, text = trimRight text ++ back ∧ ∀ c ∈ back, isBlank c = true := by
  refine ⟨(text.reverse.takeWhile isBlank).reverse, ?_, ?_⟩
  · rw [trimRight, ← List.reverse_append, List.takeWhile_append_dropWhile,
      List.reverse_reverse]
  · intro c hc
    exact List.mem_takeWhile_imp (List.mem_reverse.mp hc)

theorem trim_trims (text : List Char) : Trims text (trim text) := by
  obtain ⟨back, hback, hblank⟩ :=
    exists_eq_trimRight_append (text.dropWhile isBlank)
  have hfront : ∀ c ∈ text.takeWhile isBlank, isBlank c = true :=
    fun _ hc => List.mem_takeWhile_imp hc
  have htext : text = text.takeWhile isBlank ++ trim text ++ back := by
    rw [List.append_assoc, trim, ← hback, List.takeWhile_append_dropWhile]
  refine ⟨⟨_, back, htext, List.forall_mem_append.mpr ⟨hfront, hblank⟩⟩, ?_, ?_⟩
  · intro c hc
    apply head?_dropWhile_isBlank text c
    rw [hback, List.head?_append, ← trim, Option.mem_def.mp hc]
    rfl
  · intro c hc
    rw [trim, trimRight, List.getLast?_reverse] at hc
    exact head?_dropWhile_isBlank _ c hc

theorem length_encode (text : List Char) :
    (encode text).length = byteLength text := by
  induction text with
  | nil => rfl
  | cons c text ih =>
      rw [encode, List.flatMap_cons, List.length_append,
        String.length_utf8EncodeChar]
      exact congrArg (c.utf8Size + ·) ih

section Lowercase

theorem lowerByte_ofNat {code : Nat} (hbyte : code < 0x100)
    (hlower : ¬(0x41 ≤ code ∧ code ≤ 0x5A)) :
    Labels.lowerByte (UInt8.ofNat code) = UInt8.ofNat code := by
  rw [Labels.lowerByte, if_neg]
  simp only [UInt8.le_iff_toNat_le, UInt8.toNat_ofNat', UInt8.toNat_ofNat]
  omega

theorem not_upper_of_toLower_eq {c : Char} (hlower : c.toLower = c) :
    ¬(0x41 ≤ c.toNat ∧ c.toNat ≤ 0x5A) := by
  rintro ⟨hleast, hmost⟩
  have hletters :
      ∀ index < 26, (Char.ofNat (0x41 + index)).toLower ≠
        Char.ofNat (0x41 + index) := by
    decide
  obtain ⟨index, hindex⟩ := Nat.exists_eq_add_of_le hleast
  have hchar : c = Char.ofNat (0x41 + index) := by
    rw [← hindex, Char.ofNat_toNat]
  exact hletters index (by omega) (hchar ▸ hlower)

/-- A character that is its own lowercase form has no byte that is an uppercase
letter: the bytes of longer characters begin at 0x80. -/
theorem map_lowerByte_encodeChar {c : Char} (hlower : c.toLower = c) :
    (String.utf8EncodeChar c).map Labels.lowerByte =
      String.utf8EncodeChar c := by
  have hplain := not_upper_of_toLower_eq hlower
  have hbits : c.val.toNat = c.toNat := rfl
  have hlong (value least : Nat) (hleast : 0x80 ≤ least)
      (hmost : value + least < 0x100) :
      Labels.lowerByte (UInt8.ofNat (value + least)) =
        UInt8.ofNat (value + least) :=
    lowerByte_ofNat hmost (by omega)
  simp only [String.utf8EncodeChar, hbits]
  split
  next hone => rw [List.map_singleton, lowerByte_ofNat (by omega) hplain]
  next =>
    have hlast := hlong (c.toNat % 64) 0x80 (by omega) (by omega)
    have hmiddle := hlong (c.toNat / 64 % 64) 0x80 (by omega) (by omega)
    split
    next =>
      rw [List.map_cons, List.map_singleton,
        hlong _ _ (by omega) (by omega), hlast]
    next =>
      split
      next =>
        rw [List.map_cons, List.map_cons, List.map_singleton,
          hlong _ _ (by omega) (by omega), hmiddle, hlast]
      next =>
        rw [List.map_cons, List.map_cons, List.map_cons, List.map_singleton,
          hlong _ _ (by omega) (by omega), hlong _ _ (by omega) (by omega),
          hmiddle, hlast]

theorem encodeChar_toLower : ∀ c : Char,
    String.utf8EncodeChar c.toLower =
      (String.utf8EncodeChar c).map Labels.lowerByte :=
  toLower_induction
    (fun c hlower => by rw [map_lowerByte_encodeChar hlower, hlower])
    (by decide)

theorem encode_fold (text : List Char) :
    encode (fold text) = (encode text).map Labels.lowerByte := by
  induction text with
  | nil => rfl
  | cons c text ih =>
      have hfold : fold (c :: text) = c.toLower :: fold text := rfl
      simp only [encode, hfold, List.flatMap_cons, List.map_append,
        encodeChar_toLower] at ih ⊢
      rw [ih]

end Lowercase

end Text

namespace DomainName

variable {text name bare label : List Char} {labels : List (List Char)}

/-- One to 63 bytes without dots, white space and control characters. -/
structure IsLabel (label : List Char) : Prop where
  pos : 1 ≤ (Text.encode label).length
  short : (Text.encode label).length ≤ 63
  plain : ∀ c ∈ label, c ≠ '.' ∧ Text.isBlank c = false ∧
    Text.isControl c = false

inductive IsRow : List Char → Prop where
  | last (label : List Char) (hlabel : IsLabel label) : IsRow label
  | cons (label rest : List Char) (hlabel : IsLabel label)
    (hrest : IsRow rest) : IsRow (label ++ '.' :: rest)

/-- A name other than the root, without a dot at its end. -/
structure IsName (text : List Char) : Prop where
  short : (Text.encode text).length ≤ 253
  row : IsRow text

theorem isLabel_iff : IsLabel label ↔ LabelFits label ∧ '.' ∉ label := by
  have hpos : 1 ≤ (Text.encode label).length ↔ label ≠ [] := by
    cases label with
    | nil => simp [Text.encode]
    | cons c label =>
        simp only [Text.length_encode, Text.byteLength, List.foldr_cons, ne_eq,
          reduceCtorEq, not_false_eq_true, iff_true]
        have := c.utf8Size_pos
        omega
  constructor
  · rintro ⟨hlabel, hshort, hplain⟩
    rw [Text.length_encode] at hshort
    exact ⟨⟨hpos.mp hlabel, hshort, fun c hc => (hplain c hc).2⟩, fun hdot =>
      (hplain _ hdot).1 rfl⟩
  · rintro ⟨⟨hlabel, hshort, hprintable⟩, hdot⟩
    refine ⟨hpos.mpr hlabel, (Text.length_encode label).trans_le hshort,
      fun c hc => ?_⟩
    exact ⟨fun hsame => hdot (hsame ▸ hc), hprintable c hc⟩

theorem IsRow.labelFits (hrow : IsRow text) :
    ∀ label ∈ Text.split '.' text, LabelFits label := by
  induction hrow with
  | last label hlabel =>
      obtain ⟨hfits, hdot⟩ := isLabel_iff.mp hlabel
      rw [Text.split_of_not_mem hdot, List.forall_mem_singleton]
      exact hfits
  | cons label rest hlabel hrest ih =>
      obtain ⟨hfits, hdot⟩ := isLabel_iff.mp hlabel
      rw [Text.split_append_separator, Text.split_of_not_mem hdot,
        List.singleton_append, List.forall_mem_cons]
      exact ⟨hfits, ih⟩

theorem isRow_join (hsome : labels ≠ [])
    (hlabels : ∀ label ∈ labels, IsLabel label) :
    IsRow (Text.join ['.'] labels) := by
  induction labels with
  | nil => exact absurd rfl hsome
  | cons label others ih =>
      obtain ⟨hlabel, hothers⟩ := List.forall_mem_cons.mp hlabels
      cases others with
      | nil =>
          rw [Text.join, List.intercalate_singleton]
          exact .last label hlabel
      | cons next others =>
          rw [Text.join, List.intercalate_cons_cons, List.append_assoc]
          exact .cons label _ hlabel (ih (List.cons_ne_nil _ _) hothers)

theorem isName_iff : IsName text ↔ Bare text := by
  constructor
  · rintro ⟨hshort, hrow⟩
    exact ⟨(Text.length_encode text).ge.trans hshort, hrow.labelFits⟩
  · rintro ⟨hshort, hlabels⟩
    refine ⟨(Text.length_encode text).trans_le hshort, ?_⟩
    rw [← Text.join_split '.' text]
    refine isRow_join (Text.split_ne_nil '.' text) fun label hlabel => ?_
    exact isLabel_iff.mpr
      ⟨hlabels label hlabel, Text.separator_not_mem_split '.' text label hlabel⟩

theorem normalize_eq_ok_iff {text name : String} :
    normalize text = .ok name ↔ normalizeText text.toList =
      .ok name.toList := by
  unfold normalize
  cases normalizeText text.toList with
  | error fault => exact ⟨nofun, nofun⟩
  | ok chars =>
      simp only [Except.map, Except.ok.injEq]
      exact ⟨fun hname => by rw [← hname, String.toList_ofList],
        fun hchars => by rw [hchars, String.ofList_toList]⟩

/-- A text has a normal form just when it is, without the white space around it,
the root's dot or a name of the grammar with one dot behind it or none. The
normal form is then the root's dot or that name, its bytes that are uppercase
ASCII letters in lowercase and all others as they were, and it is its own normal
form. -/
theorem normal_forms_follow_grammar (text : String) :
    let trimmed := Text.trim text.toList
    Text.Trims text.toList trimmed ∧
      ((∃ name, normalize text = .ok name) ↔
        trimmed = ['.'] ∨ ∃ bare, IsName bare ∧
        (trimmed = bare ∨ trimmed = bare ++ ['.'])) ∧
      ∀ name, normalize text = .ok name →
        (trimmed = ['.'] ∧ name = "." ∨
          ∃ bare, IsName bare ∧ (trimmed = bare ∨ trimmed = bare ++ ['.']) ∧
            Text.encode name.toList = (Text.encode bare).map Labels.lowerByte) ∧
        normalize name = .ok name := by
  intro trimmed
  refine ⟨Text.trim_trims _, ⟨?_, ?_⟩, ?_⟩
  · rintro ⟨name, hname⟩
    obtain ⟨hroot, -⟩ | ⟨bare, hbare, htrimmed, -⟩ :=
      normalizeText_eq_ok_iff.mp (normalize_eq_ok_iff.mp hname)
    · exact .inl hroot
    · exact .inr ⟨bare, isName_iff.mpr hbare, htrimmed⟩
  · rintro (hroot | ⟨bare, hbare, htrimmed⟩)
    · exact ⟨".",
        normalize_eq_ok_iff.mpr
        (normalizeText_eq_ok_iff.mpr (.inl ⟨hroot, rfl⟩))⟩
    · refine ⟨String.ofList (Text.fold bare), normalize_eq_ok_iff.mpr ?_⟩
      rw [String.toList_ofList]
      exact normalizeText_eq_ok_iff.mpr
        (.inr ⟨bare, isName_iff.mp hbare, htrimmed, rfl⟩)
  · intro name hname
    have hchars := normalize_eq_ok_iff.mp hname
    refine ⟨?_,
      normalize_eq_ok_iff.mpr
      (normalizeText_self (isNormal_of_normalizeText hchars))⟩
    obtain ⟨hroot, hdot⟩ | ⟨bare, hbare, htrimmed, hfold⟩ :=
      normalizeText_eq_ok_iff.mp hchars
    · exact .inl ⟨hroot, String.toList_inj.mp hdot⟩
    · refine .inr ⟨bare, isName_iff.mpr hbare, htrimmed, ?_⟩
      rw [hfold, Text.encode_fold]

example : normalize " Ä.B. " = .ok "Ä.b" := by decide +kernel

end DomainName

end DnsForwarder
