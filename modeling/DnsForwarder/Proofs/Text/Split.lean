import DnsForwarder.Text.Blank
import DnsForwarder.Text.Split
import DnsForwarder.Text.Utf8
import Mathlib.Data.List.Basic

/-! Texts in pieces. Joining and cutting undo each other, and neither the case
of letters nor the white space around a text moves a separator. -/

namespace DnsForwarder.Text

variable {separator c : Char} {text ending rest : List Char}
  {pieces : List (List Char)}

section Characters

theorem toLower_induction {property : Char → Prop}
    (hsame : ∀ c, c.toLower = c → property c)
    (hletter : ∀ index < 26, property (Char.ofNat (65 + index))) (c : Char) :
    property c := by
  by_cases hupper : c.val ≥ 'A'.val ∧ c.val ≤ 'Z'.val
  · have hrange : 65 ≤ c.toNat ∧ c.toNat ≤ 90 := by
      simpa [UInt32.le_iff_toNat_le] using hupper
    obtain ⟨index, hindex⟩ := Nat.exists_eq_add_of_le hrange.1
    rw [← Char.ofNat_toNat c, hindex]
    exact hletter index (by omega)
  · exact hsame c (dif_neg hupper)

theorem isBlank_toLower : ∀ c : Char, isBlank c.toLower = isBlank c :=
  toLower_induction (fun _ hsame => congrArg isBlank hsame) (by decide)

theorem isControl_toLower : ∀ c : Char, isControl c.toLower = isControl c :=
  toLower_induction (fun _ hsame => congrArg isControl hsame) (by decide)

theorem utf8Size_toLower : ∀ c : Char, c.toLower.utf8Size = c.utf8Size :=
  toLower_induction (fun _ hsame => congrArg Char.utf8Size hsame) (by decide)

theorem toLower_eq_dot_iff : ∀ c : Char, c.toLower = '.' ↔ c = '.' :=
  toLower_induction (fun _ hsame => by rw [hsame]) (by decide)

theorem toLower_toLower : ∀ c : Char, c.toLower.toLower = c.toLower :=
  toLower_induction (fun _ hsame => congrArg Char.toLower hsame) (by decide)

@[simp] theorem fold_fold (text : List Char) : fold (fold text) = fold text :=
  List.map_map.trans (List.map_congr_left fun c _ => toLower_toLower c)

@[simp] theorem byteLength_fold (text : List Char) :
    byteLength (fold text) = byteLength text := by
  simp [byteLength, fold, List.foldr_map, utf8Size_toLower]

theorem byteLength_eq_length (hsingle : ∀ c ∈ text, c.utf8Size = 1) :
    byteLength text = text.length := by
  induction text with
  | nil => rfl
  | cons c text ih =>
      obtain ⟨hfirst, hrest⟩ := List.forall_mem_cons.mp hsingle
      have hlength := ih hrest
      simp only [byteLength, List.foldr_cons, List.length_cons, hfirst]
        at hlength ⊢
      omega

end Characters

theorem trimRight_of_not_blank
    (hlast : ∀ c ∈ text.getLast?, isBlank c = false) :
    trimRight text = text := by
  rcases List.eq_nil_or_concat text with rfl | ⟨front, last, rfl⟩
  · rfl
  · have hblank : isBlank last = false := hlast last (by simp)
    simp [trimRight, hblank]

theorem not_blank_of_all (hall : text.all fun c => !isBlank c) :
    ∀ c ∈ text, isBlank c = false := by
  simpa using hall

theorem trim_of_not_blank (hblank : ∀ c ∈ text, isBlank c = false) :
    trim text = text := by
  have hfront : text.dropWhile isBlank = text := by
    cases text with
    | nil => rfl
    | cons first rest => simp [hblank first List.mem_cons_self]
  rw [trim, hfront]
  exact trimRight_of_not_blank fun c hc => hblank c (List.mem_of_getLast? hc)

theorem dropEnding?_eq_some_iff :
    dropEnding? ending text = some rest ↔ rest ++ ending = text :=
  List.isSuffixOf?_eq_some_iff_append_eq

theorem dropEnding?_append (ending rest : List Char) :
    dropEnding? ending (rest ++ ending) = some rest :=
  dropEnding?_eq_some_iff.mpr rfl

theorem split_append_separator (separator : Char) (text rest : List Char) :
    split separator (text ++ separator :: rest) = split separator text ++
      split separator rest := by
  induction text with
  | nil => simp [split]
  | cons c text ih =>
      by_cases hsame : c = separator
      · simp [split, hsame, ih]
      · obtain ⟨first, others, hpieces⟩ :=
          List.exists_cons_of_ne_nil (split_ne_nil separator text)
        simp [split, hsame, ih, hpieces]

theorem split_of_not_mem (htext : separator ∉ text) :
    split separator text = [text] := by
  induction text with
  | nil => rfl
  | cons c text ih =>
      rw [List.mem_cons, not_or] at htext
      obtain ⟨hfirst, hrest⟩ := htext
      simp [split, Ne.symm hfirst, ih hrest]

theorem split_join (hpieces : pieces ≠ [])
    (hfree : ∀ piece ∈ pieces, separator ∉ piece) :
    split separator (join [separator] pieces) = pieces := by
  induction pieces with
  | nil => exact absurd rfl hpieces
  | cons piece others ih =>
      obtain ⟨hpiece, hothers⟩ := List.forall_mem_cons.mp hfree
      cases others with
      | nil => simpa [join, List.intercalate] using split_of_not_mem hpiece
      | cons next others =>
          have hjoin : join [separator] (piece :: next :: others) =
              piece ++ separator :: join [separator] (next :: others) := by
            simp [join, List.intercalate_cons_cons]
          rw [hjoin, split_append_separator, split_of_not_mem hpiece,
            ih (List.cons_ne_nil _ _) hothers]
          rfl

theorem length_join_le {most : Nat}
    (hpieces : ∀ piece ∈ pieces, piece.length ≤ most) :
    (join [separator] pieces).length ≤ pieces.length * (most + 1) := by
  induction pieces with
  | nil => simp [join, List.intercalate]
  | cons piece others ih =>
      obtain ⟨hpiece, hothers⟩ := List.forall_mem_cons.mp hpieces
      have hlength := ih hothers
      rw [List.length_cons, Nat.succ_mul]
      cases others with
      | nil =>
          simp only [join, List.intercalate_singleton]
          omega
      | cons next others =>
          simp only [join, List.intercalate_cons_cons, List.length_append,
            List.length_singleton] at hlength ⊢
          omega

theorem forall_mem_join {P : Char → Prop} {separator : List Char}
    (hseparator : ∀ c ∈ separator, P c)
    (hpieces : ∀ piece ∈ pieces, ∀ c ∈ piece, P c) :
    ∀ c ∈ join separator pieces, P c := by
  induction pieces with
  | nil => exact nofun
  | cons piece others ih =>
      obtain ⟨hpiece, hothers⟩ := List.forall_mem_cons.mp hpieces
      cases others with
      | nil => simpa [join, List.intercalate] using hpiece
      | cons next others =>
          have hjoin : join separator (piece :: next :: others) =
              piece ++ separator ++ join separator (next :: others) := by
            simp [join, List.intercalate_cons_cons]
          rw [hjoin]
          simp only [List.forall_mem_append]
          exact ⟨⟨hpiece, hseparator⟩, ih hothers⟩

theorem mem_piece_of_mem (hmem : c ∈ text) (hother : c ≠ separator) :
    ∃ piece ∈ split separator text, c ∈ piece := by
  induction text with
  | nil => cases hmem
  | cons first text ih =>
      obtain ⟨piece, others, hpieces⟩ :=
        List.exists_cons_of_ne_nil (split_ne_nil separator text)
      rw [hpieces] at ih
      by_cases hsame : first = separator
      · obtain ⟨found, hfound, hc⟩ :=
          ih ((List.mem_cons.mp hmem).resolve_left fun heq =>
            hother (heq.trans hsame))
        exact ⟨found,
          by simp [split, hsame, hpieces, List.mem_cons.mp hfound], hc⟩
      · simp only [split, hsame, if_false, hpieces]
        rcases List.mem_cons.mp hmem with rfl | hrest
        · exact ⟨c :: piece, List.mem_cons_self, List.mem_cons_self⟩
        · obtain ⟨found, hfound, hc⟩ := ih hrest
          rcases List.mem_cons.mp hfound with rfl | hfound
          · exact ⟨first :: found, List.mem_cons_self,
              List.mem_cons_of_mem _ hc⟩
          · exact ⟨found, List.mem_cons_of_mem _ hfound, hc⟩

theorem split_fold (text : List Char) :
    split '.' (fold text) = (split '.' text).map fold := by
  induction text with
  | nil => rfl
  | cons c text ih =>
      obtain ⟨piece, others, hpieces⟩ :=
        List.exists_cons_of_ne_nil (split_ne_nil '.' text)
      change split '.' (c.toLower :: fold text) = _
      simp only [split, toLower_eq_dot_iff, ih]
      split
      next => rfl
      next => simp [hpieces, fold]

end DnsForwarder.Text
