import DnsForwarder.Text.Numeral
import Mathlib.Data.List.Basic

/-! Numerals are read as the numbers that they are written for, in every radix
that has digits. -/

namespace DnsForwarder.Text

variable {radix digit value limit : Nat}

theorem digit?_digitChar (hradix : radix ≤ 16) (hdigit : digit < radix) :
    digit? radix digit.digitChar = some digit := by
  have hall :
      ∀ radix ≤ 16, ∀ digit < radix, digit? radix (Nat.digitChar digit) =
      some digit := by
    decide
  exact hall radix hradix digit hdigit

theorem exists_digit_of_mem (hradix : 1 < radix) {c : Char}
    (hmem : c ∈ Nat.toDigits radix value) :
    ∃ digit < radix, c = digit.digitChar := by
  induction value using Nat.strongRecOn with
  | ind value ih =>
      rw [Nat.toDigits_eq_if hradix] at hmem
      split at hmem
      next hsmall => exact ⟨value, hsmall, List.mem_singleton.mp hmem⟩
      next hlarge =>
        rcases List.mem_append.mp hmem with hfront | hlast
        · exact ih _ (Nat.div_lt_self (by omega) hradix) hfront
        · exact ⟨value % radix, Nat.mod_lt _ (by omega),
            List.mem_singleton.mp hlast⟩

theorem isSome_of_mem_toDigits (hradix : 1 < radix) (hlimit : radix ≤ 16)
    {c : Char} (hmem : c ∈ Nat.toDigits radix value) :
    (digit? radix c).isSome := by
  obtain ⟨digit, hdigit, rfl⟩ := exists_digit_of_mem hradix hmem
  rw [digit?_digitChar hlimit hdigit]
  rfl

theorem forall_mem_toDigits {P : Char → Prop} (hradix : 1 < radix)
    (hlimit : radix ≤ 16) (hdigits : ∀ digit < 16, P (Nat.digitChar digit)) :
    ∀ c ∈ Nat.toDigits radix value, P c := by
  intro c hmem
  obtain ⟨digit, hdigit, rfl⟩ := exists_digit_of_mem hradix hmem
  exact hdigits digit (Nat.lt_of_lt_of_le hdigit hlimit)

theorem ofDigits_toDigits (hradix : 1 < radix) (hlimit : radix ≤ 16)
    (value : Nat) :
    ofDigits radix (Nat.toDigits radix value) = value := by
  induction value using Nat.strongRecOn with
  | ind value ih =>
      rw [Nat.toDigits_eq_if hradix]
      split
      next hsmall => simp [ofDigits, digit?_digitChar hlimit hsmall]
      next hlarge =>
        have hfront := ih _ (Nat.div_lt_self (by omega) hradix)
        have hlast := digit?_digitChar hlimit (Nat.mod_lt value (by omega))
        simp only [ofDigits, List.foldl_append, List.foldl_cons, List.foldl_nil]
          at hfront ⊢
        rw [hfront, hlast]
        exact Nat.div_add_mod' value radix

theorem toDigits_ne_nil (radix value : Nat) : Nat.toDigits radix value ≠ [] :=
  List.ne_nil_of_length_pos Nat.length_toDigits_pos

theorem head?_toDigits (hradix : 1 < radix) (hvalue : 0 < value) :
    (Nat.toDigits radix value).head? ≠ some '0' := by
  induction value using Nat.strongRecOn with
  | ind value ih =>
      rw [Nat.toDigits_eq_if hradix]
      split
      next hsmall =>
        rw [List.head?_cons, ne_eq, Option.some.injEq, Nat.digitChar_eq_zero]
        omega
      next hlarge =>
        rw [List.head?_append_of_ne_nil _ (toDigits_ne_nil _ _)]
        exact ih _ (Nat.div_lt_self hvalue hradix)
          (Nat.div_pos (by omega) (by omega))

theorem length_toDigits_of_head? (hradix : 1 < radix)
    (hzero : (Nat.toDigits radix value).head? = some '0') :
    (Nat.toDigits radix value).length = 1 := by
  rcases Nat.eq_zero_or_pos value with rfl | hvalue
  · rw [Nat.toDigits_of_lt_base (Nat.lt_of_succ_lt hradix)]
    rfl
  · exact absurd hzero (head?_toDigits hradix hvalue)

theorem unsigned?_decimal (hvalue : value ≤ limit) :
    unsigned? limit (decimal value) = some value := by
  have hdigits : ∀ c ∈ decimal value, (digit? 10 c).isSome := fun c hmem =>
    isSome_of_mem_toDigits (by decide) (by decide) hmem
  have hread : ofDigits? 10 (decimal value) = some value := by
    rw [ofDigits?,
      if_pos ⟨toDigits_ne_nil 10 value, List.all_eq_true.mpr hdigits⟩]
    exact congrArg some (ofDigits_toDigits (by decide) (by decide) value)
  have hunsigned : unsigned? limit (decimal value) =
      (ofDigits? 10 (decimal value)).filter (· ≤ limit) := by
    unfold unsigned?
    split
    next rest hplus =>
      have hsign := hdigits '+' (hplus ▸ List.mem_cons_self)
      exact absurd hsign (by decide)
    next => rfl
  rw [hunsigned, hread]
  simp [hvalue]

end DnsForwarder.Text
