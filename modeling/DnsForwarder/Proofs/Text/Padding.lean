import DnsForwarder.Proofs.Text.Numeral
import DnsForwarder.Proofs.Text.Split
import Mathlib.Data.List.Induction

/-! Texts that are read as a number. They are its numeral, behind zeros and a
plus sign or behind nothing. -/

namespace DnsForwarder.Text

variable {radix digit value limit : Nat} {c : Char} {text numeral : List Char}

section Digits

theorem toNat_lt_of_digit? (hread : digit? radix c = some digit) :
    c.toNat < 128 := by
  have hbelow {last : Char} (hlast : c ≤ last) (hascii : last.toNat < 128) :
      c.toNat < 128 :=
    Nat.lt_of_le_of_lt hlast hascii
  obtain ⟨hvalue, -⟩ := Option.filter_eq_some_iff.mp hread
  split_ifs at hvalue with hdecimal hlower hupper
  · exact hbelow hdecimal.2 (by decide)
  · exact hbelow hlower.2 (by decide)
  · exact hbelow hupper.2 (by decide)

theorem toLower_of_digit? (hradix : radix ≤ 16)
    (hread : digit? radix c = some digit) :
    digit < radix ∧ c.toLower = digit.digitChar := by
  have hall :
      ∀ code < 128, ∀ radix ≤ 16, ∀ digit ∈ digit? radix (Char.ofNat code),
      digit < radix ∧ (Char.ofNat code).toLower = digit.digitChar := by
    decide +kernel
  have hchar := hall c.toNat (toNat_lt_of_digit? hread) radix hradix
  rw [Char.ofNat_toNat] at hchar
  exact hchar digit hread

theorem digit?_toLower (hradix : radix ≤ 16) :
    ∀ c : Char, digit? radix c.toLower = digit? radix c := by
  have hall :
      ∀ radix ≤ 16, ∀ index <
      26, digit? radix (Char.ofNat (65 + index)).toLower =
      digit? radix (Char.ofNat (65 + index)) := by
    decide
  exact toLower_induction (fun c hsame => congrArg (digit? radix) hsame)
    (hall radix hradix)

theorem ofDigits_fold (hradix : radix ≤ 16) (digits : List Char) :
    ofDigits radix (fold digits) = ofDigits radix digits := by
  simp only [ofDigits, fold, List.foldl_map, digit?_toLower hradix]

theorem eq_digitChar_of_digit? (hread : digit? 10 c = some digit) :
    digit < 10 ∧ c = digit.digitChar := by
  have hsame : ∀ c : Char, ∀ digit < 10, c.toLower = Nat.digitChar digit →
      c = digit.digitChar :=
    toLower_induction (fun c hlower digit _ hdigit =>
      hlower ▸ hdigit) (by decide)
  obtain ⟨hsmall, hlower⟩ := toLower_of_digit? (by decide) hread
  exact ⟨hsmall, hsame c digit hsmall hlower⟩

end Digits

def Pads (numeral text : List Char) : Prop :=
  ∃ sign zeros, (sign = [] ∨ sign = ['+']) ∧
    text = sign ++ (List.replicate zeros '0' ++ numeral)

def Padded (text : List Char) : Prop :=
  text.head? = some '+' ∨ text.head? = some '0' ∧ 1 < text.length

instance (text : List Char) : Decidable (Padded text) :=
  inferInstanceAs (Decidable (_ ∨ _))

namespace Pads

theorem forall_mem {P : Char → Prop} (hpads : Pads numeral text)
    (hplus : P '+') (hzero : P '0') (hnumeral : ∀ c ∈ numeral, P c) :
    ∀ c ∈ text, P c := by
  have hzeros (zeros : Nat) :
      ∀ c ∈ List.replicate zeros '0' ++ numeral, P c := by
    rw [List.forall_mem_append]
    exact ⟨fun c hc => List.eq_of_mem_replicate hc ▸ hzero, hnumeral⟩
  obtain ⟨sign, zeros, rfl | rfl, rfl⟩ := hpads
  · exact hzeros zeros
  · exact List.forall_mem_cons.mpr ⟨hplus, hzeros zeros⟩

theorem eq_of_not_padded (hpads : Pads numeral text) (hnumeral : numeral ≠ [])
    (hplain : ¬Padded text) : text = numeral := by
  obtain ⟨sign, zeros, rfl | rfl, rfl⟩ := hpads
  · cases zeros with
    | zero => rfl
    | succ zeros =>
        have hlength := List.length_pos_of_ne_nil hnumeral
        have hlong :
            1 < (List.replicate (zeros + 1) '0' ++ numeral).length := by
          rw [List.length_append, List.length_replicate]
          omega
        exact absurd (.inr ⟨rfl, hlong⟩) hplain
  · exact absurd (.inl rfl) hplain

end Pads

theorem not_padded_toDigits (hradix : 1 < radix) (hlimit : radix ≤ 16)
    (value : Nat) :
    ¬Padded (Nat.toDigits radix value) := by
  rintro (hplus | ⟨hzero, hlength⟩)
  · have hdigit :=
      isSome_of_mem_toDigits hradix hlimit (List.mem_of_head? hplus)
    have hall : ∀ radix ≤ 16, (digit? radix '+').isSome = false := by decide
    rw [hall radix hlimit] at hdigit
    cases hdigit
  · rw [length_toDigits_of_head? hradix hzero] at hlength
    exact Nat.lt_irrefl 1 hlength

theorem toDigits_append_digit (hradix : 1 < radix) (hvalue : 0 < value)
    (hdigit : digit < radix) :
    Nat.toDigits radix (value * radix + digit) =
      Nat.toDigits radix value ++ [digit.digitChar] := by
  have hlarge : ¬value * radix + digit < radix := by
    have := Nat.le_mul_of_pos_left radix hvalue
    omega
  have hfront : (value * radix + digit) / radix = value := by
    rw [Nat.mul_comm, Nat.mul_add_div (by omega), Nat.div_eq_of_lt hdigit,
      Nat.add_zero]
  have hlast : (value * radix + digit) % radix = digit := by
    rw [Nat.mul_comm, Nat.mul_add_mod, Nat.mod_eq_of_lt hdigit]
  rw [Nat.toDigits_eq_if hradix, if_neg hlarge, hfront, hlast]

/-- A numeral, its letters of either case, with any number of zeros in front of
it. -/
def IsNumeral (radix value : Nat) (text : List Char) : Prop :=
  ∃ zeros, fold text = List.replicate zeros '0' ++ Nat.toDigits radix value

theorem isNumeral_ofDigits (hradix : 1 < radix) (hlimit : radix ≤ 16)
    (hdigits : ∀ c ∈ text, (digit? radix c).isSome) (htext : text ≠ []) :
    IsNumeral radix (ofDigits radix text) text := by
  induction text using List.reverseRecOn with
  | nil => exact absurd rfl htext
  | append_singleton front last ih =>
      obtain ⟨hfront, hlast⟩ := List.forall_mem_append.mp hdigits
      obtain ⟨digit, hdigit⟩ :=
        Option.isSome_iff_exists.mp (hlast last List.mem_cons_self)
      obtain ⟨hsmall, hlower⟩ := toLower_of_digit? hlimit hdigit
      have hvalue : ofDigits radix (front ++ [last]) = ofDigits radix front *
          radix + digit := by
        simp [ofDigits, hdigit]
      have hfold :
          fold (front ++ [last]) = fold front ++ [digit.digitChar] := by
        rw [fold_append, ← hlower]
        rfl
      rw [IsNumeral, hvalue, hfold]
      by_cases hnil : front = []
      · subst hnil
        exact ⟨0, by simp [ofDigits, fold, Nat.toDigits_of_lt_base hsmall]⟩
      · obtain ⟨zeros, hzeros⟩ := ih hfront hnil
        rcases Nat.eq_zero_or_pos (ofDigits radix front) with hzero | hpos
        · have hone : fold front = List.replicate (zeros + 1) '0' := by
            rw [hzeros, hzero, List.replicate_succ',
              Nat.toDigits_of_lt_base (by omega)]
            rfl
          refine ⟨zeros + 1, ?_⟩
          rw [hzero, Nat.zero_mul, Nat.zero_add,
            Nat.toDigits_of_lt_base hsmall, ← hone]
        · refine ⟨zeros, ?_⟩
          rw [toDigits_append_digit hradix hpos hsmall,
            ← List.append_assoc, ← hzeros]

theorem ofDigits_zeros (zeros : Nat) (text : List Char) :
    ofDigits radix (List.replicate zeros '0' ++ text) =
      ofDigits radix text := by
  have hzero : (digit? radix '0').getD 0 = 0 := by
    by_cases hradix : 0 < radix <;> simp [digit?, Option.filter, hradix]
  induction zeros with
  | zero => rfl
  | succ zeros ih =>
      rw [List.replicate_succ, List.cons_append]
      simp only [ofDigits, List.foldl_cons, hzero] at ih ⊢
      simpa using ih

theorem isNumeral_iff (hradix : 1 < radix) (hlimit : radix ≤ 16) :
    IsNumeral radix value text ↔
      text ≠ [] ∧ (∀ c ∈ text, (digit? radix c).isSome) ∧
        ofDigits radix text = value := by
  constructor
  · rintro ⟨zeros, hfold⟩
    refine ⟨?_, fun c hc => ?_, ?_⟩
    · rintro rfl
      exact List.append_ne_nil_of_right_ne_nil _
        (toDigits_ne_nil radix value) hfold.symm
    · have hlower :
          c.toLower ∈ List.replicate zeros '0' ++ Nat.toDigits radix value :=
        hfold ▸ List.mem_map.mpr ⟨c, hc, rfl⟩
      have hradices : ∀ radix ≤ 16, 1 < radix → (digit? radix '0').isSome :=
        by decide
      rw [← digit?_toLower hlimit]
      rcases List.mem_append.mp hlower with hzero | hdigit
      · rw [List.eq_of_mem_replicate hzero]
        exact hradices radix hlimit hradix
      · exact isSome_of_mem_toDigits hradix hlimit hdigit
    · rw [← ofDigits_fold hlimit, hfold, ofDigits_zeros,
        ofDigits_toDigits hradix hlimit]
  · rintro ⟨htext, hdigits, rfl⟩
    exact isNumeral_ofDigits hradix hlimit hdigits htext

theorem IsNumeral.digits (hnumeral : IsNumeral radix value text)
    (hradix : 1 < radix) (hlimit : radix ≤ 16) :
    text ≠ [] ∧ ∀ c ∈ text, (digit? radix c).isSome :=
  let hdigits := (isNumeral_iff hradix hlimit).mp hnumeral
  ⟨hdigits.1, hdigits.2.1⟩

theorem fold_of_decimal (hdigits : ∀ c ∈ text, (digit? 10 c).isSome) :
    fold text = text := by
  refine (List.map_congr_left fun c hc => ?_).trans (List.map_id text)
  obtain ⟨digit, hdigit⟩ := Option.isSome_iff_exists.mp (hdigits c hc)
  obtain ⟨-, hchar⟩ := eq_digitChar_of_digit? hdigit
  exact (toLower_of_digit? (by decide) hdigit).2.trans hchar.symm

theorem isNumeral_ten_iff :
    IsNumeral 10 value text ↔ ∃ zeros, text = List.replicate zeros '0' ++
      decimal value := by
  have hten : ∀ zeros, ∀ c ∈ List.replicate zeros '0' ++ decimal value,
      (digit? 10 c).isSome := by
    intro zeros
    rw [List.forall_mem_append]
    refine ⟨fun c hc => ?_, fun c hc =>
      isSome_of_mem_toDigits (by decide) (by decide) hc⟩
    rw [List.eq_of_mem_replicate hc]
    rfl
  constructor
  · intro hnumeral
    obtain ⟨-, hdigits⟩ := hnumeral.digits (by decide) (by decide)
    obtain ⟨zeros, hzeros⟩ := hnumeral
    exact ⟨zeros, (fold_of_decimal hdigits).symm.trans hzeros⟩
  · rintro ⟨zeros, rfl⟩
    exact ⟨zeros, fold_of_decimal (hten zeros)⟩

theorem ofDigits?_eq_some_iff :
    ofDigits? 10 text = some value ↔
      ∃ zeros, text = List.replicate zeros '0' ++ decimal value := by
  rw [← isNumeral_ten_iff, isNumeral_iff (by decide) (by decide), ofDigits?,
    Option.ite_none_right_eq_some, List.all_eq_true,
    Option.some.injEq, and_assoc]

theorem zeros_ne_plus (zeros value : Nat) (rest : List Char) :
    List.replicate zeros '0' ++ decimal value ≠ '+' :: rest := by
  intro hplus
  have hread : ofDigits? 10 ('+' :: rest) = some value :=
    ofDigits?_eq_some_iff.mpr ⟨zeros, hplus.symm⟩
  simp [ofDigits?, digit?] at hread

theorem unsigned?_eq_some_iff :
    unsigned? limit text = some value ↔ value ≤ limit ∧
      Pads (decimal value) text := by
  have hbounded (digits : List Char) :
      (ofDigits? 10 digits).filter (· ≤ limit) = some value ↔
        value ≤ limit ∧ ∃ zeros, digits = List.replicate zeros '0' ++
        decimal value := by
    simp only [Option.filter_eq_some_iff, ofDigits?_eq_some_iff,
      decide_eq_true_eq, and_comm]
  unfold unsigned? Pads
  split
  next rest =>
    refine (hbounded rest).trans (and_congr_right fun _ => ⟨?_, ?_⟩)
    · rintro ⟨zeros, rfl⟩
      exact ⟨['+'], zeros, .inr rfl, rfl⟩
    · rintro ⟨sign, zeros, rfl | rfl, htext⟩
      · exact absurd htext.symm (zeros_ne_plus zeros value rest)
      · exact ⟨zeros, (List.cons.inj htext).2⟩
  next hunsigned =>
    refine (hbounded text).trans (and_congr_right fun _ => ⟨?_, ?_⟩)
    · rintro ⟨zeros, htext⟩
      exact ⟨[], zeros, .inl rfl, htext⟩
    · rintro ⟨sign, zeros, rfl | rfl, htext⟩
      · exact ⟨zeros, htext⟩
      · exact absurd htext (hunsigned _)

end DnsForwarder.Text
