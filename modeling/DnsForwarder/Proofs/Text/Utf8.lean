import DnsForwarder.Text.Utf8

/-! Decoding undoes encoding: the bytes of a text hold no broken sequence and
give the text back. -/

namespace DnsForwarder.Text

namespace Utf8

variable {bits owed low high tail value : Nat} {rest : List UInt8}

theorem toNat_tail (value : Nat) :
    (UInt8.ofNat (value % 64 + 0x80)).toNat = value % 64 + 0x80 := by
  rw [UInt8.toNat_ofNat']
  omega

theorem scan_last (hlow : low ≤ tail % 64 + 0x80)
    (hhigh : tail % 64 + 0x80 ≤ high) :
    scan (some ⟨bits, 1, low, high⟩) (UInt8.ofNat (tail % 64 + 0x80) :: rest) =
      some (Char.ofNat (bits * 64 + tail % 64)) :: scan none rest := by
  have hnext : Pending.next ⟨bits, 1, low, high⟩ (tail % 64 + 0x80) =
      .finished (Char.ofNat (bits * 64 + tail % 64)) := by
    simp [Pending.next, hlow, hhigh]
  simp only [scan, toNat_tail, hnext]

theorem scan_further (hlow : low ≤ tail % 64 + 0x80)
    (hhigh : tail % 64 + 0x80 ≤ high) :
    scan (some ⟨bits, owed + 2, low, high⟩)
      (UInt8.ofNat (tail % 64 + 0x80) :: rest) =
      scan (some ⟨bits * 64 + tail % 64, owed + 1, 0x80, 0xBF⟩) rest := by
  have hnext : Pending.next ⟨bits, owed + 2, low, high⟩ (tail % 64 + 0x80) =
      .pending ⟨bits * 64 + tail % 64, owed + 1, 0x80, 0xBF⟩ := by
    simp [Pending.next, hlow, hhigh]
  simp only [scan, toNat_tail, hnext]

theorem scan_first {state : Pending} (hvalue : value < 0x100)
    (hfirst : first value = .pending state) :
    scan none (UInt8.ofNat value :: rest) = scan (some state) rest := by
  have hbyte : (UInt8.ofNat value).toNat = value := by
    rw [UInt8.toNat_ofNat']
    exact Nat.mod_eq_of_lt hvalue
  simp [scan, hbyte, hfirst]

theorem scan_two (hleast : 0x80 ≤ value) (hmost : value ≤ 0x7FF) :
    scan none (UInt8.ofNat (value / 64 % 32 + 0xC0) ::
      UInt8.ofNat (value % 64 + 0x80) :: rest) =
      some (Char.ofNat value) :: scan none rest := by
  have hfirst : first (value / 64 % 32 + 0xC0) =
      .pending ⟨value / 64, 1, 0x80, 0xBF⟩ := by
    simp only [first]
    rw [if_neg (by omega), if_neg (by omega), if_pos (by omega)]
    simp only [Nat.add_sub_cancel]
    rw [Nat.mod_eq_of_lt (by omega)]
  rw [scan_first (by omega) hfirst, scan_last (by omega) (by omega)]
  congr 3
  omega

/-- The bounds of the second byte keep out what shorter characters and no
characters would give. -/
theorem scan_three (hleast : 0x800 ≤ value) (hmost : value ≤ 0xFFFF)
    (hvalid : value < 0xD800 ∨ 0xDFFF < value) :
    scan none (UInt8.ofNat (value / 4096 % 16 + 0xE0) ::
      UInt8.ofNat (value / 64 % 64 + 0x80) ::
        UInt8.ofNat (value % 64 + 0x80) :: rest) =
      some (Char.ofNat value) :: scan none rest := by
  obtain ⟨low, high, hfirst, hlow, hhigh⟩ : ∃ low high,
      first (value / 4096 % 16 + 0xE0) = .pending ⟨value / 4096, 2, low, high⟩ ∧
        low ≤ value / 64 % 64 + 0x80 ∧ value / 64 % 64 + 0x80 ≤ high := by
    simp only [first]
    rw [if_neg (by omega), if_neg (by omega), if_neg (by omega)]
    by_cases hshort : value < 0x1000
    · rw [if_pos (by omega), Nat.div_eq_of_lt hshort]
      exact ⟨_, _, rfl, by omega, by omega⟩
    · rw [if_neg (by omega)]
      by_cases hgap : value / 4096 = 0xD
      · rw [if_pos (by omega), hgap]
        exact ⟨_, _, rfl, by omega, by omega⟩
      · rw [if_neg (by omega), if_pos (by omega), Nat.add_sub_cancel,
          Nat.mod_eq_of_lt (by omega)]
        exact ⟨_, _, rfl, by omega, by omega⟩
  rw [scan_first (by omega) hfirst, scan_further hlow hhigh,
    scan_last (by omega) (by omega)]
  congr 3
  omega

theorem scan_four (hleast : 0x10000 ≤ value) (hmost : value < 0x110000) :
    scan none (UInt8.ofNat (value / 262144 % 8 + 0xF0) ::
      UInt8.ofNat (value / 4096 % 64 + 0x80) ::
        UInt8.ofNat (value / 64 % 64 + 0x80) ::
          UInt8.ofNat (value % 64 + 0x80) :: rest) =
      some (Char.ofNat value) :: scan none rest := by
  obtain ⟨low, high, hfirst, hlow, hhigh⟩ : ∃ low high,
      first (value / 262144 % 8 + 0xF0) =
        .pending ⟨value / 262144, 3, low, high⟩ ∧
        low ≤ value / 4096 % 64 + 0x80 ∧ value / 4096 % 64 + 0x80 ≤ high := by
    simp only [first]
    rw [if_neg (by omega), if_neg (by omega), if_neg (by omega),
      if_neg (by omega), if_neg (by omega), if_neg (by omega)]
    by_cases hshort : value < 0x40000
    · rw [if_pos (by omega), Nat.div_eq_of_lt hshort]
      exact ⟨_, _, rfl, by omega, by omega⟩
    · rw [if_neg (by omega)]
      by_cases hlong : value / 262144 = 4
      · rw [if_neg (by omega), if_pos (by omega), hlong]
        exact ⟨_, _, rfl, by omega, by omega⟩
      · rw [if_pos (by omega), Nat.add_sub_cancel, Nat.mod_eq_of_lt (by omega)]
        exact ⟨_, _, rfl, by omega, by omega⟩
  rw [scan_first (by omega) hfirst, scan_further hlow hhigh,
    scan_further (by omega) (by omega), scan_last (by omega) (by omega)]
  congr 3
  omega

theorem scan_encodeChar (c : Char) (rest : List UInt8) :
    scan none (String.utf8EncodeChar c ++ rest) = some c :: scan none rest := by
  have hvalid : c.toNat.isValidChar := c.valid
  have hback : Char.ofNat c.toNat = c := Char.ofNat_toNat c
  have hbits : c.val.toNat = c.toNat := rfl
  simp only [String.utf8EncodeChar, hbits]
  generalize c.toNat = value at hvalid hback
  subst hback
  by_cases hone : value ≤ 0x7F
  · have hbyte : (UInt8.ofNat value).toNat = value := by
      rw [UInt8.toNat_ofNat']
      omega
    have hfirst : first value = .finished (Char.ofNat value) := by
      simp only [first]
      rw [if_pos (by omega)]
    simp [hone, scan, hbyte, hfirst]
  · rw [if_neg hone]
    by_cases htwo : value ≤ 0x7FF
    · rw [if_pos htwo]
      exact scan_two (by omega) htwo
    · rw [if_neg htwo]
      by_cases hthree : value ≤ 0xFFFF
      · rw [if_pos hthree]
        exact scan_three (by omega) hthree (by omega)
      · rw [if_neg hthree]
        exact scan_four (by omega) (by omega)

theorem scan_encode (text : List Char) :
    scan none (encode text) = text.map some := by
  induction text with
  | nil => rfl
  | cons c rest ih =>
      rw [encode, List.flatMap_cons, scan_encodeChar, List.map_cons]
      exact congrArg (some c :: ·) ih

end Utf8

theorem decodeLossy_encode (text : List Char) :
    decodeLossy (encode text) = text := by
  simp [decodeLossy, Utf8.scan_encode, Function.comp_def]

end DnsForwarder.Text
