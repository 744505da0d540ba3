import DnsForwarder.DomainName.Reverse
import DnsForwarder.Proofs.DomainName.Normal
import DnsForwarder.Proofs.Message.Pieces
import DnsForwarder.Proofs.Text.Numeral

/-! Reverse names. The reverse name of an address is a normal name, and the
address is the one that the name stands for. -/

namespace DnsForwarder.IpAddress

open DomainName

variable {address : IpAddress} {label : List Char}

section Labels

theorem nibbles_lt {octet : UInt8} {nibble : Nat}
    (hnibble : nibble ∈ nibbles octet) :
    nibble < 16 := by
  have hbyte := octet.toNat_lt
  simp only [nibbles, List.mem_cons, List.not_mem_nil, or_false] at hnibble
  omega

theorem octetsOfNibbles_flatMap (octets : Octets) :
    octetsOfNibbles (octets.flatMap nibbles) = octets.reverse := by
  induction octets with
  | nil => rfl
  | cons octet octets ih =>
      have hpair : octet.toNat / 16 * 16 + octet.toNat % 16 = octet.toNat :=
        Nat.div_add_mod' octet.toNat 16
      simp only [List.flatMap_cons, nibbles, List.cons_append, List.nil_append,
        octetsOfNibbles, ih, List.reverse_cons, hpair, UInt8.ofNat_toNat]

theorem exists_numeral_of_mem (hmem : label ∈ address.reverseLabels) :
    ∃ radix value, 1 < radix ∧ radix ≤ 16 ∧ label = Nat.toDigits radix value ∧
      label.length ≤ 3 := by
  cases address with
  | v4 address =>
      obtain ⟨octet, -, rfl⟩ := List.mem_map.mp hmem
      have hbyte := octet.toNat_lt
      exact ⟨10, octet.toNat, by decide, by decide, rfl,
        (Nat.length_toDigits_le_iff (by decide) (by decide)).mpr (by omega)⟩
  | v6 address =>
      obtain ⟨nibble, hnibble, rfl⟩ := List.mem_map.mp hmem
      obtain ⟨octet, -, hnibble⟩ := List.mem_flatMap.mp hnibble
      have hsmall := nibbles_lt hnibble
      exact ⟨16, nibble, by decide, by decide, rfl,
        (Nat.length_toDigits_le_iff (by decide) (by decide)).mpr (by omega)⟩

theorem length_reverseLabels (address : IpAddress) :
    address.reverseLabels ≠ [] ∧ address.reverseLabels.length ≤ 32 := by
  have hnibbles (octets : Octets) : (octets.flatMap nibbles).length =
      octets.length * 2 := by
    simp [List.length_flatMap, nibbles]
  cases address with
  | v4 address => simp [reverseLabels, Ipv4.octets]
  | v6 address =>
      have hlength : (reverseLabels (.v6 address)).length = 32 := by
        rw [reverseLabels, List.length_map, hnibbles, List.length_reverse,
          Message.length_octets]
      exact ⟨List.ne_nil_of_length_pos (by omega), Nat.le_of_eq hlength⟩

theorem split_reverseLabels (address : IpAddress) :
    Text.split '.' (Text.join ['.'] address.reverseLabels) =
      address.reverseLabels := by
  refine Text.split_join (length_reverseLabels address).1 fun label hlabel => ?_
  obtain ⟨radix, value, hradix, hlimit, rfl, -⟩ := exists_numeral_of_mem hlabel
  have hdot : ∀ c ∈ Nat.toDigits radix value, c ≠ '.' :=
    Text.forall_mem_toDigits hradix hlimit (by decide)
  exact fun hmem => hdot '.' hmem rfl

end Labels

section Normal

theorem reverseZone_cases (address : IpAddress) :
    address.reverseZone = ".in-addr.arpa".toList ∨ address.reverseZone =
      ".ip6.arpa".toList := by
  cases address with
  | v4 _ => exact .inl rfl
  | v6 _ => exact .inr rfl

theorem all_bareReverseName {P : Char → Bool}
    (hdigits : ∀ digit < 16, P (Nat.digitChar digit) = true)
    (hzone : ".in-addr.arpa".toList.all P) (hzone6 : ".ip6.arpa".toList.all P) :
    ∀ c ∈ address.bareReverseName, P c = true := by
  have hdot : P '.' = true := List.all_eq_true.mp hzone '.' (by decide)
  rw [bareReverseName, List.forall_mem_append]
  constructor
  · refine Text.forall_mem_join (List.forall_mem_singleton.mpr hdot) fun label
      hlabel => ?_
    obtain ⟨radix, value, hradix, hlimit, rfl, -⟩ :=
      exists_numeral_of_mem hlabel
    exact Text.forall_mem_toDigits hradix hlimit hdigits
  · rcases reverseZone_cases address with hsame | hsame <;> rw [hsame]
    · exact List.all_eq_true.mp hzone
    · exact List.all_eq_true.mp hzone6

theorem labelFits_of_mem (hmem : label ∈ address.reverseLabels) :
    LabelFits label := by
  obtain ⟨radix, value, hradix, hlimit, rfl, hlength⟩ :=
    exists_numeral_of_mem hmem
  have hdigits : ∀ c ∈ Nat.toDigits radix value,
      c.utf8Size = 1 ∧ Text.isBlank c = false ∧ Text.isControl c = false :=
    Text.forall_mem_toDigits hradix hlimit (by decide)
  refine ⟨Text.toDigits_ne_nil radix value, ?_, fun c hc => (hdigits c hc).2⟩
  rw [Text.byteLength_eq_length fun c hc => (hdigits c hc).1]
  exact Nat.le_trans hlength (by decide)

theorem bare_bareReverseName (address : IpAddress) :
    Bare address.bareReverseName where
  short := by
    have hsingle : ∀ c ∈ address.bareReverseName, c.utf8Size = 1 := by
      simpa using all_bareReverseName (P := (·.utf8Size == 1))
        (by decide) (by decide) (by decide)
    have hlabels : (Text.join ['.'] address.reverseLabels).length ≤
        address.reverseLabels.length * 4 :=
      Text.length_join_le fun label hlabel =>
        have ⟨_, _, _, _, _, hlength⟩ := exists_numeral_of_mem hlabel
        hlength
    have hcount := (length_reverseLabels address).2
    have hzone : address.reverseZone.length ≤ 13 := by
      rcases reverseZone_cases address with hzone | hzone <;>
        rw [hzone] <;> decide
    rw [Text.byteLength_eq_length hsingle, bareReverseName, List.length_append]
    exact Nat.le_trans
      (Nat.add_le_add
        (Nat.le_trans hlabels (Nat.mul_le_mul_right 4 hcount)) hzone)
      (by decide)
  labels := by
    obtain ⟨zone, hzone, hfits⟩ : ∃ zone, address.reverseZone = '.' :: zone ∧
        ∀ label ∈ Text.split '.' zone, labelFault? [] label = none := by
      cases address with
      | v4 _ => exact ⟨"in-addr.arpa".toList, rfl, by decide⟩
      | v6 _ => exact ⟨"ip6.arpa".toList, rfl, by decide⟩
    rw [bareReverseName, hzone, Text.split_append_separator,
      split_reverseLabels, List.forall_mem_append]
    exact ⟨fun _ => labelFits_of_mem, fun label hlabel =>
      labelFault?_eq_none_iff.mp (hfits label hlabel)⟩

theorem fold_bareReverseName (address : IpAddress) :
    Text.fold address.bareReverseName = address.bareReverseName :=
  have hlower : ∀ c ∈ address.bareReverseName, c.toLower = c := by
    simpa using all_bareReverseName (P := fun c => c.toLower == c)
      (by decide) (by decide) (by decide)
  (List.map_congr_left hlower).trans (List.map_id _)

theorem isNormal_bareReverseName (address : IpAddress) :
    IsNormal address.bareReverseName :=
  .inr ⟨bare_bareReverseName address, fold_bareReverseName address⟩

theorem qualified_bareReverseName (address : IpAddress) :
    qualified address.bareReverseName = address.reverseName :=
  (bare_bareReverseName address).qualified

end Normal

theorem mapM_map_eq_some {α β γ : Type} {read : β → Option γ} {write : α → β}
    {view : α → γ} {items : List α}
    (hread : ∀ item ∈ items, read (write item) = some (view item)) :
    (items.map write).mapM read = some (items.map view) := by
  induction items with
  | nil => rfl
  | cons item items ih =>
      obtain ⟨hfirst, hothers⟩ := List.forall_mem_cons.mp hread
      simp [hfirst, ih hothers]

/-- The zones have one ending in common, but neither is the ending of the
other. -/
theorem dropEnding?_other (front : List Char) :
    Text.dropEnding? ".in-addr.arpa".toList (front ++ ".ip6.arpa".toList) =
      none := by
  rw [Option.eq_none_iff_forall_ne_some]
  intro rest hrest
  have hending : ".in-addr.arpa".toList = ".in-".toList ++ "addr.arpa".toList :=
    by decide
  have htext := Text.dropEnding?_eq_some_iff.mp hrest
  rw [hending, ← List.append_assoc] at htext
  exact absurd (List.append_inj_right' htext (by decide)) (by decide)

theorem ofReverseName?_bareReverseName (address : IpAddress) :
    ofReverseName? address.bareReverseName = some address := by
  have hsplit := split_reverseLabels address
  cases address with
  | v4 address =>
      have hname : bareReverseName (.v4 address) =
          Text.join ['.'] (reverseLabels (.v4 address)) ++
          ".in-addr.arpa".toList := rfl
      have hoctets : (reverseLabels (.v4 address)).mapM (Text.unsigned? 255) =
          some (address.octets.reverse.map UInt8.toNat) := by
        refine mapM_map_eq_some fun octet _ => Text.unsigned?_decimal ?_
        have hbyte := octet.toNat_lt
        omega
      simp only [ofReverseName?, hname, Text.dropEnding?_append, v4OfLabels?,
        hsplit, hoctets]
      simp [Ipv4.octets, Ipv4.ofOctets?]
  | v6 address =>
      have hname : bareReverseName (.v6 address) =
          Text.join ['.'] (reverseLabels (.v6 address)) ++ ".ip6.arpa".toList :=
          rfl
      -- The zone of the other family is tried first.
      have hother :=
        dropEnding?_other (Text.join ['.'] (reverseLabels (.v6 address)))
      have hdigits : (reverseLabels (.v6 address)).mapM nibble? =
          some (address.octets.reverse.flatMap nibbles) := by
        rw [← List.map_id (address.octets.reverse.flatMap nibbles)]
        refine mapM_map_eq_some fun nibble hmem => ?_
        obtain ⟨octet, -, hnibble⟩ := List.mem_flatMap.mp hmem
        have hsmall := nibbles_lt hnibble
        rw [Text.hexadecimal, Nat.toDigits_of_lt_base hsmall]
        exact Text.digit?_digitChar (by decide) hsmall
      have hlength : (address.octets.reverse.flatMap nibbles).length = 32 := by
        simp [List.length_flatMap, nibbles, Message.length_octets]
      simp only [ofReverseName?, hname, hother, Text.dropEnding?_append,
        v6OfLabels?, hsplit, hdigits]
      simp [hlength, octetsOfNibbles_flatMap, Message.ofOctets?_octets]

end DnsForwarder.IpAddress
