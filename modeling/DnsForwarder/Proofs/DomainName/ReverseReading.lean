import DnsForwarder.Proofs.DomainName.Reverse
import DnsForwarder.Proofs.Message.Replies
import DnsForwarder.Proofs.Text.Padding
import Mathlib.Data.List.Forall2

/-! Names that are read as reverse names. A normal name stands for an IPv6
address only where it is the reverse name of the address; for an IPv4 address,
numbers in it may also have zeros or a plus sign in front. -/

namespace DnsForwarder

theorem mapM_eq_some_iff {α β : Type} {read : α → Option β} {items : List α}
    {results : List β} :
    items.mapM read = some results ↔
      List.Forall₂ (fun result item => read item = some result)
        results items := by
  induction items generalizing results with
  | nil => simp [eq_comm]
  | cons item items ih =>
      simp only [List.mapM_cons, Option.bind_eq_bind, Option.bind_eq_some_iff,
        Option.pure_def, Option.some.injEq, List.forall₂_cons_right_iff, ih]
      constructor
      · rintro ⟨result, hresult, results, hresults, rfl⟩
        exact ⟨result, results, hresult, hresults, rfl⟩
      · rintro ⟨result, results, hresult, hresults, rfl⟩
        exact ⟨result, hresult, results, hresults, rfl⟩

theorem wordBytes_wordOfBytes (high low : UInt8) :
    wordBytes (wordOfBytes high low) = [high, low] := by
  have hhigh := high.toNat_lt
  have hlow := low.toNat_lt
  have hword : (wordOfBytes high low).toNat = high.toNat * 256 + low.toNat := by
    rw [wordOfBytes, UInt16.toNat_ofNat']
    omega
  have hfront : UInt8.ofNat ((high.toNat * 256 + low.toNat) / 256) = high := by
    apply UInt8.toNat_inj.mp
    rw [UInt8.toNat_ofNat']
    omega
  have hlast : UInt8.ofNat (high.toNat * 256 + low.toNat) = low := by
    apply UInt8.toNat_inj.mp
    rw [UInt8.toNat_ofNat']
    omega
  rw [wordBytes, hword, hfront, hlast]

namespace Ipv4

theorem ofOctets?_eq_some_iff {octets : Octets} {address : Ipv4} :
    ofOctets? octets = some address ↔ octets = address.octets := by
  constructor
  · intro hread
    unfold ofOctets? at hread
    split at hread
    next => exact Option.some.inj hread ▸ rfl
    next => cases hread
  · rintro rfl
    rfl

end Ipv4

namespace Ipv6

theorem flatMap_groupsOfOctets (octets : Octets)
    (heven : octets.length % 2 = 0) :
    (groupsOfOctets octets).flatMap wordBytes = octets := by
  induction octets using groupsOfOctets.induct with
  | case1 high low rest ih =>
      have hrest : rest.length % 2 = 0 := by
        rw [List.length_cons, List.length_cons] at heven
        omega
      rw [groupsOfOctets, List.flatMap_cons, wordBytes_wordOfBytes, ih hrest]
      rfl
  | case2 octets hshort =>
      rcases octets with _ | ⟨high, _ | ⟨low, rest⟩⟩
      · rfl
      · cases heven
      · exact absurd rfl (hshort high low rest)

theorem ofOctets?_eq_some_iff {octets : Octets} {address : Ipv6} :
    ofOctets? octets = some address ↔ octets = address.octets := by
  constructor
  · intro hread
    unfold ofOctets? ofGroups? at hread
    split_ifs at hread with hlength hgroups
    cases hread
    exact (flatMap_groupsOfOctets octets (by rw [hlength])).symm
  · rintro rfl
    exact Message.ofOctets?_octets address

end Ipv6

namespace IpAddress

open DomainName

variable {address : IpAddress} {name label : List Char}
  {labels : List (List Char)}

section Labels

theorem flatMap_octetsOfNibbles (digits : List Nat)
    (hsmall : ∀ digit ∈ digits, digit < 16) (heven : digits.length % 2 = 0) :
    (octetsOfNibbles digits).reverse.flatMap nibbles = digits := by
  induction digits using octetsOfNibbles.induct with
  | case1 low high rest ih =>
      obtain ⟨hlow, hhigh, hothers⟩ : low < 16 ∧ high < 16 ∧
        ∀ digit ∈ rest, digit < 16 := by
        simpa using hsmall
      have hrest : rest.length % 2 = 0 := by
        rw [List.length_cons, List.length_cons] at heven
        omega
      have hbyte : (UInt8.ofNat (high * 16 + low)).toNat = high * 16 + low := by
        rw [UInt8.toNat_ofNat']
        omega
      have hpair : nibbles (UInt8.ofNat (high * 16 + low)) = [low, high] := by
        have hlast : (high * 16 + low) % 16 = low := by omega
        have hfront : (high * 16 + low) / 16 = high := by omega
        rw [nibbles, hbyte, hlast, hfront]
      rw [octetsOfNibbles, List.reverse_append, List.reverse_singleton,
        List.singleton_append, List.flatMap_cons, hpair, ih hothers hrest]
      rfl
  | case2 digits hshort =>
      rcases digits with _ | ⟨low, _ | ⟨high, rest⟩⟩
      · rfl
      · cases heven
      · exact absurd rfl (hshort low high rest)

theorem nibble?_eq_some {nibble : Nat} (hlower : Text.fold label = label)
    (hread : nibble? label = some nibble) :
    nibble < 16 ∧ label = Text.hexadecimal nibble := by
  unfold nibble? at hread
  split at hread
  next c =>
    obtain ⟨hsmall, hdigit⟩ := Text.toLower_of_digit? (by decide) hread
    have hsame : c.toLower = c := (List.cons.inj hlower).1
    refine ⟨hsmall, ?_⟩
    rw [Text.hexadecimal, Nat.toDigits_of_lt_base hsmall, ← hdigit, hsame]
  next => cases hread

theorem v4OfLabels?_eq_some_iff :
    v4OfLabels? labels = some address ↔
      ∃ ipv4, address = .v4 ipv4 ∧
        List.Forall₂ Text.Pads (reverseLabels (.v4 ipv4)) labels := by
  simp only [v4OfLabels?, Option.bind_eq_bind, Option.bind_eq_some_iff,
    Option.pure_def,
    Option.some.injEq, mapM_eq_some_iff, Text.unsigned?_eq_some_iff,
    List.forall₂_and_left]
  constructor
  · rintro ⟨numbers, ⟨hbytes, hlabels⟩, ipv4, hipv4, rfl⟩
    refine ⟨ipv4, rfl, ?_⟩
    have hnumbers : ipv4.octets.reverse.map UInt8.toNat = numbers := by
      rw [← Ipv4.ofOctets?_eq_some_iff.mp hipv4, ← List.map_reverse,
        List.reverse_reverse, List.map_map]
      refine (List.map_congr_left fun number hnumber => ?_).trans
        (List.map_id _)
      have hbyte := hbytes number hnumber
      rw [Function.comp_apply, UInt8.toNat_ofNat', id_eq]
      omega
    rw [← hnumbers, List.forall₂_map_left_iff] at hlabels
    rwa [reverseLabels, List.forall₂_map_left_iff]
  · rintro ⟨ipv4, rfl, hlabels⟩
    rw [reverseLabels, List.forall₂_map_left_iff] at hlabels
    refine ⟨ipv4.octets.reverse.map UInt8.toNat, ⟨?_, ?_⟩, ipv4, ?_, rfl⟩
    · intro number hnumber
      obtain ⟨octet, -, rfl⟩ := List.mem_map.mp hnumber
      have hbyte := octet.toNat_lt
      omega
    · rwa [List.forall₂_map_left_iff]
    · simp [Ipv4.octets, Ipv4.ofOctets?]

theorem eq_map_hexadecimal {digits : List Nat}
    (hlower : ∀ label ∈ labels, Text.fold label = label)
    (hdigits : labels.mapM nibble? = some digits) :
    (∀ digit ∈ digits, digit < 16) ∧ labels = digits.map Text.hexadecimal := by
  rw [mapM_eq_some_iff] at hdigits
  induction hdigits with
  | nil => exact ⟨nofun, rfl⟩
  | cons hfirst _ ih =>
      obtain ⟨hlabel, hothers⟩ := List.forall_mem_cons.mp hlower
      obtain ⟨hsmall, rfl⟩ := nibble?_eq_some hlabel hfirst
      obtain ⟨hrest, rfl⟩ := ih hothers
      exact ⟨List.forall_mem_cons.mpr ⟨hsmall, hrest⟩, rfl⟩

theorem v6OfLabels?_eq_some (hlower : ∀ label ∈ labels, Text.fold label = label)
    (hread : v6OfLabels? labels = some address) :
    ∃ ipv6, address = .v6 ipv6 ∧ reverseLabels (.v6 ipv6) = labels := by
  unfold v6OfLabels? at hread
  obtain ⟨digits, hdigits, hread⟩ := Option.bind_eq_some_iff.mp hread
  split_ifs at hread with hlength
  · cases hread
  · obtain ⟨ipv6, hipv6, haddress⟩ := Option.bind_eq_some_iff.mp hread
    cases haddress
    obtain ⟨hsmall, rfl⟩ := eq_map_hexadecimal hlower hdigits
    refine ⟨ipv6, rfl, ?_⟩
    rw [reverseLabels, ← Ipv6.ofOctets?_eq_some_iff.mp hipv6,
      flatMap_octetsOfNibbles digits hsmall (by omega)]

end Labels

/-- How a label may be written that is read as a certain label of a reverse
name. -/
def Accepts : IpAddress → List Char → List Char → Prop
  | .v4 _, exact, label => Text.Pads exact label
  | .v6 _, exact, label => exact = label

theorem ne_nil_of_mem_reverseLabels (hmem : label ∈ address.reverseLabels) :
    label ≠ [] := by
  obtain ⟨radix, value, -, -, rfl, -⟩ := exists_numeral_of_mem hmem
  exact Text.toDigits_ne_nil radix value

theorem not_padded_of_mem_reverseLabels (hmem : label ∈ address.reverseLabels) :
    ¬Text.Padded label := by
  obtain ⟨radix, value, hradix, hlimit, rfl, -⟩ := exists_numeral_of_mem hmem
  exact Text.not_padded_toDigits hradix hlimit value

theorem split_accepted
    (hlabels : List.Forall₂ address.Accepts address.reverseLabels labels) :
    Text.split '.' (Text.join ['.'] labels) = labels := by
  have hcount := hlabels.length_eq
  have hsome := List.length_pos_of_ne_nil (length_reverseLabels address).1
  refine Text.split_join (List.ne_nil_of_length_pos (hcount ▸ hsome)) fun label
    hlabel => ?_
  obtain ⟨exact, hexact, haccepts⟩ := Message.forall₂_mem_right hlabels hlabel
  obtain ⟨radix, value, hradix, hlimit, rfl, -⟩ := exists_numeral_of_mem hexact
  have hdigits : ∀ c ∈ Nat.toDigits radix value, c ≠ '.' :=
    Text.forall_mem_toDigits hradix hlimit (by decide)
  have hfree : ∀ c ∈ label, c ≠ '.' := by
    cases address with
    | v4 ipv4 =>
        exact Text.Pads.forall_mem haccepts (by decide) (by decide) hdigits
    | v6 ipv6 => exact haccepts ▸ hdigits
  exact fun hdot => hfree '.' hdot rfl

/-- The names that are read as the reverse name of an address. -/
theorem ofReverseName?_eq_some_iff (hlower : Text.fold name = name) :
    ofReverseName? name = some address ↔
      ∃ labels, List.Forall₂ address.Accepts address.reverseLabels labels ∧
        name = Text.join ['.'] labels ++ address.reverseZone := by
  constructor
  · intro hread
    unfold ofReverseName? at hread
    split at hread
    next front hfront =>
      obtain ⟨ipv4, rfl, hlabels⟩ := v4OfLabels?_eq_some_iff.mp hread
      refine ⟨Text.split '.' front, hlabels, ?_⟩
      rw [Text.join_split]
      exact (Text.dropEnding?_eq_some_iff.mp hfront).symm
    next =>
      split at hread
      next front hfront =>
        rw [← Text.dropEnding?_eq_some_iff.mp hfront, Text.fold_append]
          at hlower
        have hfold := List.append_inj_left' hlower (Text.length_fold _)
        have hlabels :
            ∀ label ∈ Text.split '.' front, Text.fold label = label := by
          rw [← hfold, Text.split_fold, List.forall_mem_map]
          exact fun label _ => Text.fold_fold label
        obtain ⟨ipv6, rfl, hsame⟩ := v6OfLabels?_eq_some hlabels hread
        refine ⟨Text.split '.' front, hsame ▸ List.forall₂_same.mpr fun _ _ =>
          rfl, ?_⟩
        rw [Text.join_split]
        exact (Text.dropEnding?_eq_some_iff.mp hfront).symm
      next => cases hread
  · rintro ⟨labels, hlabels, rfl⟩
    have hsplit := split_accepted hlabels
    cases address with
    | v4 ipv4 =>
        have hdrop : Text.dropEnding? ".in-addr.arpa".toList
            (Text.join ['.'] labels ++ reverseZone (.v4 ipv4)) =
            some (Text.join ['.'] labels) :=
          Text.dropEnding?_append _ _
        simp only [ofReverseName?, hdrop, hsplit]
        exact v4OfLabels?_eq_some_iff.mpr ⟨ipv4, rfl, hlabels⟩
    | v6 ipv6 =>
        have hsame : reverseLabels (.v6 ipv6) = labels := by
          rwa [← List.forall₂_eq_eq_eq]
        rw [← hsame, ← bareReverseName, ofReverseName?_bareReverseName]

theorem eq_reverseLabels_iff
    (hlabels : List.Forall₂ address.Accepts address.reverseLabels labels) :
    address.reverseLabels = labels ↔ ∀ label ∈ labels, ¬Text.Padded label := by
  constructor
  · rintro rfl
    exact fun label => not_padded_of_mem_reverseLabels
  · intro hplain
    have hexact : ∀ exact ∈ address.reverseLabels, exact ≠ [] := fun exact =>
      ne_nil_of_mem_reverseLabels
    rw [← List.forall₂_eq_eq_eq]
    generalize address.reverseLabels = exacts at hlabels hexact
    induction hlabels with
    | nil => exact .nil
    | cons hfirst _ ih =>
        obtain ⟨hlabel, hothers⟩ := List.forall_mem_cons.mp hplain
        obtain ⟨hsome, hrest⟩ := List.forall_mem_cons.mp hexact
        refine .cons ?_ (ih hothers hrest)
        cases address with
        | v4 ipv4 => exact (Text.Pads.eq_of_not_padded hfirst hsome hlabel).symm
        | v6 ipv6 => exact hfirst

theorem exists_zone (address : IpAddress) :
    ∃ zone, address.reverseZone = '.' :: zone ∧
    ∀ label ∈ Text.split '.' zone, ¬Text.Padded label := by
  cases address with
  | v4 _ => exact ⟨"in-addr.arpa".toList, rfl, by decide⟩
  | v6 _ => exact ⟨"ip6.arpa".toList, rfl, by decide⟩

/-- A name is a reverse name just when it is read as one and none of its labels
has more in front than a number needs. -/
theorem reverseName_eq_iff (hlower : Text.fold name = name) :
    address.reverseName = name ++ ['.'] ↔
      ofReverseName? name = some address ∧ ∀ label ∈ Text.split '.' name,
        ¬Text.Padded label := by
  obtain ⟨zone, hzone, hplain⟩ := exists_zone address
  have hsplit (front : List Char) :
      Text.split '.' (front ++ address.reverseZone) =
        Text.split '.' front ++ Text.split '.' zone := by
    rw [hzone, Text.split_append_separator]
  rw [reverseName, List.append_left_inj]
  constructor
  · rintro rfl
    refine ⟨ofReverseName?_bareReverseName address, ?_⟩
    rw [bareReverseName, hsplit, split_reverseLabels, List.forall_mem_append]
    exact ⟨fun label => not_padded_of_mem_reverseLabels, hplain⟩
  · rintro ⟨hread, hlabels⟩
    obtain ⟨labels, haccepts, rfl⟩ :=
      (ofReverseName?_eq_some_iff hlower).mp hread
    rw [hsplit, split_accepted haccepts, List.forall_mem_append] at hlabels
    rw [bareReverseName, (eq_reverseLabels_iff haccepts).mpr hlabels.1]

end IpAddress

end DnsForwarder
