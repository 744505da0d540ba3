import DnsForwarder.Proofs.Address.Grammar
import DnsForwarder.Proofs.Message.Pieces

/-! Texts of addresses. The text of an address is one that the grammar has for
it, and so it is read as the address. No text that ends with a dot is read as an
address, none that has other characters than hexadecimal digits, colons and
dots, and the case of letters does not matter. -/

namespace DnsForwarder

namespace Address

variable {text front : List Char} {dotted : Bool} {groups : List UInt16}

section Characters

def isCharacter (c : Char) : Bool :=
  (Text.digit? 16 c).isSome || c == ':' || c == '.'

theorem not_blank_of_isCharacter {c : Char} (hc : isCharacter c = true) :
    Text.isBlank c = false := by
  simp only [isCharacter, Bool.or_eq_true, beq_iff_eq] at hc
  rcases hc with (hsome | rfl) | rfl
  · obtain ⟨digit, hdigit⟩ := Option.isSome_iff_exists.mp hsome
    obtain ⟨hsmall, hlower⟩ := Text.toLower_of_digit? (by decide) hdigit
    have hall : ∀ digit < 16, Text.isBlank (Nat.digitChar digit) = false :=
      by decide
    rw [← Text.isBlank_toLower, hlower, hall digit hsmall]
  · rfl
  · rfl

structure Undotted (text : List Char) : Prop where
  characters : ∀ c ∈ text, isCharacter c = true
  last : text.getLast? ≠ some '.'

theorem undotted_nil : Undotted [] :=
  ⟨nofun, nofun⟩

theorem undotted_colon : Undotted [':'] :=
  ⟨List.forall_mem_singleton.mpr rfl, by decide⟩

theorem Undotted.append (hfront : Undotted front) (htext : Undotted text) :
    Undotted (front ++ text) where
  characters := List.forall_mem_append.mpr ⟨hfront.characters, htext.characters⟩
  last := by
    rw [List.getLast?_append]
    cases hlast : text.getLast? with
    | none => exact hfront.last
    | some c =>
        have hdot := htext.last
        rw [hlast] at hdot
        exact hdot

theorem IsGroup.undotted {group : UInt16} (hgroup : IsGroup group text) :
    Undotted text where
  characters := fun c hc => by simp [isCharacter, hgroup.digits.2 c hc]
  last := fun hdot =>
    absurd (hgroup.digits.2 '.' (List.mem_of_getLast? hdot)) (by decide)

theorem undotted_ipv4 (address : Ipv4) : Undotted address.text where
  characters := by
    refine Text.forall_mem_join (List.forall_mem_singleton.mpr rfl) fun piece
      hpiece => ?_
    obtain ⟨octet, -, rfl⟩ := List.mem_map.mp hpiece
    exact Text.forall_mem_toDigits (by decide) (by decide) (by decide)
  last := by
    have htext : address.text =
        (Text.decimal address.first.toNat ++ '.' ::
          (Text.decimal address.second.toNat ++
          '.' :: (Text.decimal address.third.toNat ++ ['.']))) ++
            Text.decimal address.fourth.toNat := by
      simp [Ipv4.text, Ipv4.octets, Text.join, List.intercalate]
    have hnumber : Text.decimal address.fourth.toNat ≠ [] :=
      Text.toDigits_ne_nil 10 _
    rw [htext, List.getLast?_append_of_ne_nil _ hnumber]
    intro hdot
    exact absurd
      (Text.isSome_of_mem_toDigits (by decide) (by decide)
        (List.mem_of_getLast? hdot)) (by decide)

theorem IsRow.undotted (hrow : IsRow dotted groups text) : Undotted text := by
  induction hrow with
  | group hgroup => exact hgroup.undotted
  | dotted address => exact undotted_ipv4 address
  | cons hgroup _ ih => exact hgroup.undotted.append (undotted_colon.append ih)

theorem IsPart.undotted (hpart : IsPart dotted groups text) :
    Undotted text := by
  cases hpart with
  | nothing => exact undotted_nil
  | row hrow => exact hrow.undotted

theorem undotted_of_isText {address : IpAddress}
    (haddress : address.IsText text) :
    Undotted text := by
  rcases haddress with address | ⟨hrow⟩ | ⟨_, hfront, hback⟩
  · exact undotted_ipv4 address
  · exact hrow.undotted
  · exact hfront.undotted.append
      (undotted_colon.append (undotted_colon.append hback.undotted))

theorem isCharacter_of_parse? {address : IpAddress}
    (hparse : IpAddress.parse? text = some address) :
    ∀ c ∈ text, isCharacter c = true :=
  (undotted_of_isText (parse?_eq_some_iff.mp hparse)).characters

theorem parse?_append_dot (text : List Char) :
    IpAddress.parse? (text ++ ['.']) = none := by
  by_contra hsome
  obtain ⟨address, hparse⟩ := Option.ne_none_iff_exists'.mp hsome
  exact (undotted_of_isText (parse?_eq_some_iff.mp hparse)).last (by simp)

end Characters

section Case

theorem eq_of_fold_eq {text other : List Char}
    (hcaseless : ∀ c ∈ text, ∀ upper : Char, upper.toLower =
      c.toLower → upper = c)
    (halike : Text.fold other = Text.fold text) : other = text := by
  induction text generalizing other with
  | nil => exact List.map_eq_nil_iff.mp halike
  | cons c text ih =>
      obtain ⟨hfirst, hrest⟩ := List.forall_mem_cons.mp hcaseless
      obtain ⟨upper, others, rfl, hupper, hothers⟩ :=
        List.map_eq_cons_iff.mp halike
      rw [hfirst upper hupper, ih hrest hothers]

theorem eq_ipv4_of_fold_eq {address : Ipv4}
    (halike : Text.fold text = Text.fold address.text) :
    text = address.text := by
  have hdigits : ∀ upper : Char, ∀ digit < 10, upper.toLower =
      (Nat.digitChar digit).toLower → upper = Nat.digitChar digit :=
    Text.toLower_induction (fun c hsame digit hdigit halike => by
      rw [← hsame, halike]
      exact (by decide : ∀ digit < 10, (Nat.digitChar digit).toLower =
          Nat.digitChar digit) digit hdigit) (by decide)
  refine eq_of_fold_eq
    (Text.forall_mem_join ?_ fun piece hpiece c hc upper halike => ?_) halike
  · rintro c hc upper halike
    cases List.mem_singleton.mp hc
    exact (Text.toLower_eq_dot_iff upper).mp halike
  · obtain ⟨octet, -, rfl⟩ := List.mem_map.mp hpiece
    obtain ⟨digit, hdigit, rfl⟩ := Text.exists_digit_of_mem (by decide) hc
    exact hdigits upper digit hdigit halike

theorem exists_of_fold_eq_colon {behind : List Char}
    (halike : Text.fold text = Text.fold (front ++ ':' :: behind)) :
    ∃ first second, text = first ++ ':' :: second ∧
      Text.fold first = Text.fold front ∧
      Text.fold second = Text.fold behind := by
  have hcolon : ∀ c : Char, c.toLower = ':' → c = ':' :=
    Text.toLower_induction (fun _ hsame hc => hsame ▸ hc) (by decide)
  rw [Text.fold_append] at halike
  obtain ⟨first, rest, rfl, hfirst, hrest⟩ := List.map_eq_append_iff.mp halike
  obtain ⟨c, second, rfl, hc, hsecond⟩ := List.map_eq_cons_iff.mp hrest
  exact ⟨first, second, hcolon c hc ▸ rfl, hfirst, hsecond⟩

variable {other : List Char}

theorem IsGroup.alike {group : UInt16} (hgroup : IsGroup group text)
    (halike : Text.fold other = Text.fold text) : IsGroup group other where
  numeral := by
    rw [Text.IsNumeral, halike]
    exact hgroup.numeral
  short := by
    rw [← Text.length_fold, halike, Text.length_fold]
    exact hgroup.short

theorem IsRow.alike (hrow : IsRow dotted groups text)
    (halike : Text.fold other = Text.fold text) :
    IsRow dotted groups other := by
  induction hrow generalizing other with
  | group hgroup => exact .group (hgroup.alike halike)
  | dotted address =>
      rw [eq_ipv4_of_fold_eq halike]
      exact .dotted address
  | cons hgroup _ ih =>
      obtain ⟨first, second, rfl, hfirst, hsecond⟩ :=
        exists_of_fold_eq_colon halike
      exact .cons (hgroup.alike hfirst) (ih hsecond)

theorem IsPart.alike (hpart : IsPart dotted groups text)
    (halike : Text.fold other = Text.fold text) :
    IsPart dotted groups other := by
  cases hpart with
  | nothing =>
      rw [List.map_eq_nil_iff.mp halike]
      exact .nothing
  | row hrow => exact .row (hrow.alike halike)

theorem alike_of_isText {address : IpAddress} (haddress : address.IsText text)
    (halike : Text.fold other = Text.fold text) : address.IsText other := by
  rcases haddress with address | ⟨hrow⟩ | ⟨zeros, hfront, hback, hgroups⟩
  · rw [eq_ipv4_of_fold_eq halike]
    exact .v4 address
  · exact .v6 (.whole (hrow.alike halike))
  · obtain ⟨first, rest, rfl, hfirst, hrest⟩ := exists_of_fold_eq_colon halike
    obtain ⟨between, second, rfl, hbetween, hsecond⟩ :
        ∃ between second, rest = between ++ ':' :: second ∧
          Text.fold between = Text.fold [] ∧
          Text.fold second = Text.fold _ := exists_of_fold_eq_colon hrest
    obtain rfl : between = [] := List.map_eq_nil_iff.mp hbetween
    exact .v6 (.gap zeros (hfront.alike hfirst) (hback.alike hsecond) hgroups)

theorem parse?_fold (text : List Char) :
    IpAddress.parse? (Text.fold text) = IpAddress.parse? text := by
  ext address
  rw [parse?_eq_some_iff, parse?_eq_some_iff]
  constructor
  · exact fun haddress => alike_of_isText haddress (Text.fold_fold text).symm
  · exact fun haddress => alike_of_isText haddress (Text.fold_fold text)

end Case

section Canonical

theorem isGroup_hexadecimal (group : UInt16) :
    IsGroup group (Text.hexadecimal group.toNat) where
  numeral := by
    have hlower : ∀ c ∈ Text.hexadecimal group.toNat, c.toLower = c :=
      Text.forall_mem_toDigits (by decide) (by decide) (by decide)
    exact ⟨0, (List.map_congr_left hlower).trans (List.map_id _)⟩
  short := by
    have hword := group.toNat_lt
    exact (Nat.length_toDigits_le_iff (by decide) (by decide)).mpr (by omega)

theorem isRow_groupsText (group : UInt16) (groups : List UInt16) :
    IsRow false (group :: groups) (Ipv6.groupsText (group :: groups)) := by
  induction groups generalizing group with
  | nil =>
      have htext : Ipv6.groupsText [group] = Text.hexadecimal group.toNat := by
        simp [Ipv6.groupsText, Text.join]
      exact htext ▸ .group (isGroup_hexadecimal group)
  | cons next groups ih =>
      have htext : Ipv6.groupsText (group :: next :: groups) =
          Text.hexadecimal group.toNat ++ ':' :: Ipv6.groupsText
          (next :: groups) := by
        simp [Ipv6.groupsText, Text.join, List.intercalate_cons_cons]
      exact htext ▸ .cons (isGroup_hexadecimal group) (ih next)

theorem isPart_groupsText :
    (groups : List UInt16) → IsPart false groups (Ipv6.groupsText groups)
  | [] => .nothing
  | group :: groups => .row (isRow_groupsText group groups)

theorem take_zeroRun (groups : List UInt16) :
    groups.take (Ipv6.zeroRun groups) =
      List.replicate (Ipv6.zeroRun groups) 0 := by
  induction groups with
  | nil => rfl
  | cons group groups ih =>
      by_cases hzero : group = 0
      · simpa [Ipv6.zeroRun, hzero, List.replicate_succ] using ih
      · simp [Ipv6.zeroRun, hzero]

theorem zeroRun_le (groups : List UInt16) :
    Ipv6.zeroRun groups ≤ groups.length :=
  List.IsPrefix.length_le (List.takeWhile_prefix _)

theorem longestZeroRun_zero (groups : List UInt16) :
    let run := Ipv6.longestZeroRun groups
    run.1 + run.2 ≤ groups.length ∧
      (groups.drop run.1).take run.2 = List.replicate run.2 0 := by
  refine List.foldlRecOn
    (motive := fun run : Nat × Nat => run.1 + run.2 ≤ groups.length ∧
      (groups.drop run.1).take run.2 = List.replicate run.2 0)
    (List.range groups.length) _ ?_ ?_
  · simp
  · intro best hbest start hstart
    simp only
    split
    next =>
      have hlength := zeroRun_le (groups.drop start)
      rw [List.length_drop] at hlength
      have hbefore := List.mem_range.mp hstart
      exact ⟨by omega, take_zeroRun (groups.drop start)⟩
    next => exact hbest

theorem mapped?_eq_some {address : Ipv6} {embedded : Ipv4}
    (hmapped : address.mapped? = some embedded) :
    address.groups =
      [] ++ List.replicate 5 0 ++ 0xFFFF ::
        Ipv6.groupsOfOctets embedded.octets := by
  unfold Ipv6.mapped? at hmapped
  split at hmapped
  next high low hgroups =>
    cases hmapped
    have hwords := Message.groupsOfOctets_flatMap [high, low]
    exact hgroups.trans (congrArg ([0, 0, 0, 0, 0, 0xFFFF] ++ ·) hwords.symm)
  next => cases hmapped

theorem isText_ipv6 (address : Ipv6) : address.IsText address.text := by
  have hlength := address.length_groups
  unfold Ipv6.text
  cases hmapped : address.mapped? with
  | some embedded =>
      have hffff : IsRow true (0xFFFF :: Ipv6.groupsOfOctets embedded.octets)
          (['f', 'f', 'f', 'f'] ++ ':' :: embedded.text) :=
        .cons (isGroup_hexadecimal 0xFFFF) (.dotted embedded)
      exact .gap 4 .nothing (.row hffff) (mapped?_eq_some hmapped)
  | none =>
      simp only
      obtain ⟨hbound, hzeros⟩ := longestZeroRun_zero address.groups
      generalize Ipv6.longestZeroRun address.groups = run at hbound hzeros ⊢
      obtain ⟨start, length⟩ := run
      simp only at hbound hzeros ⊢
      split
      -- No run is worth two colons: all eight groups are written.
      next =>
        rcases (isPart_groupsText address.groups).row_or_nil with hrow | hnil
        · exact .whole hrow
        · rw [hnil] at hlength
          cases hlength
      next hlong =>
        obtain ⟨zeros, rfl⟩ : ∃ zeros, length = zeros + 1 :=
          ⟨length - 1, by omega⟩
        have hgroups : address.groups =
            address.groups.take start ++ List.replicate (zeros + 1) 0 ++
              address.groups.drop (start + (zeros + 1)) := by
          rw [← hzeros, List.append_assoc, ← List.drop_drop,
            List.take_append_drop, List.take_append_drop]
        rw [List.append_assoc]
        exact .gap zeros (isPart_groupsText _) (isPart_groupsText _) hgroups

theorem isText_text : (address : IpAddress) → address.IsText address.text
  | .v4 address => .v4 address
  | .v6 address => .v6 (isText_ipv6 address)

theorem parse?_text (address : IpAddress) :
    IpAddress.parse? address.text = some address :=
  parse?_eq_some_iff.mpr (isText_text address)

theorem not_blank_text (address : IpAddress) :
    ∀ c ∈ address.text, Text.isBlank c = false :=
  fun c hc =>
    not_blank_of_isCharacter
      ((undotted_of_isText (isText_text address)).characters c hc)

end Canonical

end Address

namespace Endpoint

open Address

theorem isText_text (endpoint : Endpoint) : endpoint.IsText endpoint.text := by
  cases endpoint with
  | v4 address port => exact .v4 address (Text.isNumeral_ten_iff.mpr ⟨0, rfl⟩)
  | v6 address port scope =>
      have hport : Text.IsNumeral 10 port.toNat (Text.decimal port.toNat) :=
        Text.isNumeral_ten_iff.mpr ⟨0, rfl⟩
      simp only [Endpoint.text, List.append_assoc, List.cons_append,
        List.nil_append]
      split
      next hzero =>
        subst hzero
        exact .v6 (isText_ipv6 address) hport
      next =>
        exact .zoned (isText_ipv6 address)
          (Text.isNumeral_ten_iff.mpr ⟨0, rfl⟩) hport

theorem parse?_text (endpoint : Endpoint) :
    parse? endpoint.text = some endpoint :=
  parse?_eq_some_iff.mpr (isText_text endpoint)

theorem not_blank_text (endpoint : Endpoint) :
    ∀ c ∈ endpoint.text, Text.isBlank c = false := by
  have hnumber (value : Nat) :
      ∀ c ∈ Text.decimal value, Text.isBlank c = false :=
    Text.forall_mem_toDigits (by decide) (by decide) (by decide)
  cases endpoint with
  | v4 address port =>
      rw [Endpoint.text, List.forall_mem_append, List.forall_mem_cons]
      exact ⟨Address.not_blank_text (.v4 address), rfl, hnumber _⟩
  | v6 address port scope =>
      have hzone :
          ∀ c ∈ (if scope = 0 then [] else '%' :: Text.decimal scope.toNat),
          Text.isBlank c = false := by
        split
        next => exact nofun
        next => exact List.forall_mem_cons.mpr ⟨rfl, hnumber _⟩
      simp only [Endpoint.text, List.forall_mem_append, List.forall_mem_cons]
      exact ⟨⟨⟨⟨rfl, Address.not_blank_text (.v6 address)⟩, hzone⟩, rfl, rfl,
        nofun⟩, hnumber _⟩

end Endpoint

end DnsForwarder
