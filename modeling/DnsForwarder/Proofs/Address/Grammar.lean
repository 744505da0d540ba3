import DnsForwarder.Address.Endpoint
import DnsForwarder.Proofs.Text.Padding

/-! The grammar of addresses. An IPv4 address is written in one way only. An
IPv6 address is a row of eight groups, or two rows with two colons between them
for the zero groups that are missing; the last two groups may be written as an
IPv4 address. A socket address has a port behind the address. The readers take
off a text just what the grammar has, as far as it goes. -/

namespace DnsForwarder

namespace Address

structure IsGroup (group : UInt16) (text : List Char) : Prop where
  numeral : Text.IsNumeral 16 group.toNat text
  short : text.length ≤ 4

/-- Groups with colons between them; a dotted IPv4 address may stand for the
last two. -/
inductive IsRow : (dotted : Bool) → List UInt16 → List Char → Prop where
  | group {group : UInt16} {text : List Char} (hgroup : IsGroup group text) :
      IsRow false [group] text
  | dotted (address : Ipv4) :
    IsRow true (Ipv6.groupsOfOctets address.octets) address.text
  | cons {dotted : Bool} {group : UInt16} {groups : List UInt16}
    {text rest : List Char}
      (hgroup : IsGroup group text) (hrow : IsRow dotted groups rest) :
      IsRow dotted (group :: groups) (text ++ ':' :: rest)

inductive IsPart : (dotted : Bool) → List UInt16 → List Char → Prop where
  | nothing : IsPart false [] []
  | row {dotted : Bool} {groups : List UInt16} {text : List Char}
      (hrow : IsRow dotted groups text) : IsPart dotted groups text

end Address

open Address

inductive Ipv6.IsText (address : Ipv6) : List Char → Prop where
  | whole {dotted : Bool} {text : List Char}
    (hrow : IsRow dotted address.groups text) : IsText address text
  /-- Two colons stand for one zero group or more. -/
  | gap {dotted : Bool} {front back : List UInt16} {before behind : List Char}
    (zeros : Nat)
      (hfront : IsPart false front before) (hback : IsPart dotted back behind)
      (hgroups : address.groups =
        front ++ List.replicate (zeros + 1) 0 ++ back) :
      IsText address (before ++ ':' :: ':' :: behind)

inductive IpAddress.IsText : IpAddress → List Char → Prop where
  | v4 (address : Ipv4) : IsText (.v4 address) address.text
  | v6 {address : Ipv6} {text : List Char} (haddress : address.IsText text) :
      IsText (.v6 address) text

/-- An address with a port; an IPv6 address stands in brackets, perhaps with a
scope behind it. -/
inductive Endpoint.IsText : Endpoint → List Char → Prop where
  | v4 {port : UInt16} {digits : List Char} (address : Ipv4)
      (hport : Text.IsNumeral 10 port.toNat digits) :
      IsText (.v4 address port) (address.text ++ ':' :: digits)
  | v6 {address : Ipv6} {port : UInt16} {text digits : List Char}
    (haddress : address.IsText text)
      (hport : Text.IsNumeral 10 port.toNat digits) :
      IsText (.v6 address port 0) ('[' :: (text ++ ']' :: ':' :: digits))
  | zoned {address : Ipv6} {port : UInt16} {scope : UInt32}
    {text zone digits : List Char}
      (haddress : address.IsText text)
      (hscope : Text.IsNumeral 10 scope.toNat zone)
      (hport : Text.IsNumeral 10 port.toNat digits) :
      IsText (.v6 address port scope)
        ('[' :: (text ++ '%' :: (zone ++ ']' :: ':' :: digits)))

namespace Address

variable {radix value limit room : Nat} {text rest : List Char}

section Numbers

/-- A text goes on with something else than a digit, or is at its end. -/
def Breaks (radix : Nat) (rest : List Char) : Prop :=
  ∀ c ∈ rest.head?, (Text.digit? radix c).isSome = false

theorem breaks_nil (radix : Nat) : Breaks radix [] :=
  nofun

theorem Breaks.takeWhile (hbreaks : Breaks radix rest) :
    rest.takeWhile (fun c => (Text.digit? radix c).isSome) = [] := by
  cases rest with
  | nil => rfl
  | cons c rest => simp [hbreaks c rfl]

theorem Breaks.dropWhile (hbreaks : Breaks radix rest) :
    rest.dropWhile (fun c => (Text.digit? radix c).isSome) = rest := by
  cases rest with
  | nil => rfl
  | cons c rest => simp [hbreaks c rfl]

theorem breaks_dropWhile (radix : Nat) (text : List Char) :
    Breaks radix (text.dropWhile fun c => (Text.digit? radix c).isSome) := by
  intro c hc
  have hnot :=
    List.head?_dropWhile_not (fun c => (Text.digit? radix c).isSome) text
  rw [Option.mem_def.mp hc] at hnot
  exact hnot

theorem readNumber_eq_some_iff {width : Option Nat} {leadingZero : Bool} :
    readNumber radix width leadingZero limit text = some (value, rest) ↔
      ∃ digits, text = digits ++ rest ∧ Breaks radix rest ∧ digits ≠ [] ∧
        (∀ c ∈ digits, (Text.digit? radix c).isSome) ∧
        (∀ most ∈ width, digits.length ≤ most) ∧
        (leadingZero = false → digits.head? = some '0' → digits.length ≤ 1) ∧
        Text.ofDigits radix digits = value ∧ value ≤ limit := by
  have hwide (digits : List Char) :
      ¬width.any (· < digits.length) ↔
        ∀ most ∈ width, digits.length ≤ most := by
    cases width <;> simp
  have hzero (digits : List Char) :
      ¬(leadingZero = false ∧ digits.head? = some '0' ∧ 1 < digits.length) ↔
        (leadingZero = false → digits.head? = some '0' →
          digits.length ≤ 1) := by
    simp only [not_and, Nat.not_lt]
  constructor
  · intro hread
    simp only [readNumber] at hread
    split at hread
    next => cases hread
    next hfits =>
      split at hread
      next => cases hread
      next hlimit =>
        cases hread
        rw [not_or, not_or, hwide, hzero] at hfits
        exact ⟨_, List.takeWhile_append_dropWhile.symm,
          breaks_dropWhile radix text, hfits.1,
          List.all_eq_true.mp List.all_takeWhile, hfits.2.1, hfits.2.2, rfl,
          Nat.le_of_not_lt hlimit⟩
  · rintro ⟨digits, rfl, hbreaks, hsome, hdigits, hwidth, hleading, rfl, hlimit⟩
    simp only [readNumber, List.takeWhile_append_of_pos hdigits,
      hbreaks.takeWhile,
      List.dropWhile_append_of_pos hdigits, hbreaks.dropWhile, List.append_nil]
    have hfits :=
      not_or.mpr ⟨(hwide digits).mpr hwidth, (hzero digits).mpr hleading⟩
    rw [if_neg (not_or.mpr ⟨hsome, hfits⟩), if_neg (Nat.not_lt.mpr hlimit)]

theorem readNumeral_eq_some_iff {width : Option Nat} (hradix : 1 < radix)
    (hsmall : radix ≤ 16) :
    readNumber radix width true limit text = some (value, rest) ↔
      ∃ front, text = front ++ rest ∧ Breaks radix rest ∧
        Text.IsNumeral radix value front ∧
        (∀ most ∈ width, front.length ≤ most) ∧ value ≤ limit := by
  simp only [readNumber_eq_some_iff, Text.isNumeral_iff hradix hsmall]
  refine exists_congr fun front => and_congr_right fun _ =>
    and_congr_right fun _ => ?_
  constructor
  · rintro ⟨hsome, hdigits, hwidth, -, hvalue, hlimit⟩
    exact ⟨⟨hsome, hdigits, hvalue⟩, hwidth, hlimit⟩
  · rintro ⟨⟨hsome, hdigits, hvalue⟩, hwidth, hlimit⟩
    exact ⟨hsome, hdigits, hwidth, nofun, hvalue, hlimit⟩

theorem readOctet_eq_some_iff {octet : UInt8} :
    readOctet text = some (octet, rest) ↔
      text = Text.decimal octet.toNat ++ rest ∧ Breaks 10 rest := by
  have hbyte := octet.toNat_lt
  simp only [readOctet, Option.map_eq_some_iff, Prod.exists, Prod.mk.injEq,
    readNumber_eq_some_iff]
  constructor
  · rintro ⟨value, _,
      ⟨digits, rfl, hbreaks, hsome, hdigits, -, hzero, hvalue, hlimit⟩,
      rfl, rfl⟩
    obtain ⟨zeros, hnumeral⟩ := Text.isNumeral_ten_iff.mp
      ((Text.isNumeral_iff (by decide) (by decide)).mpr
        ⟨hsome, hdigits, hvalue⟩)
    have hpads : Text.Pads (Text.decimal value) digits :=
      ⟨[], zeros, .inl rfl, hnumeral⟩
    have hplain : ¬Text.Padded digits := by
      rintro (hplus | ⟨hfirst, hlong⟩)
      · exact absurd (hdigits '+' (List.mem_of_head? hplus)) (by decide)
      · exact absurd (hzero trivial hfirst) (Nat.not_le.mpr hlong)
    have hdecimal :=
      hpads.eq_of_not_padded (Text.toDigits_ne_nil 10 value) hplain
    have hoctet : (UInt8.ofNat value).toNat = value :=
      UInt8.toNat_ofNat_of_lt' (Nat.lt_of_le_of_lt hlimit (by decide))
    exact ⟨by rw [hoctet, ← hdecimal], hbreaks⟩
  · rintro ⟨rfl, hbreaks⟩
    have hwidth : (Nat.toDigits 10 octet.toNat).length ≤ 3 :=
      (Nat.length_toDigits_le_iff (by decide) (by decide)).mpr (by omega)
    refine ⟨octet.toNat, rest,
      ⟨_, rfl, hbreaks, Text.toDigits_ne_nil 10 _, ?_, ?_, ?_, ?_, by omega⟩,
      by simp, rfl⟩
    · exact fun c hc => Text.isSome_of_mem_toDigits (by decide) (by decide) hc
    · simpa [Text.decimal] using hwidth
    · exact fun _ hfirst =>
        Nat.le_of_eq (Text.length_toDigits_of_head? (by decide) hfirst)
    · exact Text.ofDigits_toDigits (by decide) (by decide) _

theorem readGroup_eq_some_iff {group : UInt16} :
    readGroup text = some (group, rest) ↔
      ∃ front, text = front ++ rest ∧ Breaks 16 rest ∧ IsGroup group front := by
  have hword := group.toNat_lt
  simp only [readGroup, Option.map_eq_some_iff, Prod.exists, Prod.mk.injEq,
    readNumeral_eq_some_iff (by decide : 1 < 16) (Nat.le_refl 16)]
  constructor
  · rintro ⟨value, _, ⟨front, rfl, hbreaks, hnumeral, hshort, hlimit⟩, rfl, rfl⟩
    have hgroup : (UInt16.ofNat value).toNat = value :=
      UInt16.toNat_ofNat_of_lt' (Nat.lt_of_le_of_lt hlimit (by decide))
    exact ⟨front, rfl, hbreaks, hgroup.symm ▸ hnumeral, hshort 4 rfl⟩
  · rintro ⟨front, rfl, hbreaks, hnumeral, hshort⟩
    exact ⟨group.toNat, rest,
      ⟨front, rfl, hbreaks, hnumeral, by simpa using hshort, by omega⟩,
      by simp, rfl⟩

theorem readChar_eq_some_iff {c : Char} :
    readChar c text = some rest ↔ text = c :: rest := by
  cases text with
  | nil => simp [readChar]
  | cons first others =>
      simp only [readChar, List.cons.injEq]
      split
      next hsame => simp [hsame]
      next hother => simp [hother]

theorem readIpv4_eq_some_iff {address : Ipv4} :
    readIpv4 text = some (address, rest) ↔ text = address.text ++ rest ∧
      Breaks 10 rest := by
  have htext : address.text ++ rest =
      Text.decimal address.first.toNat ++ '.' ::
      (Text.decimal address.second.toNat ++
        '.' :: (Text.decimal address.third.toNat ++
          '.' :: (Text.decimal address.fourth.toNat ++ rest))) := by
    simp [Ipv4.text, Ipv4.octets, Text.join, List.intercalate]
  have hdot (rest : List Char) : Breaks 10 ('.' :: rest) := by
    simp [Breaks, Text.digit?]
  rw [htext]
  simp only [readIpv4, Option.bind_eq_bind, Option.bind_eq_some_iff,
    Option.pure_def,
    Option.some.injEq, Prod.exists, Prod.mk.injEq, readOctet_eq_some_iff,
    readChar_eq_some_iff]
  constructor
  · rintro ⟨a, _, ⟨rfl, -⟩, _, rfl, b, _, ⟨rfl, -⟩, _, rfl, c, _, ⟨rfl, -⟩,
      _, rfl, d, _, ⟨rfl, hbreaks⟩, rfl, rfl⟩
    exact ⟨rfl, hbreaks⟩
  · rintro ⟨rfl, hbreaks⟩
    exact ⟨_, _, ⟨rfl, hdot _⟩, _, rfl, _, _, ⟨rfl, hdot _⟩, _, rfl, _, _,
      ⟨rfl, hdot _⟩, _, rfl, _, _, ⟨rfl, hbreaks⟩, rfl, rfl⟩

end Numbers

section Groups

def Stops (text : List Char) : Prop :=
  Breaks 16 text ∧ text.head? ≠ some '.'

def Closed (rest : List Char) : Prop :=
  Stops rest ∧ rest.head? ≠ some ':'

/-- Where a row of groups ends: where no address goes on, or before two
colons. -/
def Ends (rest : List Char) : Prop :=
  Closed rest ∨ ∃ behind, rest = ':' :: ':' :: behind

theorem closed_nil : Closed [] :=
  ⟨⟨nofun, nofun⟩, nofun⟩

theorem closed_cons {c : Char}
    (hc : (Text.digit? 16 c).isSome = false ∧ c ≠ '.' ∧ c ≠ ':')
    (rest : List Char) : Closed (c :: rest) := by
  obtain ⟨hdigit, hdot, hcolon⟩ := hc
  refine ⟨⟨?_, by simpa using hdot⟩, by simpa using hcolon⟩
  rintro _ ⟨⟩
  exact hdigit

theorem stops_colon (behind : List Char) : Stops (':' :: behind) := by
  simp [Stops, Breaks, Text.digit?]

theorem Ends.stops (hends : Ends rest) : Stops rest := by
  rcases hends with hclosed | ⟨behind, rfl⟩
  · exact hclosed.1
  · exact stops_colon _

theorem Breaks.mono {larger : Nat} (hradix : radix ≤ larger)
    (hbreaks : Breaks larger rest) :
    Breaks radix rest := by
  intro c hc
  have hlarger := hbreaks c hc
  rw [Option.isSome_eq_false_iff, Option.isNone_iff_eq_none] at hlarger ⊢
  simp only [Text.digit?, Option.filter_eq_none_iff, decide_eq_true_eq]
    at hlarger ⊢
  intro digit hdigit hsmall
  exact hlarger digit hdigit (Nat.lt_of_lt_of_le hsmall hradix)

theorem Stops.decimal (hstops : Stops text) : Breaks 10 text :=
  hstops.1.mono (by decide)

theorem Stops.readGroup (hstops : Stops text) : readGroup text = none := by
  rw [Address.readGroup, readNumber, hstops.1.takeWhile, if_pos (.inl rfl)]
  rfl

theorem head?_dropWhile_of_readIpv4 {address : Ipv4}
    (hread : readIpv4 text = some (address, rest)) :
    (text.dropWhile fun c => (Text.digit? 10 c).isSome).head? = some '.' := by
  obtain ⟨rfl, -⟩ := readIpv4_eq_some_iff.mp hread
  have hdigits :
      ∀ c ∈ Text.decimal address.first.toNat, (Text.digit? 10 c).isSome :=
    fun c hc => Text.isSome_of_mem_toDigits (by decide) (by decide) hc
  simp only [Ipv4.text, Ipv4.octets, Text.join, List.map_cons,
    List.intercalate_cons_cons,
    List.append_assoc, List.dropWhile_append_of_pos hdigits]
  rfl

theorem Stops.readIpv4 (hstops : Stops text) : readIpv4 text = none := by
  by_contra hsome
  obtain ⟨⟨address, rest⟩, hread⟩ := Option.ne_none_iff_exists'.mp hsome
  have hdot := head?_dropWhile_of_readIpv4 hread
  rw [hstops.decimal.dropWhile] at hdot
  exact hstops.2 hdot

theorem IsGroup.digits {group : UInt16} (hgroup : IsGroup group text) :
    text ≠ [] ∧ ∀ c ∈ text, (Text.digit? 16 c).isSome :=
  hgroup.numeral.digits (by decide) (by decide)

theorem IsGroup.readIpv4 {group : UInt16} (hgroup : IsGroup group text)
    (hstops : Stops rest) :
    readIpv4 (text ++ rest) = none := by
  by_contra hsome
  obtain ⟨⟨address, behind⟩, hread⟩ := Option.ne_none_iff_exists'.mp hsome
  have hdot := head?_dropWhile_of_readIpv4 hread
  rw [List.dropWhile_append] at hdot
  split at hdot
  next =>
    rw [hstops.decimal.dropWhile] at hdot
    exact hstops.2 hdot
  next hmore =>
    -- What stops the decimal digits is a hexadecimal digit.
    rw [List.isEmpty_iff] at hmore
    rw [List.head?_append_of_ne_nil _ hmore] at hdot
    exact absurd
      (hgroup.digits.2 '.'
        ((List.dropWhile_sublist _).mem (List.mem_of_head? hdot))) (by decide)

theorem IsGroup.readGroup {group : UInt16} (hgroup : IsGroup group text)
    (hstops : Stops rest) :
    readGroup (text ++ rest) = some (group, rest) :=
  readGroup_eq_some_iff.mpr ⟨text, rfl, hstops.1, hgroup⟩

/-- What stands in front of the first group that is read: a colon, unless the
row begins there. -/
def lead (leading : Bool) : List Char :=
  if leading then [] else [':']

theorem start_eq_some_iff {leading : Bool} {start : List Char} :
    (if leading then some text else readChar ':' text) = some start ↔
      text = lead leading ++ start := by
  cases leading with
  | true => simp [lead]
  | false => simp [lead, readChar_eq_some_iff]

theorem readGroups_ends (hends : Ends rest) (room : Nat) (leading : Bool) :
    readGroups room leading rest = ⟨[], false, rest⟩ := by
  cases room with
  | zero => rfl
  | succ room =>
      simp only [readGroups]
      split
      next => rfl
      next start hstart =>
        have hstops : Stops start := by
          rw [start_eq_some_iff] at hstart
          cases leading with
          | true =>
              obtain rfl : rest = start := hstart
              exact hends.stops
          | false =>
              rcases hends with hclosed | ⟨behind, rfl⟩
              · exact absurd (congrArg List.head? hstart) hclosed.2
              · cases hstart
                exact stops_colon behind
        simp only [hstops.readIpv4, ite_self, hstops.readGroup]

theorem IsRow.readGroups {dotted leading : Bool} {groups : List UInt16}
    (hrow : IsRow dotted groups text) (hends : Ends rest)
    (hroom : groups.length ≤ room) :
    readGroups room leading (lead leading ++ (text ++ rest)) =
      ⟨groups, dotted, rest⟩ := by
  induction hrow generalizing room leading with
  | group hgroup =>
      obtain ⟨room, rfl⟩ : ∃ more, room = more + 1 :=
        Nat.exists_eq_add_of_le' hroom
      simp only [Address.readGroups, start_eq_some_iff.mpr rfl,
        hgroup.readIpv4 hends.stops,
        ite_self, hgroup.readGroup hends.stops, readGroups_ends hends]
  | dotted address =>
      obtain ⟨room, rfl⟩ : ∃ more, room = more + 2 :=
        Nat.exists_eq_add_of_le' hroom
      have hread : readIpv4 (address.text ++ rest) = some (address, rest) :=
        readIpv4_eq_some_iff.mpr ⟨rfl, hends.stops.decimal⟩
      have htwo : 0 < room + 1 := Nat.succ_pos room
      simp only [Ipv4.octets, Ipv6.groupsOfOctets, Address.readGroups,
        start_eq_some_iff.mpr rfl, if_pos htwo, hread]
  | @cons dotted group groups text others hgroup _ ih =>
      obtain ⟨room, rfl⟩ :=
        Nat.exists_eq_add_of_le' (Nat.le_trans (Nat.le_add_left 1 _) hroom)
      have hstops := stops_colon (others ++ rest)
      have hothers := @ih room false (Nat.le_of_succ_le_succ hroom)
      simp only [lead, Bool.false_eq_true, if_false, List.singleton_append]
        at hothers
      simp only [List.append_assoc, List.cons_append, Address.readGroups,
        start_eq_some_iff.mpr rfl, hgroup.readIpv4 hstops, ite_self,
        hgroup.readGroup hstops,
        hothers]

/-- What is taken off a text are no groups at all or a row, as long as there is
room for. -/
theorem readGroups_sound (room : Nat) (leading : Bool) (text : List Char) :
    let taken := readGroups room leading text
    taken.groups.length ≤ room ∧
      (taken = ⟨[], false, text⟩ ∨
        ∃ front, text = lead leading ++ (front ++ taken.rest) ∧
          IsRow taken.dotted taken.groups front) := by
  induction room generalizing leading text with
  | zero => exact ⟨Nat.le_refl 0, .inl rfl⟩
  | succ room ih =>
      simp only [readGroups]
      split
      next => exact ⟨Nat.zero_le _, .inl rfl⟩
      next start hstart =>
        obtain rfl := start_eq_some_iff.mp hstart
        split
        next embedded rest hdotted =>
          obtain ⟨hroom, hread⟩ := Option.ite_none_right_eq_some.mp hdotted
          obtain ⟨rfl, -⟩ := readIpv4_eq_some_iff.mp hread
          exact ⟨Nat.succ_le_succ hroom, .inr ⟨_, rfl, .dotted embedded⟩⟩
        next =>
          split
          next => exact ⟨Nat.zero_le _, .inl rfl⟩
          next group rest hread =>
            obtain ⟨front, rfl, -, hgroup⟩ := readGroup_eq_some_iff.mp hread
            obtain ⟨hlength, hothers⟩ := ih false rest
            refine ⟨Nat.succ_le_succ hlength, .inr ?_⟩
            rcases hothers with hnone | ⟨others, hsplit, hrow⟩
            · rw [hnone]
              exact ⟨front, rfl, .group hgroup⟩
            · refine ⟨front ++ ':' :: others, ?_, .cons hgroup hrow⟩
              rw [List.append_assoc]
              exact congrArg
                (fun rest => lead leading ++ (front ++ rest)) hsplit

theorem IsPart.readGroups {dotted : Bool} {groups : List UInt16}
    (hpart : IsPart dotted groups text) (hends : Ends rest)
    (hroom : groups.length ≤ room) :
    readGroups room true (text ++ rest) = ⟨groups, dotted, rest⟩ := by
  cases hpart with
  | nothing => exact readGroups_ends hends room true
  | row hrow => exact hrow.readGroups hends hroom

theorem IsPart.row_or_nil {dotted : Bool} {groups : List UInt16}
    (hpart : IsPart dotted groups text) :
    IsRow dotted groups text ∨ groups = [] := by
  cases hpart with
  | nothing => exact .inr rfl
  | row hrow => exact .inl hrow

theorem isPart_readGroups (room : Nat) (text : List Char) :
    let taken := readGroups room true text
    taken.groups.length ≤ room ∧
      ∃ front, text = front ++ taken.rest ∧
      IsPart taken.dotted taken.groups front := by
  obtain ⟨hlength, hnone | ⟨front, hsplit, hrow⟩⟩ :=
    readGroups_sound room true text
  · refine ⟨hlength, [], ?_⟩
    rw [hnone]
    exact ⟨rfl, .nothing⟩
  · exact ⟨hlength, front, hsplit, .row hrow⟩

end Groups

theorem ofGroups?_eq_some_iff {groups : List UInt16} {address : Ipv6} :
    Ipv6.ofGroups? groups = some address ↔ address.groups = groups := by
  constructor
  · intro hsome
    obtain ⟨hlength, haddress⟩ := Option.dite_none_right_eq_some.mp hsome
    cases haddress
    rfl
  · rintro rfl
    exact dif_pos address.length_groups

theorem isText_of_readIpv6 {address : Ipv6}
    (hread : readIpv6 text = some (address, rest)) :
    ∃ front, text = front ++ rest ∧ address.IsText front := by
  obtain ⟨hlength, front, hfront, hpart⟩ := isPart_readGroups 8 text
  simp only [readIpv6] at hread
  generalize readGroups 8 true text = head at hread hlength hfront hpart
  obtain ⟨groups, dotted, others⟩ := head
  simp only at hread hlength hfront hpart
  split at hread
  next height =>
    obtain ⟨_, hgroups, hpair⟩ := Option.bind_eq_some_iff.mp hread
    cases hpair
    obtain rfl := ofGroups?_eq_some_iff.mp hgroups
    rcases hpart.row_or_nil with hrow | hnil
    · exact ⟨front, hfront, .whole hrow⟩
    · rw [hnil] at height
      cases height
  next height =>
    split at hread
    next => cases hread
    next hplain =>
      simp only [Option.bind_eq_bind, Option.bind_eq_some_iff,
        readChar_eq_some_iff] at hread
      obtain ⟨_, rfl, behind, rfl, _, hgroups, hpair⟩ := hread
      cases hpair
      obtain ⟨hroom, back, hback, htail⟩ :=
        isPart_readGroups (7 - groups.length) behind
      have hgap : 8 - groups.length -
          (readGroups (7 - groups.length) true behind).groups.length =
          7 - groups.length -
          (readGroups (7 - groups.length) true behind).groups.length + 1 := by
        omega
      rw [hgap] at hgroups
      refine ⟨front ++ ':' :: ':' :: back, ?_,
        .gap _ (eq_false_of_ne_true hplain ▸ hpart) htail
        (ofGroups?_eq_some_iff.mp hgroups)⟩
      rw [hfront, List.append_assoc, List.cons_append,
        List.cons_append, ← hback]

theorem readIpv6_of_isText {address : Ipv6} (haddress : address.IsText text)
    (hclosed : Closed rest) :
    readIpv6 (text ++ rest) = some (address, rest) := by
  have hlength := address.length_groups
  have hwhole : Ipv6.ofGroups? address.groups = some address :=
    ofGroups?_eq_some_iff.mpr rfl
  cases haddress with
  | whole hrow =>
      have hhead :=
        IsPart.readGroups (.row hrow) (.inl hclosed) (Nat.le_of_eq hlength)
      simp only [readIpv6, hhead, hlength, if_true, hwhole, Option.bind_eq_bind,
        Option.bind_some]
      rfl
  | @gap dotted front back before behind zeros hfront hback hgroups =>
      rw [hgroups] at hlength hwhole
      simp only [List.length_append, List.length_replicate] at hlength
      have hhead :=
        hfront.readGroups (.inr ⟨behind ++ rest, rfl⟩)
          (by omega : front.length ≤ 8)
      have htail :=
        hback.readGroups (.inl hclosed)
          (by omega : back.length ≤ 7 - front.length)
      have hshort : front.length ≠ 8 := by omega
      have hgap : 8 - front.length - back.length = zeros + 1 := by omega
      rw [List.append_assoc, List.cons_append, List.cons_append]
      simp only [readIpv6, hhead, hshort, if_false, Bool.false_eq_true,
        readChar, if_true,
        Option.bind_eq_bind, Option.bind_some, htail, hgap, hwhole]
      rfl

theorem IsRow.readIpv4 {dotted : Bool} {groups : List UInt16}
    (hrow : IsRow dotted groups text)
    (hplain : dotted = false ∨ 2 < groups.length) (hends : Ends rest) :
    readIpv4 (text ++ rest) = none := by
  cases hrow with
  | group hgroup => exact hgroup.readIpv4 hends.stops
  | dotted address =>
      rcases hplain with hfalse | hlong
      · cases hfalse
      · exact absurd hlong (Nat.lt_irrefl 2)
  | cons hgroup hrow =>
      rw [List.append_assoc, List.cons_append]
      exact hgroup.readIpv4 (stops_colon _)

theorem readIpv4_of_isText {address : Ipv6} (haddress : address.IsText text)
    (hclosed : Closed rest) : readIpv4 (text ++ rest) = none := by
  cases haddress with
  | whole hrow =>
      exact hrow.readIpv4 (.inr (address.length_groups ▸ by decide))
        (.inl hclosed)
  | gap zeros hfront =>
      rw [List.append_assoc, List.cons_append, List.cons_append]
      cases hfront with
      | nothing => exact (stops_colon _).readIpv4
      | row hrow => exact hrow.readIpv4 (.inl rfl) (.inr ⟨_, rfl⟩)

theorem whole?_eq_some_iff {α : Type} {read? : Option (α × List Char)}
    {value : α} :
    whole? read? = some value ↔ read? = some (value, []) := by
  match read? with
  | none => simp [whole?]
  | some (_, []) => simp [whole?]
  | some (_, c :: rest) => simp [whole?]

/-- A text is read as the address that it is written for, and no other text is
read. -/
theorem parse?_eq_some_iff {address : IpAddress} :
    IpAddress.parse? text = some address ↔ address.IsText text := by
  rw [IpAddress.parse?, whole?_eq_some_iff, readIpAddress]
  constructor
  · intro hread
    split at hread
    next ipv4 rest hipv4 =>
      cases hread
      rw [(readIpv4_eq_some_iff.mp hipv4).1, List.append_nil]
      exact .v4 ipv4
    next =>
      obtain ⟨⟨ipv6, rest⟩, hipv6, hpair⟩ := Option.map_eq_some_iff.mp hread
      cases hpair
      obtain ⟨front, rfl, haddress⟩ := isText_of_readIpv6 hipv6
      rw [List.append_nil]
      exact .v6 haddress
  · rintro (ipv4 | haddress)
    · have hread : readIpv4 ipv4.text = some (ipv4, []) :=
        readIpv4_eq_some_iff.mpr ⟨(List.append_nil _).symm, breaks_nil 10⟩
      rw [hread]
    · have hipv4 := readIpv4_of_isText haddress closed_nil
      have hipv6 := readIpv6_of_isText haddress closed_nil
      rw [List.append_nil] at hipv4 hipv6
      rw [hipv4, hipv6]
      rfl

end Address

namespace Endpoint

variable {text rest : List Char}

theorem readPort_eq_some_iff {port : UInt16} :
    readPort text = some (port, rest) ↔
      ∃ digits, text = ':' :: (digits ++ rest) ∧ Breaks 10 rest ∧
        Text.IsNumeral 10 port.toNat digits := by
  have hword := port.toNat_lt
  simp only [readPort, Option.bind_eq_bind, Option.bind_eq_some_iff,
    Option.pure_def,
    Option.some.injEq, Prod.exists, Prod.mk.injEq, readChar_eq_some_iff,
    readNumeral_eq_some_iff (by decide : 1 < 10) (by decide : 10 ≤ 16)]
  constructor
  · rintro ⟨_, rfl, value, _, ⟨digits, rfl, hbreaks, hnumeral, -, hlimit⟩,
      rfl, rfl⟩
    have hport : (UInt16.ofNat value).toNat = value :=
      UInt16.toNat_ofNat_of_lt' (Nat.lt_of_le_of_lt hlimit (by decide))
    exact ⟨digits, rfl, hbreaks, hport.symm ▸ hnumeral⟩
  · rintro ⟨digits, rfl, hbreaks, hnumeral⟩
    exact ⟨_, rfl, port.toNat, rest,
      ⟨digits, rfl, hbreaks, hnumeral, nofun, by omega⟩, by simp,
      rfl⟩

theorem readV4_eq_some_iff {endpoint : Endpoint} :
    readV4 text = some (endpoint, rest) ↔
      ∃ address port digits, endpoint = .v4 address port ∧
        text = address.text ++ ':' :: (digits ++ rest) ∧ Breaks 10 rest ∧
        Text.IsNumeral 10 port.toNat digits := by
  have hcolon (rest : List Char) : Breaks 10 (':' :: rest) :=
    (stops_colon rest).decimal
  simp only [readV4, Option.bind_eq_bind, Option.bind_eq_some_iff,
    Option.pure_def,
    Option.some.injEq, Prod.exists, Prod.mk.injEq, readIpv4_eq_some_iff,
    readPort_eq_some_iff]
  constructor
  · rintro ⟨address, _, ⟨rfl, -⟩, port, _,
      ⟨digits, rfl, hbreaks, hnumeral⟩, rfl, rfl⟩
    exact ⟨address, port, digits, rfl, rfl, hbreaks, hnumeral⟩
  · rintro ⟨address, port, digits, rfl, rfl, hbreaks, hnumeral⟩
    exact ⟨address, _, ⟨rfl, hcolon _⟩, port, _,
      ⟨digits, rfl, hbreaks, hnumeral⟩, rfl, rfl⟩

inductive IsScope : UInt32 → List Char → Prop where
  | nothing : IsScope 0 []
  | zone {scope : UInt32} {digits : List Char}
    (hscope : Text.IsNumeral 10 scope.toNat digits) :
      IsScope scope ('%' :: digits)

theorem isScope_readScope (text : List Char) :
    ∃ zone, text = zone ++ (readScope text).2 ∧
      IsScope (readScope text).1 zone := by
  unfold readScope
  split
  next value rest hread =>
    simp only [Option.bind_eq_bind, Option.bind_eq_some_iff,
      readChar_eq_some_iff,
      readNumeral_eq_some_iff (by decide : 1 < 10) (by decide : 10 ≤ 16)]
      at hread
    obtain ⟨_, rfl, digits, rfl, -, hnumeral, -, hlimit⟩ := hread
    have hscope : (UInt32.ofNat value).toNat = value :=
      UInt32.toNat_ofNat_of_lt' (Nat.lt_of_le_of_lt hlimit (by decide))
    exact ⟨'%' :: digits, rfl, .zone (hscope.symm ▸ hnumeral)⟩
  next => exact ⟨[], rfl, .nothing⟩

theorem IsScope.readScope {scope : UInt32} {zone : List Char}
    (hzone : IsScope scope zone) :
    readScope (zone ++ ']' :: rest) = (scope, ']' :: rest) := by
  have hword := scope.toNat_lt
  cases hzone with
  | nothing => rfl
  | @zone scope digits hscope =>
      have hread : readNumber 10 none true 0xFFFFFFFF (digits ++ ']' :: rest) =
          some (scope.toNat, ']' :: rest) :=
        (readNumeral_eq_some_iff (by decide) (by decide)).mpr
          ⟨digits, rfl, (closed_cons (by decide) rest).1.decimal, hscope,
          nofun, by omega⟩
      simp [Endpoint.readScope, readChar, hread]

theorem readV6_eq_some_iff {endpoint : Endpoint} :
    readV6 text = some (endpoint, rest) ↔
      ∃ address port scope front zone digits, endpoint =
        .v6 address port scope ∧
        text = '[' :: (front ++ (zone ++ ']' :: ':' :: (digits ++ rest))) ∧
        Breaks 10 rest ∧
        address.IsText front ∧ IsScope scope zone ∧
        Text.IsNumeral 10 port.toNat digits := by
  simp only [readV6, Option.bind_eq_bind, Option.bind_eq_some_iff,
    Option.pure_def,
    Option.some.injEq, Prod.exists, Prod.mk.injEq, readChar_eq_some_iff,
    readPort_eq_some_iff]
  constructor
  · rintro ⟨_, rfl, address, behind, hread, _, hbracket, port, _,
      ⟨digits, rfl, hbreaks, hnumeral⟩,
      rfl, rfl⟩
    obtain ⟨front, rfl, haddress⟩ := isText_of_readIpv6 hread
    obtain ⟨zone, hzone, hscope⟩ := isScope_readScope behind
    rw [hbracket] at hzone
    exact ⟨address, port, _, front, zone, digits, rfl, by rw [← hzone], hbreaks,
      haddress, hscope, hnumeral⟩
  · rintro ⟨address, port, scope, front, zone, digits, rfl, rfl, hbreaks,
      haddress, hscope, hnumeral⟩
    have hclosed : Closed (zone ++ ']' :: ':' :: (digits ++ rest)) := by
      cases hscope with
      | nothing => exact closed_cons (by decide) _
      | zone => exact closed_cons (by decide) _
    have hread := readIpv6_of_isText haddress hclosed
    have hbehind : readScope (zone ++ ']' :: ':' :: (digits ++ rest)) =
        (scope, _) :=
      hscope.readScope
    refine ⟨_, rfl, address, _, hread, _, by rw [hbehind], port, rest,
      ⟨digits, rfl, hbreaks, hnumeral⟩, by rw [hbehind], rfl⟩

/-- A text is read as the socket address that it is written for, and no other
text is read. -/
theorem parse?_eq_some_iff {endpoint : Endpoint} :
    parse? text = some endpoint ↔ endpoint.IsText text := by
  rw [parse?, whole?_eq_some_iff]
  constructor
  · intro hread
    split at hread
    next result hv4 =>
      cases hread
      obtain ⟨address, port, digits, rfl, rfl, -, hport⟩ :=
        readV4_eq_some_iff.mp hv4
      rw [List.append_nil]
      exact .v4 address hport
    next =>
      obtain ⟨address, port, scope, front, zone, digits, rfl, rfl, -, haddress,
        hscope, hport⟩ :=
        readV6_eq_some_iff.mp hread
      rw [List.append_nil]
      cases hscope with
      | nothing => exact .v6 haddress hport
      | zone hscope => exact .zoned haddress hscope hport
  · have hbracket (rest : List Char) : readV4 ('[' :: rest) = none := by
      rw [readV4, (closed_cons (by decide) rest).1.readIpv4]
      rfl
    rintro (⟨address, hport⟩ | ⟨haddress, hport⟩ | ⟨haddress, hscope, hport⟩)
    · have hread :=
        readV4_eq_some_iff.mpr ⟨address, _, _, rfl, rfl, breaks_nil 10, hport⟩
      rw [List.append_nil] at hread
      rw [hread]
    · have hread := readV6_eq_some_iff.mpr
        ⟨_, _, _, _, _, _, rfl, rfl, breaks_nil 10, haddress, .nothing, hport⟩
      rw [List.append_nil] at hread
      rw [hbracket]
      exact hread
    · have hread := readV6_eq_some_iff.mpr
        ⟨_, _, _, _, _, _, rfl, rfl, breaks_nil 10, haddress,
        .zone hscope, hport⟩
      rw [List.append_nil] at hread
      rw [hbracket]
      exact hread

end Endpoint

end DnsForwarder
