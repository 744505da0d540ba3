import DnsForwarder.Message.Reader
import DnsForwarder.Proofs.Message.Names

/-! Pieces of messages between writing and reading. What is written makes its
pieces behind the beginning of the message, whose table stays right; the data of
a record is read from what its pieces make. -/

namespace DnsForwarder

namespace RecordData

variable {ν σ : Type}

def names : RecordData ν σ → List ν
  | .ptr target | .ns target | .cname target | .mx _ target | .srv _ _ _
    target => [target]
  | .soa primary mailbox .. => [primary, mailbox]
  | _ => []

/-- The data as it arrives: the name of a service's host is sent in
lowercase. -/
def sent : RecordData Labels σ → RecordData Labels σ
  | .srv priority weight port target => .srv priority weight port target.lower
  | data => data

end RecordData

namespace Message

theorem bind_eq_ok {α β ε : Type} {first : Except ε α} {next : α → Except ε β}
    {result : β} :
    first >>= next = .ok result ↔ ∃ value, first = .ok value ∧
      next value = .ok result := by
  cases first <;> simp [bind, Except.bind]

theorem mapError_eq_ok {α ε δ : Type} {attempt : Except ε α} {convert : ε → δ}
    {result : α} :
    attempt.mapError convert = .ok result ↔ attempt = .ok result := by
  cases attempt with
  | error error => exact ⟨nofun, nofun⟩
  | ok value =>
      constructor <;> intro hok <;> cases hok <;> rfl

def Piece.Makes (base : Octets) : Piece → Octets → Prop
  | .bytes chunks, made => made = chunks.flatten
  | .name labels, made => Spells base labels made
  | .fullName labels, made => Spells base labels made
  | .string content, made =>
      content.length ≤ 255 ∧ made = UInt8.ofNat content.length :: content

/-- Names in messages keep the bounds on labels and on the whole name. -/
def Piece.Fits : Piece → Prop
  | .name labels => labels.isValid
  | .fullName labels => labels.isValid
  | _ => True

inductive PiecesMake : Octets → List Piece → Octets → Prop
  | nil (base : Octets) : PiecesMake base [] []
  | cons {base first others : Octets} {piece : Piece} {rest : List Piece}
      (hfirst : piece.Makes base first)
      (hrest : PiecesMake (base ++ first) rest others) :
      PiecesMake base (piece :: rest) (first ++ others)

/-- The table of what was written is right, and the message has room for the
bytes. -/
structure Written.Follows (written : Written) (base : Octets) : Prop where
  sound : written.table.Sound (base ++ written.bytes)
  short : base.length + written.bytes.length ≤ maxSize

variable {base bytes : Octets} {table : Table} {written : Written}
  {pieces others : List Piece}

section Writing

theorem Written.upTo_eq_ok {result : Written} {offset stop : Nat}
    {chunks : List Octets} :
    written.upTo offset stop chunks = .ok result ↔
      stop ≤ maxSize ∧ written = result := by
  rw [upTo]
  split
  next hbeyond =>
    exact ⟨nofun, fun hboth => absurd hbeyond (Nat.not_lt.mpr hboth.1)⟩
  next hroom =>
    rw [Except.ok.injEq]
    exact ⟨fun hsame => ⟨Nat.le_of_not_lt hroom, hsame⟩, fun hboth => hboth.2⟩

theorem follows_of_writeChunks {chunks : List Octets}
    (hsound : table.Sound base)
    (hwrite : writeChunks table base.length chunks = .ok written) :
    written.bytes = chunks.flatten ∧ written.Follows base := by
  obtain ⟨hshort, rfl⟩ := Written.upTo_eq_ok.mp hwrite
  exact ⟨rfl, hsound.append _, hshort⟩

theorem Table.Sound.grow {table : Table} {grown : Table}
    (hsound : table.Sound base)
    (hgrown : ∀ entry ∈ grown, entry ∈ table ∨
      Stands (base ++ ([] ++ bytes)) entry.1 entry.2) :
    grown.Sound (base ++ bytes) := by
  intro entry hentry
  rcases hgrown entry hentry with hold | hstands
  · exact hsound.append bytes entry hold
  · exact hstands

theorem writePiece_eq_ok {piece : Piece} (hsound : table.Sound base)
    (hfits : piece.Fits)
    (hwrite : writePiece table base.length piece = .ok written) :
    piece.Makes base written.bytes ∧ written.Follows base := by
  cases piece with
  | bytes chunks => exact follows_of_writeChunks hsound hwrite
  | name labels =>
      obtain ⟨hspells, hgrown⟩ := writeLabels_spells base []
        (base.length + labels.span) table (labels_isValid_iff.mp hfits).1
        (by simp) (fun ending target _ hfound => hsound.lookup hfound)
      simp only [List.append_nil] at hspells hgrown
      obtain ⟨hroom, rfl⟩ := Written.upTo_eq_ok.mp hwrite
      exact ⟨hspells, hsound.grow hgrown,
        Nat.le_trans (Nat.le_max_right _ _) hroom⟩
  | fullName labels =>
      obtain ⟨hspells, hgrown⟩ := writeInFull_spells base []
        (base.length + labels.span) table (labels_isValid_iff.mp hfits).1
        (by simp)
      simp only [List.append_nil] at hspells hgrown
      obtain ⟨hroom, rfl⟩ := Written.upTo_eq_ok.mp hwrite
      exact ⟨hspells, hsound.grow hgrown, hroom⟩
  | string content =>
      simp only [writePiece] at hwrite
      split at hwrite
      next => cases hwrite
      next hshort =>
        obtain ⟨hbytes, hfollows⟩ := follows_of_writeChunks hsound hwrite
        rw [countedChunks, List.flatten_cons, List.flatten_singleton] at hbytes
        exact ⟨⟨Nat.le_of_not_lt hshort, hbytes⟩, hfollows⟩

theorem writePieces_cons {offset : Nat} {piece : Piece}
    (hwrite : writePieces table offset (piece :: pieces) = .ok written) :
    ∃ first last, writePiece table offset piece = .ok first ∧
      writePieces first.table (offset + first.bytes.length) pieces = .ok last ∧
      written = ⟨first.bytes ++ last.bytes, last.table⟩ := by
  obtain ⟨first, hfirst, hwrite⟩ := bind_eq_ok.mp hwrite
  obtain ⟨last, hlast, hwrite⟩ := bind_eq_ok.mp hwrite
  cases hwrite
  exact ⟨first, last, hfirst, mapError_eq_ok.mp hlast, rfl⟩

theorem writePieces_eq_ok (hsound : table.Sound base)
    (hroom : base.length ≤ maxSize) (hfits : ∀ piece ∈ pieces, piece.Fits)
    (hwrite : writePieces table base.length pieces = .ok written) :
    PiecesMake base pieces written.bytes ∧ written.Follows base := by
  induction pieces generalizing base table written with
  | nil =>
      cases hwrite
      exact ⟨.nil base, by rwa [List.append_nil], hroom⟩
  | cons piece rest ih =>
      obtain ⟨first, last, hfirst, hlast, rfl⟩ := writePieces_cons hwrite
      obtain ⟨hpiece, hrest⟩ := List.forall_mem_cons.mp hfits
      obtain ⟨hmakes, hfollows⟩ := writePiece_eq_ok hsound hpiece hfirst
      rw [← List.length_append] at hlast
      obtain ⟨hothers, hend⟩ := ih hfollows.sound
        (by simpa only [List.length_append] using hfollows.short) hrest hlast
      refine ⟨.cons hmakes hothers, ?_, ?_⟩
      · rw [← List.append_assoc]
        exact hend.sound
      · have hshort := hend.short
        simp only [List.length_append] at hshort ⊢
        omega

end Writing

section Reading

variable {α : Type} {after : Octets}

open Cursor

theorem PiecesMake.append (hmake : PiecesMake base (pieces ++ others) bytes) :
    ∃ first last, bytes = first ++ last ∧ PiecesMake base pieces first ∧
      PiecesMake (base ++ first) others last := by
  induction pieces generalizing base bytes with
  | nil => exact ⟨[], bytes, rfl, .nil base, by rwa [List.append_nil]⟩
  | cons piece rest ih =>
      cases hmake with
      | @cons _ head _ _ _ hhead hrest =>
          obtain ⟨first, last, rfl, hfirst, hlast⟩ := ih hrest
          rw [List.append_assoc] at hlast
          exact ⟨head ++ first, last, (List.append_assoc _ _ _).symm,
            .cons hhead hfirst, hlast⟩

theorem PiecesMake.single {piece : Piece}
    (hmake : PiecesMake base [piece] bytes) :
    piece.Makes base bytes := by
  cases hmake with
  | cons hfirst hrest =>
      cases hrest
      rwa [List.append_nil]

theorem PiecesMake.first {piece : Piece}
    (hmake : PiecesMake base (piece :: others) bytes) :
    ∃ first last, bytes = first ++ last ∧ piece.Makes base first ∧
      PiecesMake (base ++ first) others last := by
  cases hmake with
  | cons hfirst hrest => exact ⟨_, _, rfl, hfirst, hrest⟩

theorem reads_inquiry {inquiry : Inquiry} (hvalid : inquiry.name.isValid)
    (hmake : PiecesMake base (inquiryPieces inquiry) bytes) :
    Reads readInquiry base bytes inquiry := by
  obtain ⟨name, _, rfl, hname, hmake⟩ := hmake.first
  cases hmake.single
  have hread := Spells.reads hname hvalid
  intro after
  simp only [readInquiry, List.flatten_cons, List.flatten_nil, List.append_nil,
    List.append_assoc, hread _, reads_word _ _ _, Option.bind_eq_bind,
    Option.bind_some]
  rfl

theorem reads_strings {strings : List Octets} {steps : Nat}
    (hmake : PiecesMake base (strings.map .string) bytes)
    (hsteps : bytes.length ≤ steps) :
    Reads (strings? (base.length + bytes.length) steps) base bytes strings := by
  intro after
  induction strings generalizing base bytes steps with
  | nil =>
      cases hmake
      cases steps with
      | zero => simp [strings?]
      | succ steps => simp [strings?]
  | cons string rest ih =>
      obtain ⟨_, last, rfl, ⟨hshort, rfl⟩, hrest⟩ := hmake.first
      cases steps with
      | zero => exact absurd hsteps (by simp)
      | succ steps =>
          have hstring := reads_string base hshort
          have hroom : last.length ≤ steps := by
            simp only [List.length_append, List.length_cons] at hsteps
            omega
          have hlast := ih hrest hroom
          rw [List.length_append, Nat.add_assoc, ← List.length_append] at hlast
          have hstop : base.length < base.length +
              (UInt8.ofNat string.length :: string ++ last).length := by simp
          simp only [strings?, between_offset, if_pos hstop, List.append_assoc,
            hstring _, hlast, Option.bind_eq_bind, Option.bind_some]
          rfl

theorem groupsOfOctets_flatMap (groups : List UInt16) :
    Ipv6.groupsOfOctets (groups.flatMap wordBytes) = groups := by
  induction groups with
  | nil => rfl
  | cons group rest ih =>
      simp only [List.flatMap_cons, wordBytes, List.cons_append,
        List.nil_append, Ipv6.groupsOfOctets, wordOfBytes_wordBytes]
      rw [ih]

theorem length_flatMap_wordBytes (groups : List UInt16) :
    (groups.flatMap wordBytes).length = groups.length * 2 := by
  induction groups with
  | nil => rfl
  | cons group rest ih =>
      rw [List.flatMap_cons, List.length_append, length_wordBytes, ih,
        List.length_cons]
      omega

theorem length_octets (address : Ipv6) : address.octets.length = 16 := by
  rw [Ipv6.octets, length_flatMap_wordBytes, address.length_groups]

theorem ofOctets?_octets (address : Ipv6) :
    Ipv6.ofOctets? address.octets = some address := by
  rw [Ipv6.ofOctets?, if_pos (length_octets address), Ipv6.octets,
    groupsOfOctets_flatMap, Ipv6.ofGroups?, dif_pos address.length_groups]

theorem reads_signed (before : Octets) (value : Int32) :
    Reads readSigned before (signedBytes value) value := by
  intro after
  have hread := reads_long before value.toUInt32 after
  simp only [readSigned, signedBytes, hread, Option.bind_eq_bind,
    Option.bind_some]
  rfl

theorem reads_address (base : Octets) (address : Ipv4) :
    Reads (fun cursor => cursor.take? 4) base
      (address.octets.map fun octet => [octet]).flatten address.octets :=
  reads_take base address.octets

theorem reads_longAddress (base : Octets) (address : Ipv6) :
    Reads (fun cursor => cursor.take? 16) base
      (address.groups.map wordBytes).flatten address.octets := by
  have hread := reads_take base address.octets
  rwa [length_octets] at hread

/-- What data is made of is read as the data, but for the case of a service's
host. -/
theorem reads_known {data : RecordData Labels Octets}
    (hnames : ∀ name ∈ data.names, name.isValid)
    (hmake : PiecesMake base (dataPieces data) bytes) :
    Reads (readKnown data.type? bytes.length) base bytes data.sent := by
  intro after
  cases data with
  | a address =>
      cases hmake.single
      have hread := reads_address base address after
      simp only [readKnown, RecordData.type?, hread, Option.bind_eq_bind,
        Option.bind_some]
      rfl
  | aaaa address =>
      cases hmake.single
      have hread := reads_longAddress base address after
      simp only [readKnown, RecordData.type?, hread, ofOctets?_octets,
        Option.bind_eq_bind, Option.bind_some]
      rfl
  | ptr target =>
      have hread :=
        Spells.reads hmake.single (hnames target List.mem_cons_self) after
      simp only [readKnown, RecordData.type?, hread, Option.bind_eq_bind,
        Option.bind_some]
      rfl
  | ns target =>
      have hread :=
        Spells.reads hmake.single (hnames target List.mem_cons_self) after
      simp only [readKnown, RecordData.type?, hread, Option.bind_eq_bind,
        Option.bind_some]
      rfl
  | cname target =>
      have hread :=
        Spells.reads hmake.single (hnames target List.mem_cons_self) after
      simp only [readKnown, RecordData.type?, hread, Option.bind_eq_bind,
        Option.bind_some]
      rfl
  | mx preference exchange =>
      obtain ⟨_, name, rfl, rfl, hmake⟩ := hmake.first
      have hread :=
        Spells.reads hmake.single (hnames exchange List.mem_cons_self) after
      rw [List.flatten_singleton] at hread ⊢
      simp only [readKnown, RecordData.type?, List.append_assoc,
        reads_word _ _ _, hread, Option.bind_eq_bind, Option.bind_some]
      rfl
  | soa primary mailbox serial refresh retry expire minimum =>
      obtain ⟨first, _, rfl, hfirst, hmake⟩ := hmake.first
      obtain ⟨second, _, rfl, hsecond, hmake⟩ := hmake.first
      cases hmake.single
      have hprimary := Spells.reads hfirst (hnames primary List.mem_cons_self)
      have hmailbox :=
        Spells.reads hsecond (hnames mailbox (by simp [RecordData.names]))
      simp only [readKnown, RecordData.type?, List.flatten_cons,
        List.flatten_nil, List.append_nil, List.append_assoc, hprimary _,
        hmailbox _, reads_long _ _ _, reads_signed _ _ _, Option.bind_eq_bind,
        Option.bind_some]
      rfl
  | srv priority weight port target =>
      obtain ⟨_, name, rfl, rfl, hmake⟩ := hmake.first
      have hvalid := isValid_lower (hnames target List.mem_cons_self)
      have hread := Spells.reads hmake.single hvalid after
      simp only [List.flatten_cons, List.flatten_nil, List.append_nil,
        List.append_assoc] at hread
      simp only [readKnown, RecordData.type?, List.flatten_cons,
        List.flatten_nil, List.append_nil, List.append_assoc,
        reads_word _ _ _, Option.bind_eq_bind, Option.bind_some, hread]
      rfl
  | txt strings =>
      have hread := reads_strings hmake (Nat.le_refl bytes.length) after
      simp only [readKnown, RecordData.type?, between_offset, hread,
        Option.bind_eq_bind, Option.bind_some]
      rfl

end Reading

end Message

end DnsForwarder
