import DnsForwarder.Message.NameReader
import DnsForwarder.Message.Writer

/-! Names between writing and reading. A relation says which bytes spell which
labels behind a given beginning of a message, pointers included. What is written
spells its labels and keeps the table of earlier names right; what spells labels
reads as them. -/

namespace DnsForwarder.Message

def Cursor.between (before after : Octets) : Cursor :=
  ⟨before ++ after, before.length, after⟩

/-- Whatever follows, the piece is read as the value. -/
abbrev Reads {α : Type} (read : Cursor → Option (α × Cursor))
    (before piece : Octets) (value : α) :
    Prop :=
  ∀ after, read (.between before (piece ++ after)) =
    some (value, .between (before ++ piece) after)

namespace Cursor

theorem ofOffset_between (before after : Octets) :
    ofOffset (before ++ after) before.length = between before after := by
  simp [ofOffset, between]

@[simp] theorem between_offset (before after : Octets) :
    (between before after).offset = before.length := rfl

@[simp] theorem between_message (before after : Octets) :
    (between before after).message = before ++ after := rfl

theorem byte?_between (before : Octets) (byte : UInt8) (after : Octets) :
    byte? (between before (byte :: after)) =
      some (byte, between (before ++ [byte]) after) := by
  simp [byte?, between]

theorem reads_word (before : Octets) (word : UInt16) :
    Reads word? before (wordBytes word) word := by
  intro after
  simp only [word?, between, wordBytes, List.cons_append, List.nil_append,
    wordOfBytes_wordBytes]
  simp

theorem reads_long (before : Octets) (long : UInt32) :
    Reads long? before (longBytes long) long := by
  intro after
  simp only [long?, longBytes, List.append_assoc, reads_word,
    Option.bind_eq_bind, Option.bind_some, longOfWords_halves]
  rfl

theorem reads_take (before bytes : Octets) :
    Reads (fun cursor => cursor.take? bytes.length) before bytes bytes := by
  intro after
  simp [take?, between]

theorem reads_string (before : Octets) {bytes : Octets}
    (hshort : bytes.length ≤ 255) :
    Reads string? before (UInt8.ofNat bytes.length :: bytes) bytes := by
  intro after
  have hsize : (UInt8.ofNat bytes.length).toNat = bytes.length := by
    rw [UInt8.toNat_ofNat']
    omega
  have htake := reads_take (before ++ [UInt8.ofNat bytes.length]) bytes after
  simp only [string?, List.cons_append, byte?_between, Option.bind_eq_bind,
    Option.bind_some, hsize,
    htake, List.append_assoc, List.cons_append, List.nil_append]

end Cursor

open Cursor

/-- Bytes that spell labels behind a beginning of a message. A pointer leads to
bytes that spell the labels behind what stands before them. -/
inductive Spells : Octets → Labels → Octets → Prop
  | root (base : Octets) : Spells base [] [0]
  | label {base bytes : Octets} {label : Label} {labels : Labels}
    (hleast : 1 ≤ label.length)
      (hmost : label.length ≤ 63) (hspells : Spells base labels bytes) :
      Spells base (label :: labels) (labelBytes label ++ bytes)
  | pointer {earlier bytes : Octets} {labels : Labels} (later : Octets)
      (hnear : earlier.length < 0x4000)
      (hspells : Spells earlier labels bytes) :
      Spells (earlier ++ bytes ++ later) labels (pointerBytes earlier.length)

variable {base bytes before after : Octets} {labels others : Labels}
  {label : Label} {limit : Option Nat} {steps target : Nat}

theorem Spells.append (hspells : Spells base labels bytes) (more : Octets) :
    Spells (base ++ more) labels bytes := by
  induction hspells with
  | root base => exact .root _
  | label hleast hmost hspells ih => exact .label hleast hmost (ih)
  | pointer later hnear hspells ih =>
      rw [List.append_assoc _ later more]
      exact .pointer (later ++ more) hnear hspells

theorem Spells.length_pos (hspells : Spells base labels bytes) :
    0 < bytes.length := by
  cases hspells with
  | root => exact Nat.one_pos
  | label => exact Nat.succ_pos _
  | pointer => exact Nat.two_pos

theorem readRun_cons (byte : UInt8) (hlimit : limit.all (before.length < ·)) :
    readRun limit (steps + 1) (between before (byte :: after)) =
      if byte = 0 then some ⟨[], none, between (before ++ [byte]) after⟩
      else if byte < 0x40 then do
        let (label, behind) ←
            (between (before ++ [byte]) after).take? byte.toNat
        let run ← readRun limit steps behind
        return { run with labels := label :: run.labels }
      else if 0xC0 ≤ byte then do
        let (pointer, behind) ← (between before (byte :: after)).word?
        return ⟨[], some (pointer.toNat % 0x4000), behind⟩
      else none := by
  have hopen :
      ¬limit.any (· ≤ (between before (byte :: after)).offset) = true := by
    cases limit with
    | none => nofun
    | some bound =>
        simp only [Option.any_some, Option.all_some, decide_eq_true_eq]
          at hlimit ⊢
        exact Nat.not_le.mpr hlimit
  rw [readRun, if_neg hopen, byte?_between]

theorem readRun_root (hlimit : limit.all (before.length < ·)) :
    readRun limit (steps + 1) (between before ([0] ++ after)) =
      some ⟨[], none, between (before ++ [0]) after⟩ := by
  rw [List.singleton_append, readRun_cons 0 hlimit, if_pos rfl]

theorem readRun_label (hleast : 1 ≤ label.length) (hmost : label.length ≤ 63)
    (hlimit : limit.all (before.length < ·)) :
    readRun limit (steps + 1) (between before (labelBytes label ++ after)) =
      (readRun limit steps (between (before ++ labelBytes label) after)).map
        fun run => { run with labels := label :: run.labels } := by
  have hsize : (UInt8.ofNat label.length).toNat = label.length := by
    rw [UInt8.toNat_ofNat']
    omega
  have hzero : UInt8.ofNat label.length ≠ 0 := by
    intro hzero
    rw [hzero] at hsize
    exact absurd hsize (by simp; omega)
  have hlow : UInt8.ofNat label.length < 0x40 := by
    rw [UInt8.lt_iff_toNat_lt, hsize]
    exact Nat.lt_succ_of_le hmost
  have htake := reads_take (before ++ [UInt8.ofNat label.length]) label after
  rw [labelBytes, List.cons_append, readRun_cons _ hlimit, if_neg hzero,
    if_pos hlow, hsize]
  simp only [htake, Option.bind_eq_bind, Option.bind_some, List.append_assoc,
    List.singleton_append]
  cases readRun limit steps
    (between (before ++ UInt8.ofNat label.length :: label) after) <;> rfl

theorem readRun_pointer (hnear : target < 0x4000)
    (hlimit : limit.all (before.length < ·)) :
    readRun limit (steps + 1) (between before (pointerBytes target ++ after)) =
      some ⟨[], some target,
        between (before ++ pointerBytes target) after⟩ := by
  have hword : (UInt16.ofNat (0xC000 + target)).toNat = 0xC000 + target := by
    rw [UInt16.toNat_ofNat']
    omega
  obtain ⟨high, low, hbytes, hhigh⟩ :
      ∃ high low, pointerBytes target = [high, low] ∧
        high.toNat = 0xC0 + target / 256 := by
    refine ⟨_, _, rfl, ?_⟩
    rw [hword, UInt8.toNat_ofNat']
    omega
  have hnonzero : high ≠ 0 := by
    intro hzero
    rw [hzero] at hhigh
    exact absurd hhigh (by simp; omega)
  have hlarge : ¬high < 0x40 := by
    rw [UInt8.lt_iff_toNat_lt, hhigh]
    exact Nat.not_lt.mpr (Nat.le_trans (by decide) (Nat.le_add_right _ _))
  have hpointer : 0xC0 ≤ high := by
    rw [UInt8.le_iff_toNat_le, hhigh]
    exact Nat.le_add_right _ _
  have hread := reads_word before (UInt16.ofNat (0xC000 + target)) after
  rw [← pointerBytes, hbytes] at hread
  simp only [List.cons_append, List.nil_append] at hread
  rw [hbytes, List.cons_append, readRun_cons high hlimit, if_neg hnonzero,
    if_neg hlarge, if_pos hpointer]
  have htarget : (0xC000 + target) % 0x4000 = target := by omega
  simp only [List.cons_append, List.nil_append, hread, Option.bind_eq_bind,
    Option.bind_some, hword, htarget]
  rfl

/-- Where bytes spell labels, a run is read up to the first pointer. What it
leads to spells the other labels. -/
theorem Spells.run (hspells : Spells base labels bytes) :
    ∃ first target?,
      (∀ limit steps before after, labels.length < steps →
        limit.all (before.length + bytes.length ≤ ·) →
        readRun limit steps (between before (bytes ++ after)) =
          some ⟨first, target?, between (before ++ bytes) after⟩) ∧
      (target? = none ∧ first = labels ∨
        ∃ earlier piece later others, target? = some earlier.length ∧
          base = earlier ++ piece ++ later ∧ Spells earlier others piece ∧
          labels = first ++ others) := by
  induction hspells with
  | root base =>
      refine ⟨[], none, ?_, .inl ⟨rfl, rfl⟩⟩
      intro limit steps before after hsteps hlimit
      obtain ⟨steps, rfl⟩ := Nat.exists_eq_succ_of_ne_zero (Nat.ne_of_gt hsteps)
      exact readRun_root hlimit
  | @label base bytes label labels hleast hmost hspells ih =>
      obtain ⟨first, target?, hrun, hend⟩ := ih
      refine ⟨label :: first, target?, ?_, ?_⟩
      · intro limit steps before after hsteps hlimit
        obtain ⟨steps, rfl⟩ :=
          Nat.exists_eq_succ_of_ne_zero
            (Nat.ne_of_gt (Nat.zero_lt_of_lt hsteps))
        have hopen : limit.all (before.length < ·) := by
          cases limit with
          | none => rfl
          | some bound =>
              simp only [Option.all_some, List.length_append, labelBytes,
                List.length_cons, decide_eq_true_eq] at hlimit ⊢
              omega
        have hrest :
            limit.all ((before ++ labelBytes label).length +
              bytes.length ≤ ·) := by
          simpa only [List.length_append, Nat.add_assoc] using hlimit
        rw [List.append_assoc, readRun_label hleast hmost hopen,
          hrun limit steps _ after (Nat.lt_of_succ_lt_succ hsteps) hrest]
        simp only [Option.map_some, List.append_assoc]
      · rcases hend with ⟨hnone, rfl⟩ |
          ⟨earlier, piece, later, others, htarget, hbase, hothers, rfl⟩
        · exact .inl ⟨hnone, rfl⟩
        · exact .inr ⟨earlier, piece, later, others, htarget, hbase,
            hothers, rfl⟩
  | @pointer earlier bytes labels later hnear hspells ih =>
      refine ⟨[], some earlier.length, ?_,
        .inr ⟨earlier, bytes, later, labels, rfl, rfl, hspells, rfl⟩⟩
      intro limit steps before after hsteps hlimit
      obtain ⟨steps, rfl⟩ :=
        Nat.exists_eq_succ_of_ne_zero (Nat.ne_of_gt (Nat.zero_lt_of_lt hsteps))
      have hopen : limit.all (before.length < ·) := by
        cases limit with
        | none => rfl
        | some bound =>
            have hsize : (pointerBytes earlier.length).length = 2 := rfl
            simp only [Option.all_some, hsize, decide_eq_true_eq] at hlimit ⊢
            omega
      exact readRun_pointer hnear hopen

/-- Pointers lead to before the name that they end, so each hop has a shorter
beginning of the message left. -/
theorem Spells.readLabels {hops : Nat} (hspells : Spells base labels bytes)
    (hcount : labels.length < maxSteps)
    (hlimit : limit.all (base.length + bytes.length ≤ ·))
    (hhops : base.length < hops) :
    readLabels limit hops base.length (between base (bytes ++ after)) =
      some (labels, between (base ++ bytes) after) := by
  induction hops generalizing base labels bytes limit after with
  | zero => exact absurd hhops (Nat.not_lt_zero _)
  | succ hops ih =>
      obtain ⟨first, target?, hrun, hend⟩ := hspells.run
      rw [Message.readLabels, hrun limit maxSteps base after hcount hlimit]
      rcases hend with ⟨rfl, rfl⟩ | ⟨earlier, piece, later, others, rfl, rfl,
        hothers, rfl⟩
      · rfl
      · have hback : earlier.length < (earlier ++ piece ++ later).length := by
          have hpiece := hothers.length_pos
          simp only [List.length_append]
          omega
        have hread :
            Message.readLabels (some (earlier ++ piece ++ later).length) hops
            earlier.length
            (between earlier (piece ++ (later ++ (bytes ++ after)))) =
            some (others, between (earlier ++ piece)
              (later ++ (bytes ++ after))) :=
          ih hothers (Nat.lt_of_le_of_lt (by simp) hcount) (by simp)
            (Nat.lt_of_lt_of_le hback (Nat.le_of_lt_succ hhops))
        have hmessage : earlier ++ piece ++ later ++ (bytes ++ after) =
            earlier ++ (piece ++ (later ++ (bytes ++ after))) := by
          simp only [List.append_assoc]
        simp only [Option.bind_eq_bind, Option.bind_some, if_pos hback,
          between_message, hmessage, ofOffset_between, hread]
        rfl

theorem length_le_span (hlabels : ∀ label ∈ labels, 1 ≤ label.length) :
    2 * labels.length ≤ labels.span := by
  induction labels with
  | nil => exact Nat.le_refl 0
  | cons label rest ih =>
      have hlabel := hlabels label List.mem_cons_self
      have hrest := ih fun other hother =>
        hlabels other (List.mem_cons_of_mem _ hother)
      rw [List.length_cons, Labels.span_cons]
      omega

theorem labels_isValid_iff : labels.isValid ↔
    (∀ label ∈ labels, 1 ≤ label.length ∧ label.length ≤ 63) ∧
      labels.span + 1 ≤ Labels.maxLength := by
  simp [Labels.isValid]

theorem isValid_lower (hvalid : labels.isValid) : labels.lower.isValid := by
  obtain ⟨hlabels, hspan⟩ := labels_isValid_iff.mp hvalid
  refine labels_isValid_iff.mpr ⟨?_, by rwa [Labels.span_lower]⟩
  intro label hlabel
  obtain ⟨other, hother, rfl⟩ := List.mem_map.mp hlabel
  rw [List.length_map]
  exact hlabels other hother

theorem Spells.reads (hspells : Spells base labels bytes)
    (hvalid : labels.isValid) :
    Reads readName base bytes labels := by
  intro after
  obtain ⟨hlabels, hspan⟩ := labels_isValid_iff.mp hvalid
  have hcount : labels.length < maxSteps := by
    have hle := length_le_span fun label hlabel => (hlabels label hlabel).1
    simp only [maxSteps, Labels.maxLength] at hspan ⊢
    omega
  have hread : Message.readLabels none (base.length + 1) base.length
      (between base (bytes ++ after)) =
      some (labels, between (base ++ bytes) after) :=
    hspells.readLabels hcount rfl (Nat.lt_succ_self base.length)
  simp only [readName, between_offset, hread, Option.bind_eq_bind,
    Option.bind_some, if_pos hspan]
  rfl

/-- Bytes at the offset spell the labels, and a pointer can lead to them. -/
def Stands (base : Octets) (labels : Labels) (offset : Nat) : Prop :=
  ∃ earlier bytes later, base = earlier ++ bytes ++ later ∧
    earlier.length = offset ∧ offset < 0x4000 ∧ Spells earlier labels bytes

theorem Stands.append {offset : Nat} (hstands : Stands base labels offset)
    (more : Octets) :
    Stands (base ++ more) labels offset := by
  obtain ⟨earlier, bytes, later, rfl, hoffset, hnear, hspells⟩ := hstands
  exact ⟨earlier, bytes, later ++ more, List.append_assoc _ _ _, hoffset,
    hnear, hspells⟩

def Table.Sound (table : Table) (base : Octets) : Prop :=
  ∀ entry ∈ table, Stands base entry.1 entry.2

theorem Table.sound_nil (base : Octets) : Sound [] base := nofun

theorem Table.Sound.append {table : Table} (hsound : table.Sound base)
    (more : Octets) :
    table.Sound (base ++ more) :=
  fun entry hentry => (hsound entry hentry).append more

theorem Table.Sound.lookup {table : Table} (hsound : table.Sound base)
    (hfound : table.lookup labels = some target) :
    Stands base labels target := by
  obtain ⟨front, back, rfl, -⟩ := List.lookup_eq_some_iff.mp hfound
  exact hsound (labels, target) (by simp)

section Writing

variable {stop : Nat} {table : Table}

theorem mem_remember {offset : Nat} {entry : Labels × Nat}
    (hentry : entry ∈ table.remember stop offset labels) :
    entry ∈ table ∨ entry = (labels, offset) ∧ stop < tableLimit := by
  rw [Table.remember] at hentry
  split at hentry
  next hbelow =>
    rcases List.mem_cons.mp hentry with hnew | hold
    · exact .inr ⟨hnew, hbelow⟩
    · exact .inl hold
  next => exact .inl hentry

theorem stands_of_remembered {middle : Octets}
    (hspells : Spells base labels bytes)
    (hstop : (base ++ middle).length ≤ stop) (hbelow : stop < tableLimit) :
    Stands (base ++ (middle ++ bytes)) labels (base ++ middle).length := by
  refine ⟨base ++ middle, bytes, [], by simp, rfl, ?_, hspells.append middle⟩
  simp only [tableLimit] at hbelow
  omega

theorem labelBytes_span (middle : Octets) (label : Label) (rest : Labels) :
    (base ++ (middle ++ labelBytes label)).length + rest.span =
      (base ++ middle).length + Labels.span (label :: rest) := by
  simp only [labelBytes, List.length_append, List.length_cons, Labels.span_cons]
  omega

/-- The ends of the name itself that the table gains are longer than what is
left to write, so what is looked up stands in front of the name. -/
theorem writeLabels_spells (base middle : Octets) (stop : Nat) (table : Table)
    (hlabels : ∀ label ∈ labels, 1 ≤ label.length ∧ label.length ≤ 63)
    (hstop : (base ++ middle).length + labels.span ≤ stop)
    (hknown : ∀ ending target, ending <:+ labels → table.lookup ending =
      some target → Stands base ending target) :
    let written := writeLabels stop table (base ++ middle).length labels
    Spells base labels written.1 ∧
      ∀ entry ∈ written.2, entry ∈ table ∨
        Stands (base ++ (middle ++ written.1)) entry.1 entry.2 := by
  induction labels generalizing table middle with
  | nil => exact ⟨.root base, fun entry hentry => .inl hentry⟩
  | cons label rest ih =>
      cases hlookup : table.lookup (label :: rest) with
      | some target =>
          obtain ⟨earlier, bytes, later, rfl, rfl, hnear, hspells⟩ :=
            hknown _ target List.suffix_rfl hlookup
          simp only [writeLabels, hlookup]
          exact ⟨.pointer later hnear hspells, fun entry hentry => .inl hentry⟩
      | none =>
          obtain ⟨⟨hleast, hmost⟩, hothers⟩ := List.forall_mem_cons.mp hlabels
          have hoffset : (base ++ middle).length + label.length + 1 =
              (base ++ (middle ++ labelBytes label)).length := by
            simp only [labelBytes, List.length_append, List.length_cons]
            omega
          have hrest : ∀ ending target, ending <:+ rest →
              (table.remember stop (base ++ middle).length
                (label :: rest)).lookup ending =
                some target → Stands base ending target := by
            intro ending target hending hfound
            apply hknown ending target
              (hending.trans (List.suffix_cons label rest))
            rw [Table.remember] at hfound
            split at hfound
            next =>
              have hshorter : (ending == label :: rest) = false := by
                rw [beq_eq_false_iff_ne]
                rintro rfl
                exact absurd hending.length_le (by simp)
              rwa [List.lookup_cons, hshorter] at hfound
            next => exact hfound
          obtain ⟨hspells, htable⟩ := ih (middle ++ labelBytes label) _ hothers
            (by rwa [labelBytes_span]) hrest
          simp only [writeLabels, hlookup, hoffset]
          refine ⟨.label hleast hmost hspells, fun entry hentry => ?_⟩
          rcases htable entry hentry with hentry | hstands
          · rcases mem_remember hentry with hold | ⟨rfl, hbelow⟩
            · exact .inl hold
            · exact .inr (stands_of_remembered (.label hleast hmost hspells)
                (Nat.le_trans (Nat.le_add_right _ _) hstop) hbelow)
          · rw [List.append_assoc] at hstands
            exact .inr hstands

theorem writeInFull_spells (base middle : Octets) (stop : Nat) (table : Table)
    (hlabels : ∀ label ∈ labels, 1 ≤ label.length ∧ label.length ≤ 63)
    (hstop : (base ++ middle).length + labels.span ≤ stop) :
    let written := writeInFull stop table (base ++ middle).length labels
    Spells base labels written.1 ∧
      ∀ entry ∈ written.2, entry ∈ table ∨
        Stands (base ++ (middle ++ written.1)) entry.1 entry.2 := by
  induction labels generalizing table middle with
  | nil => exact ⟨.root base, fun entry hentry => .inl hentry⟩
  | cons label rest ih =>
      obtain ⟨⟨hleast, hmost⟩, hothers⟩ := List.forall_mem_cons.mp hlabels
      have hoffset : (base ++ middle).length + label.length + 1 =
          (base ++ (middle ++ labelBytes label)).length := by
        simp only [labelBytes, List.length_append, List.length_cons]
        omega
      obtain ⟨hspells, htable⟩ := ih (middle ++ labelBytes label)
        (if (table.lookup (label :: rest)).isSome then table
          else table.remember stop (base ++ middle).length (label :: rest))
            hothers
        (by rwa [labelBytes_span])
      simp only [writeInFull, hoffset]
      refine ⟨.label hleast hmost hspells, fun entry hentry => ?_⟩
      rcases htable entry hentry with hentry | hstands
      · split at hentry
        next => exact .inl hentry
        next =>
          rcases mem_remember hentry with hold | ⟨rfl, hbelow⟩
          · exact .inl hold
          · exact .inr (stands_of_remembered (.label hleast hmost hspells)
              (Nat.le_trans (Nat.le_add_right _ _) hstop) hbelow)
      · rw [List.append_assoc] at hstands
        exact .inr hstands

end Writing

end DnsForwarder.Message
