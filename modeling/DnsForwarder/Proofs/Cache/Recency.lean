import DnsForwarder.Proofs.Cache.Store
import Mathlib.Data.List.Induction

/-! Which answers a cache holds after any row of accesses to it. It shows no
other answers than those that were stored last for their questions, and it does
not lose such an answer before as many other questions as it has room for were
used since that question was. -/

namespace DnsForwarder

namespace AnswerCache

/-- A visit stored an answer, and none after it cleared the cache or stored
another answer to the question. The latest visit stands first. -/
inductive LastStored : List Visit → Visit → Answer → Prop where
  | now {visit : Visit} {earlier : List Visit} {answer : Answer}
    (hstores : visit.Stores answer) : LastStored (visit :: earlier) visit answer
  | before {visit : Visit} {earlier : List Visit} {source : Visit}
    {answer : Answer}
      (hlast : LastStored earlier source answer)
      (hclear : visit.access ≠ .clear)
      (hother : ∀ other, visit.Stores other →
        other.question ≠ answer.question) :
      LastStored (visit :: earlier) source answer

theorem LastStored.unique {visits : List Visit} {source another : Visit}
    {answer other : Answer} (hsource : LastStored visits source answer)
    (hanother : LastStored visits another other)
    (hsame : answer.question = other.question) :
    source = another ∧ answer = other := by
  induction hsource with
  | now hstores =>
      cases hanother with
      | now hstored => exact ⟨rfl, hstores.unique hstored⟩
      | before _ _ hdifferent => exact absurd hsame (hdifferent _ hstores)
  | before _ _ hdifferent ih =>
      cases hanother with
      | now hstored => exact absurd hsame.symm (hdifferent _ hstored)
      | before hlast _ _ => exact ih hlast hsame

def uses (visits : List Visit) : List Question :=
  visits.filterMap Visit.used?

def otherUses (visits : List Visit) (question : Question) : Nat :=
  (usedSince (uses visits) question).dedup.length

/-- The entries of a cache stand by use, each of them was stored last for its
question, and those that were stored last are there unless they are out of date
or made room for others. -/
structure Kept (capacity : Nat) (maxTtl : UInt32) (cache : AnswerCache)
    (now : Nat) (visits : List Visit) : Prop where
  capacity_eq : cache.capacity = capacity
  maxTtl_eq : cache.maxTtl = maxTtl
  ordered : cache.Ordered (uses visits)
  sound :
    ∀ entry ∈ cache.entries, ∃ source, LastStored visits source entry.answer ∧
    entry.expires = source.expiry maxTtl entry.answer
  complete : ∀ source answer, LastStored visits source answer →
    now < source.expiry maxTtl answer →
    otherUses visits answer.question < capacity →
      ⟨answer, source.expiry maxTtl answer⟩ ∈ cache.entries

namespace Kept

variable {capacity : Nat} {maxTtl : UInt32} {cache : AnswerCache} {now : Nat}
  {visits : List Visit} {access : Access}

theorem start (maxEntries : Nat) (maxTtl : UInt32) :
    Kept (max maxEntries 1) maxTtl (.empty maxEntries maxTtl) 0 [] where
  capacity_eq := rfl
  maxTtl_eq := rfl
  ordered := .empty maxEntries maxTtl
  sound _ hentry := absurd hentry List.not_mem_nil
  complete _ _ hlast := by cases hlast

theorem ordered_perform (hkept : cache.Kept capacity maxTtl now visits)
    (access : Access) :
    (cache.perform now access).1.Ordered
      (uses (cache.visit now access :: visits)) := by
  cases hkept.ordered.outcome now access with
  | clears _ hafter =>
      rw [hafter]
      exact hkept.ordered.clear _
  | uses entry hused _ hafter =>
      rw [hafter, uses, List.filterMap_cons_some hused]
      exact hkept.ordered.promoted entry
  | spares entries hused hafter hsublist _ =>
      rw [hafter, uses, List.filterMap_cons_none hused]
      exact hkept.ordered.of_sublist hsublist

theorem sound_perform (hkept : cache.Kept capacity maxTtl now visits)
    {entry : CacheEntry}
    (hentry : entry ∈ (cache.perform now access).1.entries) :
    ∃ source, LastStored (cache.visit now access :: visits) source
      entry.answer ∧
      entry.expires = source.expiry maxTtl entry.answer := by
  rcases mem_perform hentry with ⟨hold, hclear, hother⟩ | ⟨hstores, hexpires⟩
  · obtain ⟨source, hlast, hexpires⟩ := hkept.sound entry hold
    exact ⟨source, hlast.before hclear hother, hexpires⟩
  · exact ⟨cache.visit now access, .now hstores, hkept.maxTtl_eq ▸ hexpires⟩

theorem complete_perform (hkept : cache.Kept capacity maxTtl now visits)
    {source : Visit} {answer : Answer}
    (hlast : LastStored (cache.visit now access :: visits) source answer)
    (hlive : now < source.expiry maxTtl answer)
    (hroom : otherUses (cache.visit now access :: visits) answer.question <
      capacity) :
    ⟨answer, source.expiry maxTtl answer⟩ ∈
      (cache.perform now access).1.entries := by
  cases hlast with
  | now hstores =>
      have hmem := mem_perform_of_stores hkept.ordered.pos hstores
      rwa [hkept.maxTtl_eq] at hmem
  | before hlast hclear hother =>
      cases hkept.ordered.outcome now access with
      | clears haccess _ => exact absurd haccess hclear
      | uses entry hused hentry hafter =>
          rw [hafter]
          rw [otherUses, uses, List.filterMap_cons_some hused] at hroom
          by_cases hsame : entry.question = answer.question
          · -- What was found was the answer that was stored last.
            have hmem := hentry.resolve_left fun hstores =>
              hother _ hstores hsame
            obtain ⟨another, hanother, hexpires⟩ := hkept.sound entry hmem
            obtain ⟨rfl, rfl⟩ := hlast.unique hanother hsame.symm
            rw [← hexpires]
            exact hkept.ordered.mem_promoted_self entry
          · have hle := dedup_length_le_cons entry.question
              (usedSince (uses visits) answer.question)
            rw [← usedSince_cons_of_ne hsame] at hle
            have hmem :=
              hkept.complete _ _ hlast hlive (Nat.lt_of_le_of_lt hle hroom)
            exact hkept.ordered.mem_promoted hmem hsame
              (hkept.capacity_eq ▸ hroom)
      | spares entries hused hafter _ hfilter =>
          rw [hafter]
          rw [otherUses, uses, List.filterMap_cons_none hused] at hroom
          have hmem := hkept.complete _ _ hlast hlive hroom
          refine List.mem_of_mem_filter
            (hfilter ▸ List.mem_filter.mpr ⟨hmem, ?_⟩)
          exact decide_eq_true hlive

theorem next (hkept : cache.Kept capacity maxTtl now visits) (access : Access) :
    (cache.perform now access).1.Kept capacity maxTtl (access.clock now)
      (cache.visit now access :: visits) where
  capacity_eq := (cache.perform_capacity now access).trans hkept.capacity_eq
  maxTtl_eq := (cache.perform_maxTtl now access).trans hkept.maxTtl_eq
  ordered := hkept.ordered_perform access
  sound _ hentry := hkept.sound_perform hentry
  complete _ _ hlast hlive hroom :=
    hkept.complete_perform hlast
      (Nat.lt_of_le_of_lt (access.le_clock now) hlive) hroom

theorem get_iff (hkept : cache.Kept capacity maxTtl now visits)
    {question : Question} {answer : Answer} :
    (cache.get now question).2 = some answer ↔
      ∃ entry ∈ cache.entries,
        entry.answer = answer ∧ answer.question = question ∧
          now < entry.expires := by
  refine ⟨get_live, ?_⟩
  rintro ⟨entry, hentry, rfl, rfl, hlive⟩
  cases hfind : cache.find? entry.answer.question with
  | none =>
      have hmissing := List.find?_eq_none.mp hfind entry hentry
      simp [CacheEntry.question] at hmissing
  | some found =>
      obtain ⟨hfound, hsame⟩ := mem_of_find? hfind
      obtain rfl := hkept.ordered.eq_of_mem hfound hentry hsame
      simp [get_snd, hfind, Option.filter_some, CacheEntry.isLive, hlive]

theorem live_perform (hkept : cache.Kept capacity maxTtl now visits)
    (hclear : access ≠ .clear) (hused : (cache.visit now access).used? = none) :
    (cache.perform now access).1.entries.filter
      (fun entry => entry.isLive now) =
      cache.entries.filter (fun entry => entry.isLive now) := by
  cases hkept.ordered.outcome now access with
  | clears haccess _ => exact absurd haccess hclear
  | uses entry hentry _ _ => cases hused.symm.trans hentry
  | spares entries _ hafter _ hlive => rw [hafter, hlive]

end Kept

/-- A cache, the time, and the visits to the cache so far, the latest one
first. -/
structure History (σ : Type) where
  cache : σ
  now : Nat := 0
  visits : List Visit := []

namespace History

section

variable {σ : Type} (perform : σ → Nat → Access → σ × Result)

def next (history : History σ) (access : Access) : History σ :=
  let (cache, result) := perform history.cache history.now access
  ⟨cache, access.clock history.now,
    ⟨history.now, access, result⟩ :: history.visits⟩

def run (cache : σ) (accesses : List Access) : History σ :=
  accesses.foldl (next perform) { cache }

def map {τ : Type} (see : σ → τ) (history : History σ) : History τ :=
  ⟨see history.cache, history.now, history.visits⟩

theorem run_append_singleton (cache : σ) (accesses : List Access)
    (access : Access) :
    run perform cache (accesses ++ [access]) =
      next perform (run perform cache accesses) access := by
  rw [run, List.foldl_append]
  rfl

end

theorem run_kept (maxEntries : Nat) (maxTtl : UInt32) (accesses : List Access) :
    let history := run AnswerCache.perform (.empty maxEntries maxTtl) accesses
    history.cache.Kept (max maxEntries 1) maxTtl history.now
    history.visits := by
  induction accesses using List.reverseRecOn with
  | nil => exact .start maxEntries maxTtl
  | append_singleton accesses access ih =>
      rw [run_append_singleton]
      exact ih.next access

/-- Over any store that keeps its entries by use, the same accesses come to the
same. -/
theorem run_map_view {σ : Type} {store : EntryStore σ}
    (hstore : store.KeepsByUse) (maxEntries : Nat) (maxTtl : UInt32)
    (accesses : List Access) :
    (run store.perform (store.start maxEntries maxTtl) accesses).map
      store.view =
      run AnswerCache.perform (.empty maxEntries maxTtl) accesses := by
  induction accesses using List.reverseRecOn with
  | nil =>
      rw [← hstore.view_start maxEntries maxTtl]
      rfl
  | append_singleton accesses access ih =>
      have hkept := run_kept maxEntries maxTtl accesses
      rw [run_append_singleton, run_append_singleton]
      rw [← ih] at hkept ⊢
      have hperform := hstore.perform_view hkept.ordered
        (run store.perform (store.start maxEntries maxTtl) accesses).now access
      simp only [next, map, ← hperform, Prod.map, id]

/-- A cache keeps one answer to a question and not more answers than it may. A
look-up finds the answer that was stored last since the cache was cleared, until
it is out of date or as many other questions as there is room for were used
since its own was. Accesses that neither store nor find an answer leave those
that are not out of date as they are, also in their order. -/
theorem answers_stay_by_use {σ : Type} {store : EntryStore σ}
    (hstore : store.KeepsByUse) (maxEntries : Nat) (maxTtl : UInt32)
    (accesses : List Access) :
    let stored := run store.perform (store.start maxEntries maxTtl) accesses
    let history := run AnswerCache.perform (.empty maxEntries maxTtl) accesses
    stored.map store.view = history ∧
      (history.cache.entries.map CacheEntry.question).Nodup ∧
      store.len stored.cache.entries = history.cache.size ∧
      history.cache.size ≤ max maxEntries 1 ∧
      (∀ question answer, (history.cache.get history.now question).2 =
        some answer →
        answer.question = question ∧
        ∃ source, LastStored history.visits source answer ∧
          history.now < source.expiry maxTtl answer) ∧
      (∀ source answer, LastStored history.visits source answer →
        history.now < source.expiry maxTtl answer →
        otherUses history.visits answer.question < max maxEntries 1 →
          (history.cache.get history.now answer.question).2 = some answer) ∧
      ∀ access, access ≠ .clear →
      (history.cache.visit history.now access).used? = none →
        (history.next AnswerCache.perform access).cache.entries.filter
            (fun entry => entry.isLive history.now) =
          history.cache.entries.filter
          (fun entry => entry.isLive history.now) := by
  intro stored history
  have hkept :
      history.cache.Kept (max maxEntries 1) maxTtl history.now history.visits :=
    run_kept maxEntries maxTtl accesses
  have hview : stored.map store.view = history :=
    run_map_view hstore maxEntries maxTtl accesses
  refine ⟨hview, hkept.ordered.byUse.nodup, ?_, ?_, ?_, ?_, ?_⟩
  · rw [hstore.len_eq, ← hview]
    rfl
  · exact hkept.capacity_eq ▸ hkept.ordered.size
  · intro question answer hget
    obtain ⟨entry, hentry, rfl, hquestion, hlive⟩ := hkept.get_iff.mp hget
    obtain ⟨source, hlast, hexpires⟩ := hkept.sound entry hentry
    exact ⟨hquestion, source, hlast, hexpires ▸ hlive⟩
  · intro source answer hlast hlive hroom
    exact hkept.get_iff.mpr ⟨_, hkept.complete source answer hlast hlive hroom,
      rfl, rfl, hlive⟩
  · intro access hclear hused
    exact hkept.live_perform hclear hused

def hostAnswer (host : String) : Answer :=
  .ofRecords .ok 0 ⟨.a, .name host⟩ [⟨host, 60, .a ⟨192, 0, 2, 1⟩⟩] 300

/-- Between the first and the third answer, the first one is found once. -/
def hostAccesses : List Access :=
  [ .insert (hostAnswer "a.example")
  , .insert (hostAnswer "b.example")
  , .get (hostAnswer "a.example").question
  , .insert (hostAnswer "c.example") ]

/-- The third answer makes the cache drop the second one and not the first. -/
theorem found_answer_outlasts_another :
    let stored :=
      run EntryStore.lists.perform (EntryStore.lists.start 2 86400) hostAccesses
    let history := run AnswerCache.perform (.empty 2 86400) hostAccesses
    let kept := hostAnswer "a.example"
    let source : Visit := ⟨0, .insert kept, .stored true⟩
    stored.map EntryStore.lists.view = history ∧
    LastStored history.visits source kept ∧
      history.now < source.expiry 86400 kept ∧
      otherUses history.visits kept.question < 2 ∧
      (history.cache.get history.now kept.question).2 = some kept ∧
      (history.cache.get history.now (hostAnswer "b.example").question).2 =
      none := by
  intro stored history kept source
  have hlast : LastStored history.visits source kept := by
    refine .before
      (.before (.before (.now ⟨rfl, rfl⟩) nofun ?_) nofun ?_) nofun ?_
    · rintro other ⟨hother, -⟩
      cases hother
      decide
    · rintro other ⟨hother, -⟩
      cases hother
    · rintro other ⟨hother, -⟩
      cases hother
      decide
  have hlive : history.now < source.expiry 86400 kept := by decide +kernel
  have hroom : otherUses history.visits kept.question < 2 := by decide +kernel
  obtain ⟨hview, -, -, -, -, hcomplete, -⟩ :=
    answers_stay_by_use EntryStore.lists_keepsByUse 2 86400 hostAccesses
  exact ⟨hview, hlast, hlive, hroom, hcomplete source kept hlast hlive hroom,
    by decide +kernel⟩

end History

end AnswerCache

end DnsForwarder
