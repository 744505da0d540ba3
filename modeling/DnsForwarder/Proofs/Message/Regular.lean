import DnsForwarder.Proofs.Message.Decoding
import DnsForwarder.Proofs.Message.Sections

/-! What a decoded message holds can be encoded again: its names keep the bounds
on names, and no text is without strings. -/

namespace DnsForwarder.Message

open Cursor

variable {cursor behind : Cursor} {limit : Option Nat} {labels : Labels}

theorem length_of_take? {count : Nat} {bytes : Octets}
    (htake : cursor.take? count = some (bytes, behind)) :
    bytes.length = count := by
  rw [take?] at htake
  split at htake
  next hlength =>
    cases htake
    exact hlength
  next => cases htake

theorem readRun_bounds {steps : Nat} {run : Run}
    (hread : readRun limit steps cursor = some run) :
    ∀ label ∈ run.labels, 1 ≤ label.length ∧ label.length ≤ 63 := by
  induction steps generalizing cursor run with
  | zero => cases hread
  | succ steps ih =>
      rw [readRun] at hread
      split at hread
      next => cases hread
      next =>
        split at hread
        next => cases hread
        next size next hbyte =>
          split at hread
          next =>
            cases hread
            exact List.forall_mem_nil _
          next hsize =>
            split at hread
            next hlabel =>
              simp only [Option.bind_eq_bind, Option.bind_eq_some_iff] at hread
              obtain ⟨⟨label, rest⟩, htake, others, hothers, hread⟩ := hread
              cases hread
              have hlength := length_of_take? htake
              have hpos : size.toNat ≠ 0 :=
                fun hzero => hsize (UInt8.toNat_inj.mp hzero)
              have hsmall : size.toNat < 64 := UInt8.lt_iff_toNat_lt.mp hlabel
              rw [List.forall_mem_cons, hlength]
              exact ⟨⟨Nat.pos_of_ne_zero hpos, Nat.le_of_lt_succ hsmall⟩,
                ih hothers⟩
            next =>
              split at hread
              next =>
                simp only [Option.bind_eq_bind, Option.bind_eq_some_iff]
                  at hread
                obtain ⟨_, -, hread⟩ := hread
                cases hread
                exact List.forall_mem_nil _
              next => cases hread

theorem readLabels_bounds {hops start : Nat}
    (hread : readLabels limit hops start cursor = some (labels, behind)) :
    ∀ label ∈ labels, 1 ≤ label.length ∧ label.length ≤ 63 := by
  induction hops generalizing limit start cursor labels behind with
  | zero => cases hread
  | succ hops ih =>
      simp only [readLabels, Option.bind_eq_bind, Option.bind_eq_some_iff]
        at hread
      obtain ⟨run, hrun, hread⟩ := hread
      have hfirst := readRun_bounds hrun
      split at hread
      next =>
        cases hread
        exact hfirst
      next =>
        split at hread
        next =>
          simp only [Option.bind_eq_some_iff] at hread
          obtain ⟨⟨others, rest⟩, hothers, hread⟩ := hread
          cases hread
          intro label hlabel
          rcases List.mem_append.mp hlabel with hlabel | hlabel
          · exact hfirst label hlabel
          · exact ih hothers label hlabel
        next => cases hread

theorem readName_isValid (hread : readName cursor = some (labels, behind)) :
    labels.isValid := by
  refine labels_isValid_iff.mpr ⟨?_, readName_short hread⟩
  simp only [readName, Option.bind_eq_bind, Option.bind_eq_some_iff] at hread
  obtain ⟨⟨found, rest⟩, hlabels, hread⟩ := hread
  split at hread
  next =>
    cases hread
    exact readLabels_bounds hlabels
  next => cases hread

theorem readInquiry_isValid {inquiry : Inquiry}
    (hread : readInquiry cursor = some (inquiry, behind)) :
    inquiry.name.isValid := by
  simp only [readInquiry, Option.bind_eq_bind, Option.bind_eq_some_iff] at hread
  obtain ⟨⟨name, rest⟩, hname, _, -, _, -, hread⟩ := hread
  cases hread
  exact readName_isValid hname

theorem decode?_isValid {bytes : Octets} {message : Message}
    (hdecode : decode? bytes = some message) :
    ∀ inquiry ∈ message.questions, inquiry.name.isValid := by
  obtain ⟨-, count, next, behind, -, hquestions⟩ := decode?_cases hdecode
  exact readMany_forall (fun _ _ _ => readInquiry_isValid) hquestions

theorem strings?_ne_nil {size : Nat} {strings : List Octets}
    (hsize : size ≠ 0)
    (hread : cursor.strings? (cursor.offset + size) size =
      some (strings, behind)) :
    strings ≠ [] := by
  obtain ⟨size, rfl⟩ := Nat.exists_eq_succ_of_ne_zero hsize
  have hbefore : cursor.offset < cursor.offset + (size + 1) := by omega
  rw [strings?, if_pos hbefore] at hread
  simp only [Option.bind_eq_bind, Option.bind_eq_some_iff] at hread
  obtain ⟨_, -, _, -, hread⟩ := hread
  cases hread
  exact List.cons_ne_nil _ _

theorem readKnown_regular {type? : Option RecordType} {size : Nat}
    {data : RecordData Labels Octets} (hsize : size ≠ 0)
    (hread : readKnown type? size cursor = some (data, behind)) :
    data.Regular := by
  cases type? with
  | none =>
      simp only [readKnown, Option.bind_eq_bind, Option.bind_eq_some_iff]
        at hread
      obtain ⟨⟨target, rest⟩, hname, hread⟩ := hread
      cases hread
      exact ⟨List.forall_mem_singleton.mpr (readName_isValid hname), by simp⟩
  | some type =>
      cases type <;>
        simp only [readKnown, Option.bind_eq_bind, Option.bind_eq_some_iff]
          at hread
      case a | aaaa =>
        obtain ⟨_, -, _, -, hread⟩ := hread
        cases hread
        exact ⟨List.forall_mem_nil _, by simp⟩
      case ptr | ns =>
        obtain ⟨⟨target, rest⟩, hname, hread⟩ := hread
        cases hread
        exact ⟨List.forall_mem_singleton.mpr (readName_isValid hname), by simp⟩
      case mx =>
        obtain ⟨_, -, ⟨exchange, rest⟩, hname, hread⟩ := hread
        cases hread
        exact ⟨List.forall_mem_singleton.mpr (readName_isValid hname), by simp⟩
      case soa =>
        obtain ⟨⟨primary, _⟩, hprimary, ⟨mailbox, _⟩, hmailbox, _, -, _, -,
          _, -, _, -, _, -, hread⟩ := hread
        cases hread
        refine ⟨?_, by simp⟩
        simp only [RecordData.names, List.forall_mem_cons]
        exact ⟨readName_isValid hprimary, readName_isValid hmailbox,
          List.forall_mem_nil _⟩
      case srv =>
        obtain ⟨_, -, _, -, _, -, ⟨target, rest⟩, hname, hread⟩ := hread
        cases hread
        exact ⟨List.forall_mem_singleton.mpr (readName_isValid hname), by simp⟩
      case txt =>
        obtain ⟨⟨strings, rest⟩, hstrings, hread⟩ := hread
        cases hread
        refine ⟨List.forall_mem_nil _, ?_⟩
        intro hnil
        exact strings?_ne_nil hsize hstrings (RecordData.txt.inj hnil)

theorem readData_regular {typeCode : UInt16} {size : Nat}
    {data? : Option (RecordData Labels Octets)}
    (hread : readData typeCode size cursor = some (data?, behind)) :
    ∀ data ∈ data?, data.Regular := by
  simp only [readData, Option.bind_eq_bind, Option.bind_eq_some_iff] at hread
  obtain ⟨_, -, hread⟩ := hread
  split at hread
  next =>
    cases hread
    exact fun _ hdata => absurd hdata (Option.not_mem_none _)
  next hsize =>
    split at hread
    next =>
      simp only [Option.bind_eq_some_iff, Option.map_eq_some_iff] at hread
      obtain ⟨_, ⟨_, -, rfl⟩, hread⟩ := hread
      split at hread
      next =>
        cases hread
        exact fun _ hdata => absurd hdata (Option.not_mem_none _)
      next => cases hread
    next =>
      simp only [Option.bind_eq_some_iff, Option.map_eq_some_iff] at hread
      obtain ⟨_, ⟨⟨data, used⟩, hknown, rfl⟩, hread⟩ := hread
      split at hread
      next =>
        cases hread
        rintro _ ⟨⟩
        exact readKnown_regular hsize hknown
      next => cases hread

theorem readEntry_regular {entry : Entry}
    (hread : readEntry cursor = some (entry, behind)) :
    ∀ record ∈ entry.record?, record.Regular := by
  simp only [readEntry, Option.bind_eq_bind, Option.bind_eq_some_iff] at hread
  obtain ⟨⟨owner, _⟩, howner, _, -, hread⟩ := hread
  split at hread
  next => cases hread
  next =>
    simp only [Option.bind_eq_some_iff] at hread
    obtain ⟨_, -, _, -, _, -, ⟨data?, _⟩, hdata, hread⟩ := hread
    cases hread
    intro record hrecord
    obtain ⟨data, rfl, rfl⟩ := Option.map_eq_some_iff.mp hrecord
    exact ⟨readName_isValid howner, readData_regular hdata data rfl⟩

theorem decode?_answers {bytes : Octets} {message : Message}
    (hdecode : decode? bytes = some message) :
    ∃ count next behind, readMany readEntry count next =
      some (message.answers, behind) := by
  simp only [decode?, Option.bind_eq_bind, Option.bind_eq_some_iff] at hdecode
  obtain ⟨_, -, _, -, ⟨count, _⟩, -, _, -, _, -, ⟨_, next⟩, -,
    ⟨answers, behind⟩, hanswers, _, -, _, -, hdecode⟩ := hdecode
  split at hdecode
  next => cases hdecode
  next =>
    cases hdecode
    exact ⟨count.toNat, next, behind, hanswers⟩

theorem decode?_regular {bytes : Octets} {message : Message}
    (hdecode : decode? bytes = some message) :
    ∀ record ∈ message.answers.filterMap Entry.record?, record.Regular := by
  obtain ⟨count, next, behind, hanswers⟩ := decode?_answers hdecode
  intro record hrecord
  obtain ⟨entry, hentry, hsome⟩ := List.mem_filterMap.mp hrecord
  exact readMany_forall (fun _ _ _ => readEntry_regular) hanswers entry hentry
    record hsome

end DnsForwarder.Message
