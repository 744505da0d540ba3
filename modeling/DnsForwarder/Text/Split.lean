/-! Cutting a text at a separator, and the join that undoes it. -/

namespace DnsForwarder.Text

/-- The pieces of a text between its separators; a text without one is a single
piece. -/
def split (separator : Char) : List Char → List (List Char)
  | [] => [[]]
  | c :: rest =>
      if c = separator then [] :: split separator rest
      else
        match split separator rest with
        | [] => [[c]]
        | first :: others => (c :: first) :: others

def join (separator : List Char) (pieces : List (List Char)) : List Char :=
  separator.intercalate pieces

def dropEnding? (ending text : List Char) : Option (List Char) :=
  ending.isSuffixOf? text

theorem split_ne_nil (separator : Char) (text : List Char) :
    split separator text ≠ [] := by
  induction text with
  | nil => simp [split]
  | cons c rest _ =>
      by_cases same : c = separator
      · simp [split, same]
      · simp only [split, same, if_false]
        split <;> simp

theorem join_split (separator : Char) (text : List Char) :
    join [separator] (split separator text) = text := by
  induction text with
  | nil => rfl
  | cons c rest ih =>
      obtain ⟨first, others, pieces⟩ :=
        List.exists_cons_of_ne_nil (split_ne_nil separator rest)
      rw [pieces] at ih
      by_cases same : c = separator
      · simp [join, split, same, pieces] at ih ⊢
        cases others <;> simp_all [List.intercalate]
      · cases others <;> simp_all [join, split, List.intercalate]

theorem separator_not_mem_split (separator : Char) (text : List Char) :
    ∀ piece ∈ split separator text, separator ∉ piece := by
  induction text with
  | nil => simp [split]
  | cons c rest ih =>
      obtain ⟨first, others, pieces⟩ :=
        List.exists_cons_of_ne_nil (split_ne_nil separator rest)
      rw [pieces] at ih
      by_cases same : c = separator
      · simpa [split, same, pieces] using ih
      · simp only [split, same, if_false, pieces, List.mem_cons,
          forall_eq_or_imp, not_or] at ih ⊢
        exact ⟨⟨fun h => same h.symm, ih.1⟩, ih.2⟩

end DnsForwarder.Text
