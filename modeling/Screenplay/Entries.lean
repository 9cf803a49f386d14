/-
Named entries in the order of their first appearance: putting a value under a present name keeps
the name's place, a new name goes to the end.
-/
namespace Screenplay

/-- Values under names, in order of first appearance. -/
abbrev Entries (α : Type) := List (String × α)

namespace Entries

variable {α : Type}

/-! ## Operations -/

/-- The value under a name. -/
def get? (entries : Entries α) (name : String) : Option α :=
  (entries.find? (·.1 == name)).map (·.2)

/-- Whether there is a value under a name. -/
def has (entries : Entries α) (name : String) : Bool := entries.any (·.1 == name)

/-- The entries with a value put under a name. -/
def put : Entries α → String → α → Entries α
  | [], name, value => [(name, value)]
  | (n, v) :: rest, name, value =>
    if n = name then (n, value) :: rest else (n, v) :: put rest name value

/-- The entries that result from putting pairs one after the other. -/
def ofPairs (pairs : List (String × α)) : Entries α :=
  pairs.foldl (fun entries p => entries.put p.1 p.2) []

/-! ## Laws -/

theorem get?_put_self (entries : Entries α) (name : String) (value : α) :
    (entries.put name value).get? name = some value := by
  induction entries with
  | nil => simp [put, get?]
  | cons e rest ih =>
    obtain ⟨n, v⟩ := e
    by_cases h : n = name
    · simp [put, get?, h]
    · simpa [put, get?, h] using ih

theorem get?_put_of_ne (entries : Entries α) {name other : String} (value : α) (h : other ≠ name) :
    (entries.put name value).get? other = entries.get? other := by
  induction entries with
  | nil => simp [put, get?, Ne.symm h]
  | cons e rest ih =>
    obtain ⟨n, v⟩ := e
    by_cases hn : n = name
    · subst hn; simp [put, get?, Ne.symm h]
    · by_cases ho : n = other
      · subst ho; simp [put, get?, hn]
      · simpa [put, get?, hn, ho] using ih

/-- Putting a value adds its name at the end, unless the name is there already. -/
theorem names_put (entries : Entries α) (name : String) (value : α) :
    (entries.put name value).map (·.1) =
      if entries.has name then entries.map (·.1) else entries.map (·.1) ++ [name] := by
  induction entries with
  | nil => simp [put, has]
  | cons e rest ih =>
    obtain ⟨n, v⟩ := e
    by_cases h : n = name
    · simp [put, has, h]
    · have hb : (n == name) = false := by simpa using h
      simp only [put, h, if_false, List.map_cons, ih, has, List.any_cons, hb, Bool.false_or]
      split <;> simp_all [has]

/-- Putting a value adds its name, and takes none away. -/
theorem has_put (entries : Entries α) (name : String) (value : α) (other : String) :
    (entries.put name value).has other = (entries.has other || name == other) := by
  induction entries with
  | nil => simp [put, has]
  | cons e rest ih =>
    obtain ⟨n, v⟩ := e
    rw [put]
    split
    · next hn => subst hn; simp [has, Bool.or_right_comm]
    · simp only [has, List.any_cons] at ih ⊢
      rw [ih, Bool.or_assoc]

/-- An entry after putting a value is the one put in, or was there before. -/
theorem mem_put {entries : Entries α} {name : String} {value : α}
    {e : String × α} (h : e ∈ entries.put name value) : e = (name, value) ∨ e ∈ entries := by
  induction entries with
  | nil => exact .inl (List.mem_singleton.mp h)
  | cons first rest ih =>
    obtain ⟨n, v⟩ := first
    rw [put] at h
    split at h
    · next hn =>
      rcases List.mem_cons.mp h with he | hr
      · exact .inl (hn ▸ he)
      · exact .inr (List.mem_cons_of_mem _ hr)
    · rcases List.mem_cons.mp h with he | hr
      · exact .inr (he ▸ List.mem_cons_self)
      · exact (ih hr).imp_right (List.mem_cons_of_mem _)

end Entries

end Screenplay
