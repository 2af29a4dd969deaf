/-
QueryWorkbench.Assoc — lists of pairs in order of first insertion.

`Assoc.put` replaces the value of a key in place and appends a new key at the end; `Assoc.get?`
finds the value. `get?_put` relates the two, and `get?_putAll` says the same of several writes.
-/

namespace QueryWorkbench.Assoc

variable {κ α : Type} [DecidableEq κ]

/-- The value of a key. -/
def get? (key : κ) : List (κ × α) → Option α
  | [] => none
  | (k, a) :: rest => if k = key then some a else get? key rest

/-- Whether a key is there. -/
def has (key : κ) (entries : List (κ × α)) : Bool := (get? key entries).isSome

/-- Gives a key a value; a new key comes last. -/
def put (key : κ) (value : α) : List (κ × α) → List (κ × α)
  | [] => [(key, value)]
  | (k, a) :: rest => if k = key then (key, value) :: rest else (k, a) :: put key value rest

/-- Gives a key a value unless it has one. -/
def putNew (key : κ) (value : α) (entries : List (κ × α)) : List (κ × α) :=
  if has key entries then entries else put key value entries

/-- Adds pairs one after the other. -/
def putAll (entries more : List (κ × α)) : List (κ × α) :=
  more.foldl (fun acc e => put e.1 e.2 acc) entries

theorem get?_put (key other : κ) (value : α) (entries : List (κ × α)) :
    get? other (put key value entries) =
      if key = other then some value else get? other entries := by
  induction entries with
  | nil => simp [put, get?]
  | cons e rest ih =>
    obtain ⟨k, a⟩ := e
    by_cases hk : k = key
    · subst hk
      by_cases ho : k = other <;> simp [put, get?, ho]
    · by_cases ho : k = other
      · subst ho
        have : ¬ key = k := fun h => hk h.symm
        simp [put, get?, hk, this]
      · simp [put, get?, hk, ho, ih]

/-- Writing the same again changes nothing. -/
theorem put_put_self (key : κ) (value : α) (entries : List (κ × α)) :
    put key value (put key value entries) = put key value entries := by
  induction entries with
  | nil => simp [put]
  | cons e rest ih =>
    by_cases same : e.1 = key
    · simp [put, same]
    · simp [put, same, ih]

theorem get?_eq_none_iff {key : κ} {entries : List (κ × α)} :
    get? key entries = none ↔ key ∉ entries.map (·.1) := by
  induction entries with
  | nil => simp [get?]
  | cons e rest ih =>
    by_cases same : e.1 = key
    · simp [get?, same]
    · have other : ¬ key = e.1 := fun h => same h.symm
      simp [get?, same, other, ih]

theorem mem_values_of_get? {key : κ} {value : α} {entries : List (κ × α)}
    (found : get? key entries = some value) : value ∈ entries.map (·.2) := by
  induction entries with
  | nil => cases found
  | cons e rest ih =>
    rw [get?] at found
    split at found
    · rw [← Option.some.inj found]
      exact List.mem_cons_self ..
    · exact List.mem_cons_of_mem _ (ih found)

theorem mem_values_put {key : κ} {value other : α} {entries : List (κ × α)}
    (h : other ∈ (put key value entries).map (·.2)) :
    other = value ∨ other ∈ entries.map (·.2) := by
  induction entries with
  | nil => exact Or.inl (List.mem_singleton.mp h)
  | cons e rest ih =>
    rw [put] at h
    split at h
    · exact (List.mem_cons.mp h).imp_right (List.mem_cons_of_mem _)
    · rcases List.mem_cons.mp h with rfl | h
      · exact Or.inr (List.mem_cons_self ..)
      · exact (ih h).imp_right (List.mem_cons_of_mem _)

end QueryWorkbench.Assoc
