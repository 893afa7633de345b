
namespace QuadStore

variable {κ ν : Type} [DecidableEq κ]

/-- A finite map. -/
abbrev Dict (κ ν : Type) := List (κ × ν)

namespace Dict

/-- The value of the first entry with the key, which is the only one. -/
def get? (d : Dict κ ν) (key : κ) : Option ν :=
  match d with
  | [] => none
  | (k, v) :: rest => if k = key then some v else get? rest key

/-- A key that is there keeps its place. -/
def insert (d : Dict κ ν) (key : κ) (value : ν) : Dict κ ν :=
  match d with
  | [] => [(key, value)]
  | (k, v) :: rest => if k = key then (key, value) :: rest else (k, v) :: insert rest key value

def erase (d : Dict κ ν) (key : κ) : Dict κ ν :=
  d.filter fun entry => entry.1 ≠ key

def keys (d : Dict κ ν) : List κ :=
  d.map Prod.fst

@[simp] theorem get?_nil (key : κ) : get? ([] : Dict κ ν) key = none := rfl

theorem get?_insert (d : Dict κ ν) (key other : κ) (value : ν) :
    (d.insert key value).get? other = if key = other then some value else d.get? other := by
  induction d with
  | nil => simp [insert, get?]
  | cons entry rest ih =>
      obtain ⟨k, v⟩ := entry
      by_cases hk : k = key
      · by_cases ho : key = other <;> simp [insert, get?, hk, ho]
      · by_cases ho : k = other
        · subst ho
          simp [insert, get?, hk, Ne.symm hk]
        · simp [insert, get?, hk, ho, ih]

theorem get?_filter (d : Dict κ ν) (stays : κ → Bool) (key : κ) :
    get? (d.filter fun entry => stays entry.1) key = if stays key then d.get? key else none := by
  induction d with
  | nil => simp
  | cons entry rest ih =>
      obtain ⟨k, v⟩ := entry
      rw [List.filter_cons]
      by_cases hk : k = key
      · subst hk
        by_cases hstays : stays k <;> simp_all [get?]
      · by_cases hstays : stays k <;> simp_all [get?]

theorem get?_erase (d : Dict κ ν) (key other : κ) :
    (d.erase key).get? other = if key = other then none else d.get? other := by
  rw [erase, get?_filter d fun k => decide (k ≠ key)]
  by_cases ho : key = other
  · simp [ho]
  · simp [ho, Ne.symm ho]

theorem mem_of_get? {d : Dict κ ν} {key : κ} {value : ν}
    (h : d.get? key = some value) : (key, value) ∈ d := by
  induction d with
  | nil => cases h
  | cons entry rest ih =>
      obtain ⟨k, v⟩ := entry
      rw [get?] at h
      split at h
      · rename_i hk
        rw [← hk, Option.some.inj h]
        exact List.mem_cons_self
      · exact List.mem_cons_of_mem _ (ih h)

theorem mem_insert {d : Dict κ ν} {key : κ} {value : ν} {entry : κ × ν}
    (h : entry ∈ d.insert key value) : entry = (key, value) ∨ entry ∈ d := by
  induction d with
  | nil => exact .inl (List.mem_singleton.mp h)
  | cons first rest ih =>
      obtain ⟨k, v⟩ := first
      rw [insert] at h
      split at h
      · rcases List.mem_cons.mp h with rfl | h
        · exact .inl rfl
        · exact .inr (List.mem_cons_of_mem _ h)
      · rcases List.mem_cons.mp h with rfl | h
        · exact .inr List.mem_cons_self
        · exact (ih h).imp_right (List.mem_cons_of_mem _)

end Dict
end QuadStore
