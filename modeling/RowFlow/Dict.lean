/-!
# Dictionaries in key order

A dictionary is a list of entries with distinct keys, in increasing order of the keys. `insert`
overwrites, `erase` removes, and both keep the order. The laws of look-up hold of every list of
entries, ordered or not, so they can be used without carrying the order along.
-/

namespace RowFlow

/-- Entries by key. The operations of this module keep the keys distinct and increasing. -/
abbrev Dict (α : Type u) := List (String × α)

namespace Dict

variable {α : Type u} {β : Type v}

/-- The keys are distinct and increasing. -/
def Ordered (d : Dict α) : Prop := d.Pairwise (fun a b => a.1 < b.1)

/-- The value under a key. -/
def find? : Dict α → String → Option α
  | [], _ => none
  | (k, v) :: d, key => if k = key then some v else find? d key

/-- Puts a value under a key, in place of the one that was there. -/
def insert : Dict α → String → α → Dict α
  | [], key, value => [(key, value)]
  | (k, v) :: d, key, value =>
    if key < k then (key, value) :: (k, v) :: d
    else if k = key then (key, value) :: d
    else (k, v) :: insert d key value

/-- Drops the entry under a key. -/
def erase (d : Dict α) (key : String) : Dict α :=
  d.filter (fun entry => entry.1 ≠ key)

/-- Whether there is an entry under a key. -/
def contains (d : Dict α) (key : String) : Bool := (d.find? key).isSome

def keys (d : Dict α) : List String := d.map Prod.fst

/-- Puts the entries of a list into a dictionary from left to right, later ones overwriting. -/
def insertAll (d : Dict α) (entries : List (String × α)) : Dict α :=
  entries.foldl (fun d entry => d.insert entry.1 entry.2) d

/-- The dictionary of a list of entries in any order, the last entry under a key winning. -/
def ofEntries (entries : List (String × α)) : Dict α := insertAll [] entries

@[simp] theorem find?_nil (key : String) : find? ([] : Dict α) key = none := rfl

theorem find?_cons (k : String) (v : α) (d : Dict α) (key : String) :
    find? ((k, v) :: d) key = if k = key then some v else find? d key := rfl

/-- A key that is inserted is found with its new value, and all others with their old ones. -/
theorem find?_insert (d : Dict α) (key other : String) (value : α) :
    (insert d key value).find? other = if key = other then some value else d.find? other := by
  induction d with
  | nil => simp [insert, find?]
  | cons entry d ih =>
    obtain ⟨k, v⟩ := entry
    by_cases hlt : key < k
    · simp [insert, find?, hlt]
    · by_cases heq : k = key
      · subst heq; simp only [insert, hlt, ↓reduceIte, find?]; split <;> rfl
      · by_cases ho : k = other
        · subst ho
          simp [insert, find?, hlt, heq, Ne.symm heq]
        · simp [insert, find?, hlt, heq, ho, ih]

@[simp] theorem find?_insert_self (d : Dict α) (key : String) (value : α) :
    (insert d key value).find? key = some value := by
  simp [find?_insert]

theorem find?_insert_of_ne {key other : String} (h : key ≠ other) (d : Dict α) (value : α) :
    (insert d key value).find? other = d.find? other := by
  simp [find?_insert, h]

theorem find?_erase (d : Dict α) (key other : String) :
    (erase d key).find? other = if key = other then none else d.find? other := by
  induction d with
  | nil => simp [erase]
  | cons entry d ih =>
    obtain ⟨k, v⟩ := entry
    simp only [erase] at ih ⊢
    by_cases hk : k = key
    · subst hk
      rw [List.filter_cons_of_neg (by simp), ih, find?_cons]
      split <;> rfl
    · rw [List.filter_cons_of_pos (by simpa using hk), find?_cons, find?_cons, ih]
      by_cases ho : k = other
      · subst ho; simp [Ne.symm hk]
      · simp [ho]

end Dict

end RowFlow
