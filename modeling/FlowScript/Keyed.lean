/-!
# Maps that remember insertion order

An association list in which storing under a key that is already present replaces the value and
keeps the place of the first insertion.
-/

namespace FlowScript

/-- A map whose entries are listed in the order in which their keys were first stored. -/
abbrev Keyed (κ α : Type) := List (κ × α)

namespace Keyed

variable {κ α : Type} [DecidableEq κ]

/-- The value stored under a key. -/
def get? : Keyed κ α → κ → Option α
  | [], _ => none
  | (k, v) :: m, key => if k = key then some v else get? m key

/-- Stores a value; a key already present keeps its place. -/
def insert : Keyed κ α → κ → α → Keyed κ α
  | [], key, value => [(key, value)]
  | (k, v) :: m, key, value =>
    if k = key then (k, value) :: m else (k, v) :: insert m key value

/-- Changes the value stored under a key, if there is one. -/
def adjust : Keyed κ α → κ → (α → α) → Keyed κ α
  | [], _, _ => []
  | (k, v) :: m, key, f => if k = key then (k, f v) :: m else (k, v) :: adjust m key f

/-- Whether a key is present. -/
def contains (m : Keyed κ α) (key : κ) : Bool := (get? m key).isSome

/-- Stores every pair, later ones over earlier ones. -/
def insertAll (m : Keyed κ α) : List (κ × α) → Keyed κ α
  | [] => m
  | (k, v) :: rest => insertAll (insert m k v) rest

/-- The map that results from storing the pairs one after another. -/
def ofPairs (pairs : List (κ × α)) : Keyed κ α := insertAll [] pairs

/-- The keys, in the order of their first insertion. -/
def keys (m : Keyed κ α) : List κ := m.map (·.1)

/-- The values, in the order of their keys. -/
def values (m : Keyed κ α) : List α := m.map (·.2)

theorem get?_insert (m : Keyed κ α) (key k : κ) (value : α) :
    get? (insert m key value) k = if key = k then some value else get? m k := by
  induction m with
  | nil => simp [insert, get?]
  | cons e m ih =>
    obtain ⟨k', v'⟩ := e
    by_cases h : k' = key
    · subst h; by_cases hk : k' = k <;> simp [insert, get?, hk]
    · by_cases hk : k' = k
      · subst hk; simp [insert, get?, h, Ne.symm h]
      · simp [insert, get?, h, hk, ih]

theorem insert_insert (m : Keyed κ α) (key : κ) (value value' : α) :
    insert (insert m key value) key value' = insert m key value' := by
  induction m with
  | nil => simp [insert]
  | cons e m ih =>
    obtain ⟨k, v⟩ := e
    by_cases h : k = key <;> simp [insert, h, ih]

end Keyed

end FlowScript
