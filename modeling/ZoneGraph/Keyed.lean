/-! Values under text keys, kept as a list in ascending key order. Order is by code
point, so a document built from such lists has one spelling. The operations only
look at keys; the order itself is a property of lists built by `insert`. -/
namespace ZoneGraph

abbrev Keyed (α : Type) := List (String × α)

namespace Keyed

variable {α β : Type}

def find? (key : String) : Keyed α → Option α
  | [] => none
  | (k, v) :: rest => if k = key then some v else find? key rest

/-- Puts a value under a key, in place of the one that is there. -/
def insert (key : String) (value : α) : Keyed α → Keyed α
  | [] => [(key, value)]
  | (k, v) :: rest =>
    if key = k then (key, value) :: rest
    else if key < k then (key, value) :: (k, v) :: rest
    else (k, v) :: insert key value rest

def keys (entries : Keyed α) : List String := entries.map Prod.fst

def values (entries : Keyed α) : List α := entries.map Prod.snd

def contains (key : String) (entries : Keyed α) : Bool := (find? key entries).isSome

/-- Inserts pairs one after the other, so the last value under a key stays. -/
def ofList (pairs : List (String × α)) : Keyed α :=
  pairs.foldl (fun entries pair => insert pair.1 pair.2 entries) []

def mapValues (f : α → β) (entries : Keyed α) : Keyed β := entries.map fun pair => (pair.1, f pair.2)

@[simp] theorem find?_nil (key : String) : find? key ([] : Keyed α) = none := rfl

theorem find?_insert (key other : String) (value : α) (entries : Keyed α) :
    find? other (insert key value entries) = if key = other then some value else find? other entries := by
  induction entries with
  | nil => rfl
  | cons pair rest ih =>
    obtain ⟨k, v⟩ := pair
    simp only [insert]
    split
    · rename_i hk
      subst hk
      by_cases ho : key = other <;> simp [find?, ho]
    · split
      · simp [find?]
      · rename_i hk _
        simp only [find?, ih]
        split
        · rename_i ho
          rw [if_neg fun h => hk (h.trans ho.symm)]
        · rfl

end Keyed

end ZoneGraph
