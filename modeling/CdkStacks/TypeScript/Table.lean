/-!
# Sorted tables

Tables from names to values whose entries stand in the order of their names, each name once. Two
tables with the same entries are therefore equal, whatever the order in which they were filled.

* `Table.alter` changes or adds the entry of a name;
* `Table.get?` looks a name up, `Table.keys` lists the names;
* `Names` are tables without values, that is, sets of names.
-/

namespace CdkStacks.TypeScript

variable {α : Type}

/-- The names of entries. -/
def keysOf (entries : List (String × α)) : List String :=
  entries.map Prod.fst

/-- Change or add the entry of a name in a sorted list of entries. -/
def alterEntries (key : String) (change : Option α → α) :
    List (String × α) → List (String × α)
  | [] => [(key, change none)]
  | (k, v) :: rest =>
    if key = k then (k, change (some v)) :: rest
    else if key < k then (key, change none) :: (k, v) :: rest
    else (k, v) :: alterEntries key change rest

theorem mem_keysOf_alterEntries {key k : String} {change : Option α → α}
    {entries : List (String × α)} :
    k ∈ keysOf (alterEntries key change entries) ↔ k = key ∨ k ∈ keysOf entries := by
  induction entries with
  | nil => simp [alterEntries, keysOf]
  | cons entry rest ih =>
    obtain ⟨k', v'⟩ := entry
    simp only [keysOf, alterEntries] at ih ⊢
    split
    · rename_i h
      subst h
      simp
    · split
      · simp
      · simp only [List.map_cons, List.mem_cons, ih]
        constructor
        · rintro (h | h | h) <;> simp [h]
        · rintro (h | h | h) <;> simp [h]

theorem keysOf_alterEntries_pairwise {key : String} {change : Option α → α}
    {entries : List (String × α)} (h : (keysOf entries).Pairwise (· < ·)) :
    (keysOf (alterEntries key change entries)).Pairwise (· < ·) := by
  induction entries with
  | nil => simp [alterEntries, keysOf]
  | cons entry rest ih =>
    obtain ⟨k, v⟩ := entry
    have h' : (∀ k' ∈ keysOf rest, k < k') ∧ (keysOf rest).Pairwise (· < ·) := by
      simpa [keysOf] using h
    unfold alterEntries
    split
    · simpa [keysOf] using h
    · split
      · rename_i hne hlt
        have : (keysOf ((k, v) :: rest)).Pairwise (· < ·) := h
        refine List.pairwise_cons.mpr ⟨fun k' hk' => ?_, this⟩
        rcases List.mem_cons.mp hk' with rfl | hk'
        · exact hlt
        · exact String.lt_trans hlt (h'.1 k' hk')
      · rename_i hne hnlt
        refine List.pairwise_cons.mpr ⟨fun k' hk' => ?_, ih h'.2⟩
        rcases mem_keysOf_alterEntries.mp hk' with rfl | hk'
        · exact Decidable.byContradiction fun hn =>
            hne (String.le_antisymm (String.not_lt.mp hn) (String.not_lt.mp hnlt))
        · exact h'.1 k' hk'

/-- A table whose entries are sorted by their names. -/
structure Table (α : Type) where
  entries : List (String × α)
  sorted : (keysOf entries).Pairwise (· < ·)
  deriving DecidableEq

namespace Table

/-- The table without entries. -/
def empty : Table α := ⟨[], List.Pairwise.nil⟩

instance : Inhabited (Table α) := ⟨empty⟩

/-- Change or add the entry of a name. -/
def alter (table : Table α) (key : String) (change : Option α → α) : Table α :=
  ⟨alterEntries key change table.entries, keysOf_alterEntries_pairwise table.sorted⟩

/-- Set the entry of a name. -/
def insert (table : Table α) (key : String) (value : α) : Table α :=
  table.alter key fun _ => value

/-- The value of a name. -/
def get? (table : Table α) (key : String) : Option α :=
  (table.entries.find? fun e => e.1 = key).map Prod.snd

/-- The names, in order. -/
def keys (table : Table α) : List String :=
  keysOf table.entries

/-- Whether a name has an entry. -/
def contains (table : Table α) (key : String) : Bool :=
  table.keys.contains key

/-- Whether the table has no entries. -/
def isEmpty (table : Table α) : Bool :=
  table.entries.isEmpty

/-- Put the entries of `other` into `table`; `combine` merges two values of one name, the value of
`table` first. -/
def merge (combine : α → α → α) (table other : Table α) : Table α :=
  other.entries.foldl
    (fun acc entry => acc.alter entry.1 fun old => (old.map (combine · entry.2)).getD entry.2) table

end Table

/-- Sets of names. -/
abbrev Names := Table Unit

namespace Names

/-- Add names to a set. -/
def add (set : Names) (names : List String) : Names :=
  names.foldl (fun acc name => acc.insert name ()) set

end Names

end CdkStacks.TypeScript
