/-!
# Indexes

Values under names, sorted by name in the order of code points and without repeated names. Inserting
replaces the value of a present name, so what an index holds does not depend on how it was built.
-/

namespace TableApi

/-- **An index.** -/
structure Index (α : Type) where
  entries : List (String × α)
  /-- The names stand in strictly ascending order. -/
  sorted : (entries.map Prod.fst).Pairwise (· < ·)
deriving Repr

namespace Index

variable {α : Type}

/-- No entries. -/
def empty : Index α := ⟨[], .nil⟩

instance : Inhabited (Index α) := ⟨empty⟩

/-- The entries with one set, given that they are sorted. -/
def insertEntry (name : String) (value : α) : List (String × α) → List (String × α)
  | [] => [(name, value)]
  | (k, v) :: rest =>
    if name < k then (name, value) :: (k, v) :: rest
    else if name = k then (name, value) :: rest
    else (k, v) :: insertEntry name value rest

/-- The names after an insertion are the name and those that were there. -/
theorem mem_names_insertEntry {name m : String} {value : α} {entries : List (String × α)} :
    m ∈ (insertEntry name value entries).map Prod.fst ↔ m = name ∨ m ∈ entries.map Prod.fst := by
  induction entries with
  | nil => simp [insertEntry]
  | cons e rest ih =>
    obtain ⟨k, v⟩ := e
    by_cases hlt : name < k
    · simp [insertEntry, hlt]
    · by_cases heq : name = k
      · rw [insertEntry, if_neg hlt, if_pos heq, heq]
        simp
      · simp only [insertEntry, hlt, heq, if_false, List.map_cons, List.mem_cons, ih]
        exact or_left_comm

theorem sorted_insertEntry {name : String} {value : α} {entries : List (String × α)}
    (h : (entries.map Prod.fst).Pairwise (· < ·)) :
    ((insertEntry name value entries).map Prod.fst).Pairwise (· < ·) := by
  induction entries with
  | nil => simp [insertEntry]
  | cons e rest ih =>
    obtain ⟨k, v⟩ := e
    obtain ⟨hk, hrest⟩ := List.pairwise_cons.1 h
    by_cases hlt : name < k
    · simp only [insertEntry, hlt, if_true]
      refine List.pairwise_cons.2 ⟨fun m hm => ?_, h⟩
      rcases List.mem_cons.1 hm with rfl | hm
      · exact hlt
      · exact String.lt_trans hlt (hk m hm)
    · by_cases heq : name = k
      · rw [insertEntry, if_neg hlt, if_pos heq, heq]
        exact h
      · have hgt : k < name :=
          String.not_le.1 fun hle => heq (String.le_antisymm hle (String.not_lt.1 hlt))
        simp only [insertEntry, hlt, heq, if_false]
        refine List.pairwise_cons.2 ⟨fun m hm => ?_, ih hrest⟩
        rcases mem_names_insertEntry.1 hm with rfl | hm
        · exact hgt
        · exact hk m hm

/-- The index with the value under the name. -/
def insert (ix : Index α) (name : String) (value : α) : Index α :=
  ⟨insertEntry name value ix.entries, sorted_insertEntry ix.sorted⟩

/-- The value under a name. -/
def get? (ix : Index α) (name : String) : Option α :=
  ix.entries.lookup name

/-- There is a value under the name. -/
def has (ix : Index α) (name : String) : Bool :=
  (ix.get? name).isSome

/-- The names in order. -/
def names (ix : Index α) : List String :=
  ix.entries.map Prod.fst

/-- The values in the order of their names. -/
def values (ix : Index α) : List α :=
  ix.entries.map Prod.snd

/-- How many entries there are. -/
def size (ix : Index α) : Nat :=
  ix.entries.length

/-- The index with a value changed by `f`, which sees what stands under the name so far. -/
def alter (ix : Index α) (name : String) (f : Option α → α) : Index α :=
  ix.insert name (f (ix.get? name))

/-! ## What an index holds -/

/-- The first entry answers for its own name, and the rest for the others. -/
@[simp] theorem lookup_entry_cons {m k : String} {v : α} {rest : List (String × α)} :
    ((k, v) :: rest).lookup m = if m = k then some v else rest.lookup m := by
  by_cases h : m = k
  · simp [h]
  · have : (m == k) = false := beq_eq_false_iff_ne.2 h
    simp [List.lookup_cons, this, h]

/-- What stands under a name after an insertion into entries. -/
@[simp] theorem lookup_insertEntry {name m : String} {value : α} {entries : List (String × α)} :
    (insertEntry name value entries).lookup m =
      if m = name then some value else entries.lookup m := by
  induction entries with
  | nil => simp [insertEntry]
  | cons e rest ih =>
    obtain ⟨k, v⟩ := e
    by_cases hlt : name < k
    · simp [insertEntry, hlt]
    · by_cases heq : name = k
      · subst heq
        rw [insertEntry, if_neg hlt, if_pos rfl, lookup_entry_cons, lookup_entry_cons]
        by_cases h : m = name <;> simp [h]
      · simp only [insertEntry, hlt, heq, if_false, lookup_entry_cons, ih]
        by_cases h : m = k
        · simp [h, Ne.symm heq]
        · simp [h]

@[simp] theorem get?_empty (m : String) : (empty : Index α).get? m = none := rfl

/-- What stands under a name after an insertion. -/
@[simp] theorem get?_insert (ix : Index α) (name m : String) (value : α) :
    (ix.insert name value).get? m = if m = name then some value else ix.get? m :=
  lookup_insertEntry

/-- What stands under a name after a change. -/
@[simp] theorem get?_alter (ix : Index α) (name m : String) (f : Option α → α) :
    (ix.alter name f).get? m = if m = name then some (f (ix.get? name)) else ix.get? m :=
  get?_insert ix name m _

end Index

end TableApi
