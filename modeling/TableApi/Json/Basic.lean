import TableApi.Binary64.Shortest

/-!
# JSON values

Request bodies, result rows, settings and answers are JSON values. An object is a list of fields in
the order in which they were inserted, without repeated keys: inserting a present key replaces its
value in place, and erasing a key moves the last field into its place.
-/

namespace TableApi

/-- **A number**: an integer of 64 bits, signed or unsigned, or a binary64 number. -/
inductive Number
  | int (n : Int)
  | real (x : Binary64)
deriving DecidableEq, Repr, Inhabited

/-- Least integer that stays an integer. -/
def Number.minInt : Int := -9223372036854775808

/-- Greatest integer that stays an integer. -/
def Number.maxInt : Int := 18446744073709551615

/-- The integer fits a signed word. -/
def Number.isSigned (n : Int) : Bool :=
  Number.minInt ≤ n && n ≤ 9223372036854775807

/-- The number's text: the digits of an integer, the shortest decimal of a binary64 number. -/
def Number.text : Number → String
  | .int n => toString n
  | .real x => String.ofList x.chars

/-- **A JSON value.** -/
inductive Json
  | null
  | bool (b : Bool)
  | number (n : Number)
  | string (s : String)
  | array (items : List Json)
  | object (fields : List (String × Json))
deriving BEq, Repr, Inhabited

/-- The fields of an object, in insertion order. -/
abbrev Fields := List (String × Json)

namespace Fields

/-- The value under a key. -/
def get? (fs : Fields) (key : String) : Option Json :=
  fs.lookup key

/-- The key is present. -/
def has (fs : Fields) (key : String) : Bool :=
  fs.any (·.1 == key)

/-- The fields with the key set: in its place if it is present, at the end otherwise. -/
def insert : Fields → String → Json → Fields
  | [], key, value => [(key, value)]
  | f :: rest, key, value =>
    if f.1 == key then (key, value) :: rest else f :: insert rest key value

/-- The last field moved to the front: what stands in the place of an erased field. -/
def lastFirst (fs : Fields) : Fields :=
  match fs.getLast? with
  | some last => last :: fs.dropLast
  | none => []

/-- The fields without the key; the last field takes the erased one's place. -/
def erase : Fields → String → Fields
  | [], _ => []
  | f :: rest, key => if f.1 == key then lastFirst rest else f :: erase rest key

/-- The fields of a list of pairs, later ones replacing earlier ones of the same key in place. -/
def ofList (pairs : List (String × Json)) : Fields :=
  pairs.foldl (fun fs p => insert fs p.1 p.2) []

/-- The keys in order. -/
def keys (fs : Fields) : List String :=
  fs.map Prod.fst

example : (erase [("p", .null), ("a", .null), ("b", .null), ("c", .null)] "p").keys =
    ["c", "a", "b"] := by decide

/-! ## What fields hold -/

/-- The first field answers for its own key, and the rest for the others. -/
@[simp] theorem get?_cons (k : String) (v : Json) (fs : Fields) (m : String) :
    get? ((k, v) :: fs) m = if m = k then some v else get? fs m := by
  by_cases h : m = k
  · simp [get?, h]
  · have : (m == k) = false := beq_eq_false_iff_ne.2 h
    simp [get?, List.lookup_cons, this, h]

/-- A key is present exactly where it is among the keys. -/
@[simp] theorem has_iff_mem_keys {fs : Fields} {key : String} :
    has fs key = true ↔ key ∈ keys fs := by
  simp [has, keys]

/-- What stands under a key after an insertion. -/
@[simp] theorem get?_insert (fs : Fields) (key m : String) (value : Json) :
    get? (insert fs key value) m = if m = key then some value else get? fs m := by
  induction fs with
  | nil => simp [insert]
  | cons f rest ih =>
    obtain ⟨k, v⟩ := f
    by_cases hk : k = key
    · by_cases hm : m = key <;> simp [insert, hk, hm]
    · by_cases hm : m = k
      · simp [insert, hk, hm]
      · simp [insert, hk, hm, ih]

/-- The keys after an insertion: a new one comes last. -/
theorem keys_insert (fs : Fields) (key : String) (value : Json) :
    keys (insert fs key value) = if has fs key then keys fs else keys fs ++ [key] := by
  induction fs with
  | nil => rfl
  | cons f rest ih =>
    by_cases hk : f.1 = key
    · simp [insert, keys, has, hk]
    · by_cases hr : has rest key = true <;> simp_all [insert, keys, has]

theorem nodup_keys_insert {fs : Fields} (h : (keys fs).Nodup) (key : String) (value : Json) :
    (keys (insert fs key value)).Nodup := by
  rw [keys_insert]
  by_cases hk : has fs key = true
  · simpa [hk] using h
  · have habs : key ∉ keys fs := fun h => hk (has_iff_mem_keys.2 h)
    simp only [hk, if_false, Bool.false_eq_true]
    refine List.nodup_append.2 ⟨h, by simp, fun a ha b hb => ?_⟩
    rw [List.mem_singleton.1 hb]
    exact fun e => habs (e ▸ ha)

/-- The last field moved to the front is one of the fields still. -/
theorem lastFirst_perm (fs : Fields) : (lastFirst fs).Perm fs := by
  match h : fs.getLast? with
  | none => simp [lastFirst, List.getLast?_eq_none_iff.1 h]
  | some last =>
    have hne : fs ≠ [] := by rintro rfl; simp at h
    have hlast : fs.getLast hne = last := by simpa [List.getLast?_eq_some_getLast hne] using h
    simp only [lastFirst, h]
    conv => rhs; rw [← List.dropLast_concat_getLast hne, hlast]
    exact (List.perm_append_singleton _ _).symm

/-- Erasing takes the first field of the key out, and moves others. -/
theorem erase_perm (fs : Fields) (key : String) :
    (erase fs key).Perm (fs.eraseP (·.1 == key)) := by
  induction fs with
  | nil => exact .nil
  | cons f rest ih =>
    by_cases hf : (f.1 == key) = true
    · simpa [erase, hf] using lastFirst_perm rest
    · simpa [erase, hf] using ih.cons f

/-- Where no key is repeated, what stands under a key is what is paired with it. -/
theorem get?_eq_some_iff {fs : Fields} (h : (keys fs).Nodup) {key : String} {value : Json} :
    get? fs key = some value ↔ (key, value) ∈ fs := by
  induction fs with
  | nil => simp [get?]
  | cons f rest ih =>
    obtain ⟨k, v⟩ := f
    obtain ⟨hk, hrest⟩ := List.nodup_cons.1 h
    rw [get?_cons, List.mem_cons, Prod.mk.injEq]
    by_cases hm : key = k
    · subst hm
      have : (key, value) ∉ rest := fun hmem =>
        hk (List.mem_map.2 ⟨_, hmem, rfl⟩)
      simp [this, eq_comm]
    · simp [hm, ih hrest]

theorem nodup_keys_erase {fs : Fields} (h : (keys fs).Nodup) (key : String) :
    (keys (erase fs key)).Nodup :=
  ((erase_perm fs key).map Prod.fst).nodup_iff.2 (h.sublist (List.eraseP_sublist.map Prod.fst))

/-- What is left after erasing a key, where no key is repeated. -/
theorem mem_erase {fs : Fields} (h : (keys fs).Nodup) {key : String} {f : String × Json} :
    f ∈ erase fs key ↔ f.1 ≠ key ∧ f ∈ fs := by
  rw [(erase_perm fs key).mem_iff]
  induction fs with
  | nil => simp
  | cons g rest ih =>
    obtain ⟨hg, hrest⟩ := List.nodup_cons.1 h
    by_cases hk : g.1 = key
    · have hne : ∀ f ∈ rest, f.1 ≠ key := fun f hf e =>
        hg (hk.trans e.symm ▸ List.mem_map_of_mem hf)
      simp only [List.eraseP_cons, hk, beq_self_eq_true, cond_true, List.mem_cons]
      constructor
      · exact fun hf => ⟨hne f hf, .inr hf⟩
      · rintro ⟨hfk, rfl | hf⟩
        · exact absurd hk hfk
        · exact hf
    · have hb : (g.1 == key) = false := beq_eq_false_iff_ne.2 hk
      simp only [List.eraseP_cons, hb, cond_false, List.mem_cons, ih hrest]
      constructor
      · rintro (rfl | hf)
        · exact ⟨hk, .inl rfl⟩
        · exact ⟨hf.1, .inr hf.2⟩
      · rintro ⟨hfk, rfl | hf⟩
        · exact .inl rfl
        · exact .inr ⟨hfk, hf⟩

/-- What stands under a key after another was erased, where no key is repeated. -/
theorem get?_erase {fs : Fields} (h : (keys fs).Nodup) (key m : String) :
    get? (erase fs key) m = if m = key then none else get? fs m := by
  refine Option.ext fun v => ?_
  rw [get?_eq_some_iff (nodup_keys_erase h key), mem_erase h]
  by_cases hm : m = key <;> simp [hm, get?_eq_some_iff h]

end Fields

namespace Json

/-- A whole number. -/
def ofNat (n : Nat) : Json :=
  .number (.int n)

/-- A string or `null`. -/
def ofOption : Option String → Json
  | some s => .string s
  | none => .null

/-- The value is `null`. -/
def isNull : Json → Bool
  | .null => true
  | _ => false

/-- The text of a string value. -/
def string? : Json → Option String
  | .string s => some s
  | _ => none

/-- The fields of an object value. -/
def fields? : Json → Option Fields
  | .object fs => some fs
  | _ => none

end Json

end TableApi
