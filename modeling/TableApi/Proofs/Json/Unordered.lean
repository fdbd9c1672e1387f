import Mathlib.Logic.Function.Basic
import TableApi.Json.Basic

/-!
# JSON without the order of keys

`Json.unordered` forgets in which order the keys of objects stand, at every depth. An object is then
a map from keys to values, so two values agree up to the order of keys exactly if what is left of
them is equal. Inserting, erasing and leaving out a key come to changing the map at that key.
-/

namespace TableApi

/-- **A JSON value whose keys have no order.** -/
inductive Json.Unordered
  | null
  | bool (b : Bool)
  | number (n : Number)
  | string (s : String)
  | array (items : List Json.Unordered)
  | object (fields : String → Option Json.Unordered)

/-- **A value without the order of its keys.** -/
def Json.unordered : Json → Json.Unordered
  | .null => .null
  | .bool b => .bool b
  | .number n => .number n
  | .string s => .string s
  | .array items => .array (items.map unordered)
  | .object fields => .object fun key => (fields.map fun f => (f.1, f.2.unordered)).lookup key
decreasing_by
  · have := List.sizeOf_lt_of_mem ‹_ ∈ items›
    simp only [Json.array.sizeOf_spec]
    omega
  · have := List.sizeOf_lt_of_mem ‹f ∈ fields›
    obtain ⟨key, value⟩ := f
    simp only [Json.object.sizeOf_spec, Prod.mk.sizeOf_spec] at this ⊢
    omega

namespace Fields

/-- Fields without their order: what stands under each key. -/
def unordered (fs : Fields) (key : String) : Option Json.Unordered :=
  (get? fs key).map Json.unordered

/-- What stands under a key is found among the fields without their order. -/
@[simp] theorem lookup_map_unordered (fs : Fields) (key : String) :
    (fs.map fun f => (f.1, f.2.unordered)).lookup key = unordered fs key := by
  induction fs with
  | nil => rfl
  | cons f fs ih =>
    obtain ⟨k, v⟩ := f
    rw [List.map_cons, List.lookup_cons, ih, unordered, unordered, get?_cons]
    by_cases hk : key = k
    · simp [hk]
    · simp [hk, beq_eq_false_iff_ne.2 hk]

variable {fs gs : Fields} {key : String}

@[simp] theorem unordered_insert (fs : Fields) (key : String) (value : Json) :
    unordered (insert fs key value) =
      Function.update (unordered fs) key (some value.unordered) := by
  funext m
  rw [unordered, get?_insert, Function.update_apply]
  split <;> rfl

theorem unordered_erase (h : (keys fs).Nodup) (key : String) :
    unordered (erase fs key) = Function.update (unordered fs) key none := by
  funext m
  rw [unordered, get?_erase h, Function.update_apply]
  split <;> rfl

theorem get?_filter (p : String → Bool) (fs : Fields) (key : String) :
    get? (fs.filter fun f => p f.1) key = if p key then get? fs key else none := by
  induction fs with
  | nil => simp [get?]
  | cons f fs ih =>
    obtain ⟨k, v⟩ := f
    by_cases hk : key = k
    · subst hk
      by_cases hp : p key <;> simp [hp, ih]
    · by_cases hp : p k <;> simp [hp, hk, ih]

theorem unordered_filter_ne (fs : Fields) (key : String) :
    unordered (fs.filter fun f => f.1 ≠ key) = Function.update (unordered fs) key none := by
  funext m
  rw [unordered, get?_filter (fun k => k ≠ key), Function.update_apply]
  by_cases hm : m = key <;> simp [hm, unordered]

/-- Fields after others: the first ones answer first. -/
@[simp] theorem get?_append (fs gs : Fields) (key : String) :
    get? (fs ++ gs) key = (get? fs key).or (get? gs key) :=
  List.lookup_append

/-- A key that is not there has no value. -/
theorem get?_eq_none (h : key ∉ keys fs) : get? fs key = none := by
  refine List.lookup_eq_none_iff.2 fun f hf => ?_
  have hne : key ≠ f.1 := by
    rintro rfl
    exact h (List.mem_map_of_mem hf)
  simpa using hne

/-- Fields with the same keys and values in order. -/
theorem unordered_congr
    (h : fs.map (fun f => (f.1, f.2.unordered)) = gs.map (fun f => (f.1, f.2.unordered))) :
    unordered fs = unordered gs := by
  funext key
  rw [← lookup_map_unordered, ← lookup_map_unordered, h]

theorem insert_of_not_mem (h : key ∉ keys fs) (value : Json) :
    insert fs key value = fs ++ [(key, value)] := by
  induction fs with
  | nil => rfl
  | cons f fs ih =>
    obtain ⟨hfirst, hrest⟩ := not_or.1 fun hmem => h (List.mem_cons.2 hmem)
    rw [insert, if_neg (by simpa using Ne.symm hfirst), ih hrest, List.cons_append]

/-- Fields of a list of pairs repeat no key. -/
@[simp] theorem nodup_keys_ofList (pairs : List (String × Json)) : (keys (ofList pairs)).Nodup := by
  have hall : ∀ gs, (keys gs).Nodup →
      (keys (pairs.foldl (fun fs p => insert fs p.1 p.2) gs)).Nodup := by
    induction pairs with
    | nil => exact fun gs hgs => hgs
    | cons p pairs ih => exact fun gs hgs => ih _ (nodup_keys_insert hgs p.1 p.2)
  exact hall [] .nil

/-- Pairs without a repeated key are fields as they are. -/
theorem ofList_eq_self (h : (keys fs).Nodup) : ofList fs = fs := by
  -- after any fields that are there already
  have hall : ∀ gs, (keys (gs ++ fs)).Nodup →
      fs.foldl (fun fs p => insert fs p.1 p.2) gs = gs ++ fs := by
    clear h
    induction fs with
    | nil => simp
    | cons f fs ih =>
      intro gs hgs
      have hnew : f.1 ∉ keys gs := by
        rw [keys, List.map_append, List.map_cons] at hgs
        exact fun hmem => (List.nodup_append.1 hgs).2.2 f.1 hmem f.1 (by simp) rfl
      have hassoc : gs ++ [f] ++ fs = gs ++ f :: fs := by simp
      rw [List.foldl_cons, insert_of_not_mem hnew, ih _ (hassoc ▸ hgs), hassoc]
  exact hall [] h

/-- **The order of fields does not matter**, where no key is repeated. -/
theorem unordered_perm (h : (keys fs).Nodup) (hperm : fs.Perm gs) :
    unordered fs = unordered gs := by
  have hgs : (keys gs).Nodup := (hperm.map Prod.fst).nodup_iff.1 h
  funext key
  refine congrArg (Option.map Json.unordered) (Option.ext fun value => ?_)
  rw [get?_eq_some_iff h, get?_eq_some_iff hgs, hperm.mem_iff]

end Fields

namespace Json

/-- An object without the order of its keys is its fields without it. -/
@[simp] theorem unordered_object (fs : Fields) : (object fs).unordered = .object fs.unordered := by
  rw [unordered]
  exact congrArg Unordered.object (funext (Fields.lookup_map_unordered fs))

/-- An array keeps the order of its items. -/
@[simp] theorem unordered_array (items : List Json) :
    (array items).unordered = .array (items.map unordered) := by
  rw [unordered]

end Json

end TableApi
