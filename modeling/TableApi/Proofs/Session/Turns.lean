import Mathlib.Data.List.Perm.Subperm
import TableApi.Session

/-!
# Turns

Pieces of work that do not wait for each other go in turns. Which of them have run after some turns,
and in which order, is a matter of the turns alone (`Turn.started`): none runs twice, and none runs
before its turn. Where their turns come in their order (`Turn.InOrder`), those that have run are the
first ones.

`SentApart` is what a log of such statements is like, whatever the turns are.
-/

namespace TableApi

/-- The members of a list by all its indices are the list. -/
@[simp] theorem filterMap_getElem?_range {α : Type} (xs : List α) :
    (List.range xs.length).filterMap (xs[·]?) = xs := by
  induction xs with
  | nil => rfl
  | cons x xs ih =>
    rw [List.length_cons, List.range_succ_eq_map, List.filterMap_cons, List.filterMap_map]
    simpa [Function.comp_def] using ih

namespace Turn

/-- **The pieces that have run** after turns, in the order in which they did. There are `n` pieces,
and those of `order` had run before. -/
def started (n : Nat) (order : List Nat) : List Turn → List Nat
  | [] => order
  | .run i :: turns => started n (if i < n ∧ i ∉ order then order ++ [i] else order) turns
  | .take _ :: turns => started n order turns

/-- **Pieces run in their order**: the turn of each comes when those before it have had theirs. The
first ones have had it already, as many as `next` says. -/
def InOrder (next : Nat) : List Turn → Prop
  | [] => True
  | .run i :: turns => i ≤ next ∧ InOrder (max next (i + 1)) turns
  | .take _ :: turns => InOrder next turns

variable {n next : Nat} {order : List Nat} {turns : List Turn}

theorem mem_started_of_mem {i : Nat} (h : i ∈ order) : i ∈ started n order turns := by
  induction turns generalizing order with
  | nil => exact h
  | cons t turns ih =>
    cases t with
    | take j => exact ih h
    | run j =>
      refine ih ?_
      split
      · exact List.mem_append_left _ h
      · exact h

theorem mem_started {i : Nat} (hi : i < n) (h : .run i ∈ turns) : i ∈ started n order turns := by
  induction turns generalizing order with
  | nil => simp at h
  | cons t turns ih =>
    rcases List.mem_cons.1 h with rfl | hlater
    · rw [started]
      refine mem_started_of_mem ?_
      by_cases hold : i ∈ order <;> simp [hi, hold]
    · cases t <;> exact ih hlater

/-- **No piece runs twice**, and there are no others. -/
theorem started_ok (hnodup : order.Nodup) (hlt : ∀ i ∈ order, i < n) :
    (started n order turns).Nodup ∧ ∀ i ∈ started n order turns, i < n := by
  induction turns generalizing order with
  | nil => exact ⟨hnodup, hlt⟩
  | cons t turns ih =>
    cases t with
    | take i => exact ih hnodup hlt
    | run i =>
      rw [started]
      split
      · next hnew =>
        refine ih ?_ ?_
        · simpa [List.nodup_append, hnodup] using fun j hj (heq : j = i) => hnew.2 (heq ▸ hj)
        · simpa [or_imp, forall_and, hnew.1] using hlt
      · exact ih hnodup hlt

/-- **Where pieces run in their order**, those that have run are the first ones. -/
theorem started_of_inOrder (h : InOrder next turns) {p : List Turn} (hp : p <+: turns) :
    started n (List.range (min next n)) p =
      List.range (started n (List.range (min next n)) p).length := by
  induction p generalizing next turns with
  | nil => simp [started]
  | cons t p ih =>
    obtain ⟨rest, rfl⟩ := hp
    cases t with
    | take i =>
      have hrest : InOrder next (p ++ rest) := h
      exact ih hrest (List.prefix_append ..)
    | run i =>
      obtain ⟨hi, hrest⟩ := h
      have hrange : (if i < n ∧ i ∉ List.range (min next n) then List.range (min next n) ++ [i]
          else List.range (min next n)) = List.range (min (max next (i + 1)) n) := by
        split
        · next hnew =>
          -- it is the next one
          have heq : min next n = i := by simp only [List.mem_range] at hnew; omega
          rw [heq, ← List.range_succ]
          congr 1
          omega
        · next hold =>
          congr 1
          simp only [List.mem_range] at hold
          omega
      rw [started, hrange]
      exact ih hrest (List.prefix_append ..)

/-- More turns, in which pieces run in their order. -/
theorem InOrder.append {more : List Turn} (h : InOrder next turns)
    (hmore : ∀ next, InOrder next more) : InOrder next (turns ++ more) := by
  induction turns generalizing next with
  | nil => exact hmore next
  | cons t turns ih =>
    cases t with
    | take i => exact ih h
    | run i => exact ⟨h.1, ih h.2⟩

@[simp] theorem inOrder_range (n next : Nat) : InOrder next ((List.range n).map .run) := by
  have hfrom : ∀ start next, start ≤ next → InOrder next ((List.range' start n).map .run) := by
    induction n with
    | zero => exact fun _ _ _ => trivial
    | succ n ih => exact fun start next h => ⟨h, ih (start + 1) _ (by omega)⟩
  rw [List.range_eq_range']
  exact hfrom 0 next (Nat.zero_le _)

end Turn

/-! ## What is sent -/

/-- **A log of statements that do not wait for each other**, in some turns: each of these events is
in it once at most, and all of them are if no failure was answered. Where their turns come in their
order, the log is the first ones, and without turns it is all of them in their order. -/
structure SentApart (turns : List Turn) (answered : Prop) (events log : List Event) : Prop where
  once : log.Subperm events
  all : answered → log.Perm events
  inOrder : Turn.InOrder 0 turns → log <+: events
  alone : turns = [] → log = events

/-- It does not matter how the answer is written. -/
theorem SentApart.congr {turns : List Turn} {answered answered' : Prop} {events log : List Event}
    (h : SentApart turns answered events log) (hsame : answered' ↔ answered) :
    SentApart turns answered' events log :=
  ⟨h.once, fun hall => h.all (hsame.1 hall), h.inOrder, h.alone⟩

variable {α : Type} {order : List Nat} {xs : List α}

/-- Some members by their indices, each once. -/
theorem filterMap_getElem?_subperm (hnodup : order.Nodup) (hlt : ∀ i ∈ order, i < xs.length) :
    (order.filterMap (xs[·]?)).Subperm xs := by
  have hsub : order.Subperm (List.range xs.length) :=
    List.subperm_of_subset hnodup fun i hi => List.mem_range.2 (hlt i hi)
  obtain ⟨perm, hperm, hsublist⟩ := hsub
  refine ⟨perm.filterMap (xs[·]?), hperm.filterMap _, ?_⟩
  have hall := hsublist.filterMap (xs[·]?)
  rwa [filterMap_getElem?_range] at hall

theorem filterMap_getElem?_perm (h : order.Perm (List.range xs.length)) :
    (order.filterMap (xs[·]?)).Perm xs := by
  have hall := h.filterMap (xs[·]?)
  rwa [filterMap_getElem?_range] at hall

theorem filterMap_getElem?_prefix {k : Nat} (h : k ≤ xs.length) :
    (List.range k).filterMap (xs[·]?) <+: xs := by
  obtain ⟨rest, hrest⟩ : List.range k <+: List.range xs.length := by
    refine List.prefix_iff_eq_take.2 ?_
    rw [List.length_range, List.take_range, Nat.min_eq_left h]
  refine ⟨rest.filterMap (xs[·]?), ?_⟩
  rw [← List.filterMap_append, hrest, filterMap_getElem?_range]

end TableApi
