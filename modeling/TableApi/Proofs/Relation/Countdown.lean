import Mathlib.Data.List.Sort
import TableApi.Relation.Order

/-!
# Counting parents

Tables are put in order by counters: a table is ready once it has counted all its parents. In every
state that is reached the counters are exact (`Countdown.Exact`), so none of them is ever negative
(`pending_nonneg`), the ready tables are those that no table still to be placed leads to, and the
steps end within their bound (`step?_run`).

What the counters come to can be said without them: of the tables that wait, the earliest one is
taken that none of them leads to (`place`). That is the same order (`countedOrder_eq_place`).
-/

namespace TableApi.Relation

/-! ## The order without counters -/

/-- No parent of the table is still waiting. -/
def isReady (es : List (Nat × Nat)) (waiting : List Nat) (i : Nat) : Bool :=
  es.all fun (parent, child) => child != i || !waiting.contains parent

/-- The tables that wait, each taken as soon as no parent of it waits, the earliest first. When
every one of them waits for another, they follow as they are. -/
def place (es : List (Nat × Nat)) (waiting : List Nat) : List Nat :=
  match _h : waiting.find? (isReady es waiting) with
  | some i => i :: place es (waiting.erase i)
  | none => waiting
termination_by waiting.length
decreasing_by
  have hi := List.mem_of_find?_eq_some _h
  rw [List.length_erase_of_mem hi]
  have := List.length_pos_of_mem hi
  omega

theorem place_perm (es : List (Nat × Nat)) (waiting : List Nat) :
    (place es waiting).Perm waiting := by
  fun_induction place es waiting with
  | case1 waiting i h ih =>
    exact (ih.cons i).trans (List.perm_cons_erase (List.mem_of_find?_eq_some h)).symm
  | case2 waiting h => exact .refl waiting

theorem place_of_find?_eq_some {es : List (Nat × Nat)} {waiting : List Nat} {i : Nat}
    (h : waiting.find? (isReady es waiting) = some i) :
    place es waiting = i :: place es (waiting.erase i) := by
  rw [place]
  split
  · next j hj =>
    obtain rfl := Option.some.inj (hj.symm.trans h)
    rfl
  · next hnone => simp [h] at hnone

theorem place_of_find?_eq_none {es : List (Nat × Nat)} {waiting : List Nat}
    (h : waiting.find? (isReady es waiting) = none) : place es waiting = waiting := by
  rw [place]
  split
  · next j hj => simp [h] at hj
  · rfl

namespace Countdown

/-! ## Ready tables -/

/-- A table that is inserted joins those that are there. -/
@[simp] theorem mem_insertReady {i j : Nat} {ready : List Nat} :
    j ∈ insertReady i ready ↔ j = i ∨ j ∈ ready := by
  fun_induction insertReady i ready with
  | case1 => simp
  | case2 k rest h => simp
  | case3 rest h => simp
  | case4 k rest hlt hne ih =>
    rw [List.mem_cons, ih, List.mem_cons]
    exact or_left_comm

theorem pairwise_insertReady {i : Nat} {ready : List Nat} (h : ready.Pairwise (· < ·)) :
    (insertReady i ready).Pairwise (· < ·) := by
  fun_induction insertReady i ready with
  | case1 => simp
  | case2 k rest hlt =>
    refine List.pairwise_cons.2 ⟨fun j hj => ?_, h⟩
    rcases List.mem_cons.1 hj with rfl | hj
    · exact hlt
    · exact hlt.trans (List.rel_of_pairwise_cons h hj)
  | case3 rest hlt => exact h
  | case4 k rest hlt hne ih =>
    obtain ⟨hk, hrest⟩ := List.pairwise_cons.1 h
    refine List.pairwise_cons.2 ⟨fun j hj => ?_, ih hrest⟩
    rcases mem_insertReady.1 hj with rfl | hj
    · omega
    · exact hk j hj

/-- Tables that are chosen by a property, and one more. -/
theorem insertReady_filter {n i : Nat} (hi : i < n) {p q : Nat → Bool}
    (h : ∀ j, q j = true ↔ j = i ∨ p j = true) :
    insertReady i ((List.range n).filter p) = (List.range n).filter q := by
  have hsorted : ∀ r : Nat → Bool, ((List.range n).filter r).Pairwise (· < ·) := fun r =>
    List.pairwise_lt_range.filter r
  refine (pairwise_insertReady (hsorted p)).eq_of_mem_iff (hsorted q) fun j => ?_
  rw [mem_insertReady, List.mem_filter, List.mem_filter, h]
  constructor
  · rintro (rfl | ⟨hj, hp⟩)
    · exact ⟨List.mem_range.2 hi, .inl rfl⟩
    · exact ⟨hj, .inr hp⟩
  · rintro ⟨hj, rfl | hp⟩
    · exact .inl rfl
    · exact .inr ⟨hj, hp⟩

/-! ## Exact counters -/

/-- The edges to a table from tables that are not placed. -/
def edgesLeft (es : List (Nat × Nat)) (placed : List Nat) (i : Nat) : Nat :=
  es.countP fun e => e.2 = i ∧ e.1 ∉ placed

/-- What a table has still to count: the parents that are not placed, and the one placed last if it
was not told of it. -/
def parentsLeft (es : List (Nat × Nat)) (s : Countdown) (i : Nat) : Nat :=
  edgesLeft es s.placed i + s.untold.count i

/-- **The counters are exact**, and the ready tables are those that count none. -/
structure Exact (n : Nat) (es : List (Nat × Nat)) (s : Countdown) : Prop where
  pending : s.pending = (List.range n).map fun i => (s.parentsLeft es i : Int)
  ready : s.ready = (List.range n).filter fun i => i ∉ s.placed ∧ s.parentsLeft es i = 0
  untold : ∀ i ∈ s.untold, i < n
  placed : ∀ i ∈ s.placed, i < n ∧ s.parentsLeft es i = 0
  nodup : s.placed.Nodup

/-- **The states that are reached.** -/
def Reached (n : Nat) (es : List (Nat × Nat)) : Countdown → Prop :=
  Relation.ReflTransGen (fun s t => s.step? es = some t) (start n es)

section Exact

variable {n : Nat} {es : List (Nat × Nat)} {s t : Countdown}

theorem modify_map_range (f : Nat → Int) (i : Nat) (g : Int → Int) :
    ((List.range n).map f).modify i g =
      (List.range n).map fun j => if j = i then g (f j) else f j := by
  refine List.ext_getElem? fun j => ?_
  rw [List.getElem?_modify, List.getElem?_map, List.getElem?_map]
  by_cases hj : j < n
  · by_cases hij : i = j <;> simp [hj, hij, eq_comm]
  · simp [List.getElem?_eq_none (by simpa using hj : (List.range n).length ≤ j)]

/-- The counters of edges that were gone through. -/
theorem foldl_modify (f : Nat → Int) :
    es.foldl (fun pending (_, child) => pending.modify child (· + 1)) ((List.range n).map f) =
      (List.range n).map fun i => f i + es.countP (·.2 = i) := by
  induction es generalizing f with
  | nil => simp
  | cons e es ih =>
    obtain ⟨parent, child⟩ := e
    rw [List.foldl_cons]
    dsimp only
    rw [modify_map_range, ih]
    refine List.map_congr_left fun i _ => ?_
    by_cases hi : i = child
    · subst hi
      rw [if_pos rfl, List.countP_cons_of_pos (by simp)]
      push_cast
      omega
    · rw [if_neg hi, List.countP_cons_of_neg (by simpa using Ne.symm hi)]

theorem getElem?_map_range {f : Nat → Nat} {i : Nat} (hi : i < n) :
    ((List.range n).map fun j => (f j : Int))[i]? = some 0 ↔ f i = 0 := by
  simp [hi]

/-- **At the start** each table counts the edges to it. -/
theorem exact_start : (start n es).Exact n es := by
  have hleft : ∀ i, parentsLeft es (start n es) i = es.countP (·.2 = i) := by
    intro i
    simp [parentsLeft, edgesLeft, start]
  have hzero : List.replicate n (0 : Int) = (List.range n).map fun _ => 0 := by
    simp [List.map_const']
  have hpending : (start n es).pending =
      (List.range n).map fun i => (parentsLeft es (start n es) i : Int) := by
    simp only [hleft]
    rw [start]
    dsimp only
    rw [hzero, foldl_modify]
    simp
  refine ⟨hpending, ?_, by simp [start], by simp [start], by simp [start]⟩
  have hready : (start n es).ready =
      (List.range n).filter ((start n es).pending[·]? == some 0) := rfl
  rw [hready, hpending]
  refine List.filter_congr fun i hi => ?_
  have hcount := getElem?_map_range (f := parentsLeft es (start n es)) (List.mem_range.1 hi)
  have hplaced : i ∉ (start n es).placed := by simp [start]
  rw [Bool.eq_iff_iff, beq_iff_eq, hcount]
  simp [hplaced]

/-- A child that is told counts one less. -/
theorem parentsLeft_tell (es : List (Nat × Nat)) {child : Nat} {untold : List Nat}
    (h : s.untold = child :: untold) (i : Nat) :
    s.parentsLeft es i =
      ({ s with untold }.tell child).parentsLeft es i + if i = child then 1 else 0 := by
  have hcount : s.untold.count i = untold.count i + if i = child then 1 else 0 := by
    rw [h, List.count_cons]
    by_cases hi : i = child
    · simp [hi]
    · simp [hi, Ne.symm hi]
  rw [parentsLeft, hcount, ← Nat.add_assoc]
  rfl

/-- Once a table is placed, the edges that lead from it are no longer counted. -/
theorem countP_append (es : List (Nat × Nat)) {placed : List Nat} {i : Nat} (hi : i ∉ placed)
    (q : Nat × Nat → Bool) :
    es.countP (fun e => q e ∧ e.1 ∉ placed) =
      es.countP (fun e => q e ∧ e.1 ∉ placed ++ [i]) + (es.filter (·.1 = i)).countP q := by
  induction es with
  | nil => rfl
  | cons e es ih =>
    obtain ⟨parent, child⟩ := e
    rw [List.countP_cons, List.countP_cons, ih]
    by_cases hparent : parent = i
    · subst hparent
      cases hq : q (parent, child)
      · simp [hq]
      · simp [hi, hq]
        omega
    · simp [hparent]
      omega

/-- A table that is placed leaves what the others have to count. -/
theorem parentsLeft_place (es : List (Nat × Nat)) {i : Nat} (ready : List Nat)
    (huntold : s.untold = []) (hi : i ∉ s.placed) (j : Nat) :
    Countdown.parentsLeft es
      { s with ready, untold := (es.filter (·.1 = i)).map Prod.snd, placed := s.placed ++ [i] } j =
        s.parentsLeft es j := by
  have hchildren : ((es.filter (·.1 = i)).map Prod.snd).count j =
      (es.filter (·.1 = i)).countP (·.2 = j) := by
    rw [List.count_eq_countP, List.countP_map]
    exact List.countP_congr fun e _ => by simp
  have hcount := countP_append es hi (·.2 = j)
  rw [parentsLeft, parentsLeft, huntold, hchildren, edgesLeft, edgesLeft]
  simpa using hcount.symm

/-- **A child that is told** keeps the counters exact. -/
theorem Exact.tell (hs : s.Exact n es) {child : Nat} {untold : List Nat}
    (h : s.untold = child :: untold) : ({ s with untold }.tell child).Exact n es := by
  have hleft := parentsLeft_tell es h
  generalize ht : { s with untold }.tell child = t at hleft ⊢
  have hchild : child < n := hs.untold child (by simp [h])
  have hpending : t.pending = (List.range n).map fun i => (t.parentsLeft es i : Int) := by
    have hmodify : t.pending = s.pending.modify child (· - 1) := by rw [← ht]; rfl
    rw [hmodify, hs.pending, modify_map_range]
    refine List.map_congr_left fun i _ => ?_
    rw [hleft i]
    by_cases hi : i = child <;> simp [hi]
  have hplaced : t.placed = s.placed := by rw [← ht]; rfl
  have huntold : t.untold = untold := by rw [← ht]; rfl
  -- a table that is placed has nothing to count, and the child had
  have hwaits : child ∉ s.placed := by
    intro hmem
    have hnone := (hs.placed child hmem).2
    rw [hleft child, if_pos rfl] at hnone
    omega
  refine ⟨hpending, ?_, ?_, ?_, by rw [hplaced]; exact hs.nodup⟩
  · have hready : t.ready =
        if t.pending[child]? = some 0 then insertReady child s.ready else s.ready := by
      rw [← ht]
      rfl
    have hcounted : t.pending[child]? = some 0 ↔ t.parentsLeft es child = 0 := by
      rw [hpending]
      exact getElem?_map_range hchild
    rw [hready, hs.ready]
    by_cases hzero : t.parentsLeft es child = 0
    · rw [if_pos (hcounted.2 hzero)]
      refine insertReady_filter hchild fun j => ?_
      rw [hplaced, hleft j]
      by_cases hj : j = child
      · simp [hj, hwaits, hzero]
      · simp [hj]
    · rw [if_neg (mt hcounted.1 hzero)]
      refine List.filter_congr fun j _ => ?_
      rw [hplaced, hleft j]
      by_cases hj : j = child
      · simp [hj, hzero]
      · simp [hj]
  · rw [huntold]
    exact fun i hi => hs.untold i (by simp [h, hi])
  · rw [hplaced]
    intro i hi
    obtain ⟨hlt, hnone⟩ := hs.placed i hi
    rw [hleft i] at hnone
    exact ⟨hlt, by omega⟩

theorem step?_cases (h : s.step? es = some t) :
    (∃ child untold, s.untold = child :: untold ∧ t = { s with untold }.tell child) ∨
      ∃ i ready, s.untold = [] ∧ s.ready = i :: ready ∧
        t = { s with
          ready, untold := (es.filter (·.1 = i)).map Prod.snd, placed := s.placed ++ [i] } := by
  rw [step?] at h
  split at h
  · next child untold huntold =>
    exact .inl ⟨child, untold, huntold, (Option.some.inj h).symm⟩
  · next i ready huntold hready =>
    exact .inr ⟨i, ready, huntold, hready, (Option.some.inj h).symm⟩
  · simp at h

variable (hes : ∀ e ∈ es, e.1 < n ∧ e.2 < n)

include hes

/-- **A table that is placed** keeps them exact. -/
theorem Exact.place (hs : s.Exact n es) {i : Nat} {ready : List Nat} (huntold : s.untold = [])
    (hready : s.ready = i :: ready) :
    Countdown.Exact n es
      { s with
        ready, untold := (es.filter (·.1 = i)).map Prod.snd, placed := s.placed ++ [i] } := by
  have hfirst : i ∈ (List.range n).filter fun i => i ∉ s.placed ∧ s.parentsLeft es i = 0 := by
    rw [← hs.ready, hready]
    exact List.mem_cons_self ..
  obtain ⟨hlt, hwaits⟩ := List.mem_filter.1 hfirst
  obtain ⟨hwaits, hnone⟩ : i ∉ s.placed ∧ s.parentsLeft es i = 0 := by simpa using hwaits
  have hleft := parentsLeft_place es ready huntold hwaits
  refine ⟨?_, ?_, ?_, ?_, ?_⟩
  · simp only [hleft]
    exact hs.pending
  · have hnodup : (i :: ready).Nodup := by
      rw [← hready, hs.ready]
      exact List.nodup_range.filter _
    have hrest : ready = (i :: ready).filter (· ≠ i) := by
      rw [List.filter_cons_of_neg (by simp)]
      refine (List.filter_eq_self.2 fun j hj => ?_).symm
      have hne : j ≠ i := by
        rintro rfl
        exact (List.nodup_cons.1 hnodup).1 hj
      simpa using hne
    simp only [hleft]
    rw [hrest, ← hready, hs.ready, List.filter_filter]
    refine List.filter_congr fun j _ => ?_
    by_cases hj : j = i <;> simp [hj]
  · intro j hj
    obtain ⟨e, he, rfl⟩ := List.mem_map.1 hj
    exact (hes e (List.mem_filter.1 he).1).2
  · intro j hj
    rw [hleft j]
    rcases List.mem_append.1 hj with hj | hj
    · exact hs.placed j hj
    · obtain rfl := List.mem_singleton.1 hj
      exact ⟨List.mem_range.1 hlt, hnone⟩
  · refine List.nodup_append.2 ⟨hs.nodup, by simp, fun a ha b hb => ?_⟩
    obtain rfl := List.mem_singleton.1 hb
    rintro rfl
    exact hwaits ha

/-- **Every step keeps the counters exact.** -/
theorem Exact.step (hs : s.Exact n es) (h : s.step? es = some t) : t.Exact n es := by
  rcases step?_cases h with ⟨child, untold, huntold, rfl⟩ | ⟨i, ready, huntold, hready, rfl⟩
  · exact hs.tell huntold
  · exact hs.place hes huntold hready

/-- **Every state that is reached has exact counters.** -/
theorem exact_of_reached (h : Reached n es s) : s.Exact n es := by
  induction h with
  | refl => exact exact_start
  | tail _ hstep ih => exact ih.step hes hstep

/-- **No counter is ever negative.** -/
theorem pending_nonneg (h : Reached n es s) : ∀ count ∈ s.pending, 0 ≤ count := by
  intro count hcount
  rw [(exact_of_reached hes h).pending] at hcount
  obtain ⟨i, -, rfl⟩ := List.mem_map.1 hcount
  exact Int.natCast_nonneg _

/-! ## The order that is counted -/

/-- How many steps are left: tables to place, edges to turn into children, children to tell. -/
def stepsLeft (n : Nat) (es : List (Nat × Nat)) (s : Countdown) : Nat :=
  (n - s.placed.length) + es.countP (·.1 ∉ s.placed) + s.untold.length

theorem Exact.stepsLeft_step (hs : s.Exact n es) (h : s.step? es = some t) :
    t.stepsLeft n es + 1 = s.stepsLeft n es := by
  have hstep := hs.step hes h
  rcases step?_cases h with ⟨child, untold, huntold, rfl⟩ | ⟨i, ready, huntold, hready, rfl⟩
  · rw [stepsLeft, stepsLeft, huntold]
    rfl
  · have hlength : (s.placed ++ [i]).length ≤ n := by
      have hsub : s.placed ++ [i] ⊆ List.range n := fun j hj =>
        List.mem_range.2 (hstep.placed j hj).1
      simpa using (List.subperm_of_subset hstep.nodup hsub).length_le
    have hnew : i ∉ s.placed := fun hi =>
      (List.nodup_append.1 hstep.nodup).2.2 i hi i (List.mem_singleton_self i) rfl
    have hedges := countP_append es hnew fun _ => true
    simp only [true_and, List.countP_true] at hedges
    rw [stepsLeft, stepsLeft, huntold, hedges]
    simp only [List.length_append, List.length_singleton, List.length_map,
      List.length_nil] at hlength ⊢
    omega

/-- The tables that are not placed. -/
def waiting (n : Nat) (placed : List Nat) : List Nat :=
  (List.range n).filter (· ∉ placed)

/-- A table that waits is ready once none of the edges to it is left. -/
theorem isReady_waiting (placed : List Nat) (i : Nat) :
    isReady es (waiting n placed) i = true ↔ edgesLeft es placed i = 0 := by
  rw [isReady, List.all_eq_true, edgesLeft, List.countP_eq_zero]
  refine forall₂_congr fun e he => ?_
  by_cases hchild : e.2 = i
  · have hparent : e.1 < n := (hes e he).1
    simp [waiting, hchild, hparent]
  · simp [hchild]

/-- **Where nothing is left to be told, the earliest table that is ready is the one to take.** -/
theorem Exact.find?_isReady (hs : s.Exact n es) (huntold : s.untold = []) :
    (waiting n s.placed).find? (isReady es (waiting n s.placed)) = s.ready.head? := by
  have hready : (waiting n s.placed).filter (isReady es (waiting n s.placed)) = s.ready := by
    rw [hs.ready]
    conv_lhs => rw [waiting, List.filter_filter]
    refine List.filter_congr fun i _ => ?_
    have hcounted := isReady_waiting hes s.placed i
    rw [waiting] at hcounted
    rw [Bool.eq_iff_iff, Bool.and_eq_true, hcounted]
    simp [parentsLeft, huntold, and_comm]
  rw [← List.head?_filter, hready]

/-- What was placed, and the order of what waits. -/
def outcome (n : Nat) (es : List (Nat × Nat)) (s : Countdown) : List Nat :=
  s.placed ++ Relation.place es (waiting n s.placed)

/-- **A step does not change the outcome.** -/
theorem Exact.outcome_step (hs : s.Exact n es) (h : s.step? es = some t) :
    t.outcome n es = s.outcome n es := by
  rcases step?_cases h with ⟨child, untold, huntold, rfl⟩ | ⟨i, ready, huntold, hready, rfl⟩
  · rfl
  · have hfirst := hs.find?_isReady hes huntold
    rw [hready, List.head?_cons] at hfirst
    have herase : (waiting n s.placed).erase i = waiting n (s.placed ++ [i]) := by
      rw [waiting, List.Nodup.erase_eq_filter (List.nodup_range.filter _), List.filter_filter,
        waiting]
      refine List.filter_congr fun j _ => ?_
      by_cases hj : j = i <;> simp [hj]
    rw [outcome, outcome, place_of_find?_eq_some hfirst, herase, List.append_assoc]
    rfl

/-- **The steps bring it about**, if there are enough of them. -/
theorem Exact.outcome_run (hs : s.Exact n es) {steps : Nat} (hsteps : s.stepsLeft n es ≤ steps) :
    (s.run es steps).placed ++ waiting n (s.run es steps).placed = s.outcome n es := by
  have hend : ∀ {s : Countdown}, s.Exact n es → s.step? es = none →
      s.placed ++ waiting n s.placed = s.outcome n es := by
    intro s hs h
    rw [step?] at h
    split at h
    · simp at h
    · simp at h
    · next huntold hready =>
      have hnone := hs.find?_isReady hes huntold
      rw [hready, List.head?_nil] at hnone
      rw [outcome, place_of_find?_eq_none hnone]
  induction steps generalizing s with
  | zero =>
    refine hend hs (Option.eq_none_iff_forall_ne_some.2 fun t ht => ?_)
    have := hs.stepsLeft_step hes ht
    omega
  | succ steps ih =>
    rw [run]
    cases hstep : s.step? es with
    | none => exact hend hs hstep
    | some t =>
      have := hs.stepsLeft_step hes hstep
      rw [← hs.outcome_step hes hstep]
      exact ih (hs.step hes hstep) (by omega)

end Exact

end Countdown

/-- **The counters come to the order that needs none.** -/
theorem countedOrder_eq_place {n : Nat} {es : List (Nat × Nat)}
    (hes : ∀ e ∈ es, e.1 < n ∧ e.2 < n) : countedOrder n es = place es (List.range n) := by
  have hsteps : (Countdown.start n es).stepsLeft n es ≤ n + es.length := by
    simp [Countdown.stepsLeft, Countdown.start]
  have hrun := Countdown.exact_start.outcome_run hes hsteps
  have hall : Countdown.waiting n [] = List.range n := by simp [Countdown.waiting]
  have hstart : (Countdown.start n es).outcome n es = place es (List.range n) := by
    rw [Countdown.outcome, ← hall]
    rfl
  rw [← hstart, ← hrun, countedOrder, Countdown.waiting]
  simp

end TableApi.Relation
