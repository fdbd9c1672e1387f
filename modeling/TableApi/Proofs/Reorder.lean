import Mathlib.Data.List.Basic

/-!
# Other orders of steps

Steps that do not touch the same thing may change places. Here is when two orders of the same steps
come to the same.

* Stable sorting by a rank (`filter_mergeSort`): the steps of a rank keep their order, and two lists
  in the order of ranks are the same if they have the same steps of every rank in the same order
  (`eq_of_filter_rank`).
* Steps that share no class commute. If two lists of steps are the same up to order, and have the
  steps of every class in the same order, they come to the same (`foldlM_eq_of_filter`).
-/

namespace TableApi

/-! ## Sorting by rank -/

section Rank

variable {α : Type} (rank : α → Nat) {xs ys : List α}

/-- **What is sorted stably** keeps the order of what has one rank. -/
theorem filter_mergeSort (xs : List α) (k : Nat) :
    (xs.mergeSort fun a b => rank a ≤ rank b).filter (rank · = k) = xs.filter (rank · = k) := by
  have hrank : ∀ a ∈ xs.filter (rank · = k), rank a = k := fun a ha => by
    simpa using (List.mem_filter.1 ha).2
  have hsub : (xs.filter (rank · = k)).Sublist (xs.mergeSort fun a b => rank a ≤ rank b) := by
    refine List.sublist_mergeSort ?_ ?_ ?_ List.filter_sublist
    · intro a b c hab hbc
      simp only [decide_eq_true_eq] at hab hbc ⊢
      exact Nat.le_trans hab hbc
    · intro a b
      simpa using Nat.le_total (rank a) (rank b)
    · refine List.pairwise_of_forall_mem_list fun a ha b hb => ?_
      simp [hrank a ha, hrank b hb]
  have hkept := hsub.filter (rank · = k)
  simp only [List.filter_filter, Bool.and_self] at hkept
  refine (hkept.eq_of_length ?_).symm
  exact ((List.mergeSort_perm xs _).filter _).length_eq.symm

/-- **Two lists in the order of ranks** are the same if they have the same members of every rank in
the same order. -/
theorem eq_of_filter_rank (hxs : xs.Pairwise (rank · ≤ rank ·))
    (hys : ys.Pairwise (rank · ≤ rank ·))
    (h : ∀ k, xs.filter (rank · = k) = ys.filter (rank · = k)) : xs = ys := by
  have hmem : ∀ {xs ys : List α}, (∀ k, xs.filter (rank · = k) = ys.filter (rank · = k)) →
      ∀ a ∈ xs, a ∈ ys := by
    intro xs ys h a ha
    have hfilter : a ∈ xs.filter (rank · = rank a) := List.mem_filter.2 ⟨ha, by simp⟩
    rw [h] at hfilter
    exact (List.mem_filter.1 hfilter).1
  induction xs generalizing ys with
  | nil =>
    cases ys with
    | nil => rfl
    | cons b ys => exact absurd (hmem (fun k => (h k).symm) b (by simp)) (by simp)
  | cons a xs ih =>
    cases ys with
    | nil => exact absurd (hmem h a (by simp)) (by simp)
    | cons b ys =>
      obtain ⟨hfirst, hrest⟩ := List.pairwise_cons.1 hxs
      obtain ⟨hfirst', hrest'⟩ := List.pairwise_cons.1 hys
      -- both first members have the least rank, so they are the first ones of that rank
      have hrank : rank a = rank b := by
        have hab : rank a ≤ rank b := by
          rcases List.mem_cons.1 (hmem (fun k => (h k).symm) b (by simp)) with hb | hb
          · exact hb ▸ Nat.le_refl _
          · exact hfirst b hb
        have hba : rank b ≤ rank a := by
          rcases List.mem_cons.1 (hmem h a (by simp)) with ha | ha
          · exact ha ▸ Nat.le_refl _
          · exact hfirst' a ha
        exact Nat.le_antisymm hab hba
      have hsame := h (rank a)
      rw [List.filter_cons_of_pos (by simp), List.filter_cons_of_pos (by simp [hrank])] at hsame
      obtain ⟨rfl, -⟩ := List.cons.inj hsame
      refine congrArg (a :: ·) (ih hrest hrest' fun k => ?_)
      have hk := h k
      by_cases ha : rank a = k
      · rw [List.filter_cons_of_pos (by simpa), List.filter_cons_of_pos (by simpa)] at hk
        exact (List.cons.inj hk).2
      · rwa [List.filter_cons_of_neg (by simpa), List.filter_cons_of_neg (by simpa)] at hk

end Rank

/-! ## Steps that commute -/

section StepsCommute

variable {σ α ι : Type} {step : σ → α → Option σ} {P : σ → Prop}

/-- **Two steps may change places** wherever a property holds. -/
def StepsCommute (step : σ → α → Option σ) (P : σ → Prop) (a b : α) : Prop :=
  ∀ s, P s → (step s a).bind (step · b) = (step s b).bind (step · a)

variable (hkept : ∀ s a s', P s → step s a = some s' → P s')

include hkept

/-- A step moves before others that it commutes with. -/
theorem foldlM_move {before after : List α} {a : α}
    (hcommute : ∀ b ∈ before, StepsCommute step P b a) {s : σ} (hs : P s) :
    (before ++ a :: after).foldlM step s = (a :: (before ++ after)).foldlM step s := by
  induction before generalizing s with
  | nil => rfl
  | cons b before ih =>
    obtain ⟨hb, hbefore⟩ := List.forall_mem_cons.1 hcommute
    have hrest : ∀ s', step s b = some s' →
        (before ++ a :: after).foldlM step s' =
          (step s' a).bind fun s'' => (before ++ after).foldlM step s'' :=
      fun s' hs' => ih hbefore (hkept s b s' hs hs')
    calc (b :: before ++ a :: after).foldlM step s
        = (step s b).bind fun s' => (before ++ a :: after).foldlM step s' := rfl
      _ = (step s b).bind fun s' => (step s' a).bind fun s'' =>
            (before ++ after).foldlM step s'' := Option.bind_congr hrest
      _ = ((step s b).bind (step · a)).bind fun s'' => (before ++ after).foldlM step s'' :=
            (Option.bind_assoc ..).symm
      _ = ((step s a).bind (step · b)).bind fun s'' => (before ++ after).foldlM step s'' := by
            rw [hb s hs]
      _ = (a :: (b :: before ++ after)).foldlM step s := Option.bind_assoc ..

/-- **Two orders of the same steps come to the same**, if steps that share no class commute, and the
steps of each class are in the same order in both. -/
theorem foldlM_eq_of_filter (classes : ι → α → Bool)
    (hcommute : ∀ a b, (∀ i, ¬(classes i a = true ∧ classes i b = true)) → StepsCommute step P a b)
    {xs ys : List α} (hperm : xs.Perm ys)
    (hclasses : ∀ i, xs.filter (classes i) = ys.filter (classes i)) {s : σ} (hs : P s) :
    xs.foldlM step s = ys.foldlM step s := by
  induction xs generalizing ys s with
  | nil => rw [hperm.nil_eq]
  | cons a xs ih =>
    obtain ⟨before, after, rfl, hnew⟩ :=
      List.eq_append_cons_of_mem (hperm.mem_iff.1 (List.mem_cons_self ..))
    -- what stands before the step in the other order shares no class with it
    have hapart : ∀ b ∈ before, ∀ i, ¬(classes i b = true ∧ classes i a = true) := by
      rintro b hb i ⟨hbi, hai⟩
      have hfirst := hclasses i
      rw [List.filter_cons_of_pos hai, List.filter_append] at hfirst
      cases hbefore : before.filter (classes i) with
      | nil => exact absurd (List.mem_filter.2 ⟨hb, hbi⟩) (by simp [hbefore])
      | cons c rest =>
        rw [hbefore] at hfirst
        obtain ⟨rfl, -⟩ := List.cons.inj hfirst
        exact hnew (List.mem_of_mem_filter (hbefore ▸ List.mem_cons_self ..))
    have hrest : ∀ i, xs.filter (classes i) = (before ++ after).filter (classes i) := by
      intro i
      have hi := hclasses i
      rw [List.filter_append] at hi ⊢
      by_cases hai : classes i a = true
      · have hnone : before.filter (classes i) = [] :=
          List.filter_eq_nil_iff.2 fun b hb hbi => hapart b hb i ⟨hbi, hai⟩
        rw [List.filter_cons_of_pos hai, List.filter_cons_of_pos hai, hnone] at hi
        rw [hnone]
        exact (List.cons.inj hi).2
      · rwa [List.filter_cons_of_neg hai, List.filter_cons_of_neg hai] at hi
    have hmoved : xs.Perm (before ++ after) := (hperm.trans List.perm_middle).cons_inv
    rw [foldlM_move hkept (fun b hb => hcommute b a (hapart b hb)) hs, List.foldlM_cons,
      List.foldlM_cons]
    exact Option.bind_congr fun s' hs' => ih hmoved hrest (hkept s a s' hs hs')

end StepsCommute

end TableApi
