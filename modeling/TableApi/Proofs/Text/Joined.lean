import Mathlib.Data.List.Basic
import Mathlib.Data.List.TakeWhile
import TableApi.Query

/-!
# Texts without blanks at their ends, and texts with marks between them

Names, keys and methods are read one by one of a text that has them between marks. Each of them is
trimmed, so blanks around it make no difference (`Text.trim_append`). Texts that are trimmed
already, are not empty and have no mark in them are read back of the text that they make together
(`Query.trimmedPieces_intercalate`).
-/

namespace TableApi

namespace Text

/-! ## Blanks at the ends -/

@[simp] theorem trim_eq_nil_iff {s : List Char} : trim s = [] ↔ ∀ c ∈ s, isBlank c = true := by
  rw [trim, trimEnd, trimStart, List.reverse_eq_nil_iff, List.dropWhile_eq_nil_iff]
  simp only [List.mem_reverse]
  constructor
  · intro h
    rw [← List.takeWhile_append_dropWhile (p := isBlank) (l := s)]
    exact List.forall_mem_append.2 ⟨fun c hc => List.mem_takeWhile_imp hc, h⟩
  · exact fun h c hc => h c ((List.dropWhile_sublist isBlank).mem hc)

/-- A text is trimmed exactly where there is no blank at its ends. -/
theorem trim_eq_self_iff {s : List Char} :
    trim s = s ↔ (∀ c ∈ s.head?, isBlank c = false) ∧ ∀ c ∈ s.getLast?, isBlank c = false := by
  refine ⟨fun h => ⟨fun c hc => ?_, fun c hc => ?_⟩, fun h => trim_eq_self h.1 h.2⟩
  · have hstart : (trimStart s).length = s.length := by
      have hle : (trimStart s).length ≤ s.length := (List.dropWhile_suffix _).length_le
      have hge : (trim s).length ≤ (trimStart s).length := by
        rw [trim, trimEnd, List.length_reverse]
        simpa using (List.dropWhile_suffix (l := (trimStart s).reverse) isBlank).length_le
      rw [h] at hge
      exact Nat.le_antisymm hle hge
    have hsame : trimStart s = s := (List.dropWhile_suffix _).eq_of_length hstart
    exact head?_trimStart (hsame ▸ hc)
  · exact getLast?_trimEnd (s := trimStart s) (by rw [← trim, h]; exact hc)

@[simp] theorem trim_toList {s : String} (h : trimmed s = s) : trim s.toList = s.toList := by
  have hlist := congrArg String.toList h
  rwa [trimmed, String.toList_ofList] at hlist

theorem trim_of_forall {s : List Char} (h : ∀ c ∈ s, isBlank c = false) : trim s = s :=
  trim_eq_self (fun c hc => h c (List.mem_of_mem_head? hc))
    fun c hc => h c (List.mem_of_getLast? hc)

/-- What is left of a text is part of it. -/
theorem trim_subset (s : List Char) : trim s ⊆ s := by
  intro c hc
  rw [trim, trimEnd, List.mem_reverse] at hc
  have hstart := (List.dropWhile_suffix _).subset hc
  exact (List.dropWhile_suffix _).subset (List.mem_reverse.1 hstart)

/-- **Blanks around a text are trimmed with it.** -/
theorem trim_append {before after : List Char} (hbefore : ∀ c ∈ before, isBlank c = true)
    (hafter : ∀ c ∈ after, isBlank c = true) (s : List Char) :
    trim (before ++ (s ++ after)) = trim s := by
  have hstart : trimStart (before ++ (s ++ after)) = trimStart (s ++ after) :=
    List.dropWhile_append_of_pos hbefore
  have hend : ∀ t : List Char, trimEnd (t ++ after) = trimEnd t := by
    intro t
    rw [trimEnd, trimEnd, List.reverse_append,
      List.dropWhile_append_of_pos (by simpa using hafter)]
  rw [trim, trim, hstart]
  cases hs : trimStart s with
  | nil =>
    have hblank : ∀ c ∈ s ++ after, isBlank c = true :=
      List.forall_mem_append.2 ⟨List.dropWhile_eq_nil_iff.1 hs, hafter⟩
    rw [trimStart, List.dropWhile_eq_nil_iff.2 hblank]
  | cons c rest =>
    have hsplit : trimStart (s ++ after) = trimStart s ++ after := by
      simp only [trimStart] at hs ⊢
      rw [List.dropWhile_append, hs]
      rfl
    rw [hsplit, hend, hs]

@[simp] theorem trim_trim (s : List Char) : trim (trim s) = trim s := by
  have hend : trim s ++ ((trimStart s).reverse.takeWhile isBlank).reverse = trimStart s := by
    rw [trim, trimEnd, ← List.reverse_append, List.takeWhile_append_dropWhile, List.reverse_reverse]
  have hsplit : s.takeWhile isBlank ++ (trim s ++ ((trimStart s).reverse.takeWhile isBlank).reverse)
      = s := by
    rw [hend]
    exact List.takeWhile_append_dropWhile
  have hbefore : ∀ c ∈ s.takeWhile isBlank, isBlank c = true := fun c hc =>
    List.mem_takeWhile_imp hc
  have hafter : ∀ c ∈ ((trimStart s).reverse.takeWhile isBlank).reverse, isBlank c = true :=
    fun c hc => List.mem_takeWhile_imp (List.mem_reverse.1 hc)
  calc trim (trim s) = trim (s.takeWhile isBlank ++
        (trim s ++ ((trimStart s).reverse.takeWhile isBlank).reverse)) :=
        (trim_append hbefore hafter (trim s)).symm
    _ = trim s := by rw [hsplit]

/-! ## Marks between texts -/

/-- Trimmed texts with marks between them are trimmed. -/
theorem trim_intercalate {mark : Char} {xs : List (List Char)}
    (h : ∀ x ∈ xs, x ≠ [] ∧ trim x = x) : trim ([mark].intercalate xs) = [mark].intercalate xs := by
  induction xs with
  | nil => rfl
  | cons x xs ih =>
    obtain ⟨⟨hne, hx⟩, hxs⟩ := List.forall_mem_cons.1 h
    cases xs with
    | nil => simpa using hx
    | cons y ys =>
      have hy : y ≠ [] := (h y (by simp)).1
      have hrest : [mark].intercalate (y :: ys) ≠ [] := by
        cases ys with
        | nil => simpa using hy
        | cons z zs => simp [List.intercalate_cons_cons]
      rw [List.intercalate_cons_cons, trim_eq_self_iff, List.append_assoc,
        List.head?_append_of_ne_nil _ hne, ← List.append_assoc,
        List.getLast?_append_of_ne_nil _ hrest]
      exact ⟨(trim_eq_self_iff.1 hx).1, (trim_eq_self_iff.1 (ih hxs)).2⟩

end Text

namespace Query

variable {mark : Char}

/-- The pieces between the marks are those of the library's cut. -/
theorem piecesBetween_eq (mark : Char) (s : List Char) : piecesBetween mark s = s.splitOn mark := by
  induction s with
  | nil => rfl
  | cons c s ih =>
    rw [piecesBetween, ih, List.splitOn_cons_eq_if_modifyHead]
    by_cases hc : c = mark
    · simp [hc]
    · cases hs : s.splitOn mark with
      | nil => exact absurd hs (List.splitOn_ne_nil mark s)
      | cons first more => simp [hc]

/-- Texts with marks between them are cut where each of them is. -/
theorem piecesBetween_intercalate {xs : List (List Char)} (h : xs ≠ []) :
    piecesBetween mark ([mark].intercalate xs) = xs.flatMap (piecesBetween mark) := by
  induction xs with
  | nil => exact absurd rfl h
  | cons x xs ih =>
    cases xs with
    | nil => simp
    | cons y ys =>
      have hcut : x ++ [mark] ++ [mark].intercalate (y :: ys) =
          x ++ mark :: [mark].intercalate (y :: ys) := by simp
      rw [List.intercalate_cons_cons, List.flatMap_cons, ← ih (List.cons_ne_nil y ys), hcut]
      simp only [piecesBetween_eq]
      exact List.splitOn_append_cons_self _ _

theorem not_mem_of_mem_piecesBetween {s piece : List Char} (h : piece ∈ piecesBetween mark s) :
    mark ∉ piece := by
  induction s generalizing piece with
  | nil =>
    obtain rfl := List.mem_singleton.1 h
    exact List.not_mem_nil
  | cons c s ih =>
    rw [piecesBetween] at h
    split at h
    · rcases List.mem_cons.1 h with rfl | h
      · exact List.not_mem_nil
      · exact ih h
    · next hc =>
      have hmark : ¬mark = c := Ne.symm hc
      split at h
      · next first more hs =>
        rw [hs] at ih
        rcases List.mem_cons.1 h with rfl | h
        · simpa [hmark] using ih (List.mem_cons_self ..)
        · exact ih (List.mem_cons_of_mem _ h)
      · obtain rfl := List.mem_singleton.1 h
        simpa using hmark

/-- **Texts without marks are the pieces of the text that has marks between them.** -/
theorem piecesBetween_of_not_mem {xs : List (List Char)} (hne : xs ≠ [])
    (h : ∀ x ∈ xs, mark ∉ x) : piecesBetween mark ([mark].intercalate xs) = xs := by
  have hone : ∀ x ∈ xs, piecesBetween mark x = [x] := fun x hx => by
    rw [piecesBetween_eq, List.splitOn_eq_singleton (h x hx)]
  rw [piecesBetween_intercalate hne, List.flatMap_congr hone, List.flatMap_singleton']

/-- **Trimmed texts are read back of the text that has marks between them.** -/
theorem trimmedPieces_intercalate {xs : List (List Char)}
    (h : ∀ x ∈ xs, x ≠ [] ∧ Text.trim x = x ∧ mark ∉ x) :
    ((piecesBetween mark ([mark].intercalate xs)).map Text.trim).filter (!·.isEmpty) = xs := by
  by_cases hne : xs = []
  · subst hne
    rfl
  · have htrim : xs.map Text.trim = xs :=
      (List.map_congr_left fun x hx => (h x hx).2.1).trans (List.map_id _)
    rw [piecesBetween_of_not_mem hne fun x hx => (h x hx).2.2, htrim]
    exact List.filter_eq_self.2 fun x hx => by simpa using (h x hx).1

end Query

end TableApi
