/-!
# Cutting a text at a character

The text before the first or the last occurrence of a character and the text after it, if there is
one.
-/

namespace TableApi.Text

/-- What stands before and after the first `mark`. -/
def cutAt (mark : Char) : List Char → Option (List Char × List Char)
  | [] => none
  | c :: rest =>
    if c = mark then some ([], rest)
    else (cutAt mark rest).map fun (before, after) => (c :: before, after)

/-- What stands before and after the last `mark`. -/
def cutLast (mark : Char) (s : List Char) : Option (List Char × List Char) :=
  (cutAt mark s.reverse).map fun (after, before) => (before.reverse, after.reverse)

/-- A cut loses the mark and nothing else, and the mark is the first one. -/
theorem cutAt_eq_some {mark : Char} {s before after : List Char}
    (h : cutAt mark s = some (before, after)) :
    s = before ++ mark :: after ∧ mark ∉ before := by
  induction s generalizing before with
  | nil => simp [cutAt] at h
  | cons c rest ih =>
    by_cases hc : c = mark
    · simp only [cutAt, hc, if_true, Option.some.injEq, Prod.mk.injEq] at h
      simp [hc, ← h.1, ← h.2]
    · simp only [cutAt, hc, if_false, Option.map_eq_some_iff, Prod.mk.injEq, Prod.exists] at h
      obtain ⟨b, a, hb, rfl, rfl⟩ := h
      obtain ⟨rfl, hm⟩ := ih hb
      exact ⟨rfl, by simp [hm, Ne.symm hc]⟩

/-- A text is cut where a mark is put first. -/
theorem cutAt_append {mark : Char} {before : List Char} (h : mark ∉ before) (after : List Char) :
    cutAt mark (before ++ mark :: after) = some (before, after) := by
  induction before with
  | nil => simp [cutAt]
  | cons c rest ih =>
    obtain ⟨hc, hrest⟩ := not_or.1 fun hmem => h (List.mem_cons.2 hmem)
    simp [cutAt, ih hrest, Ne.symm hc]

/-- There is no cut exactly where the mark does not occur. -/
@[simp] theorem cutAt_eq_none {mark : Char} {s : List Char} : cutAt mark s = none ↔ mark ∉ s := by
  induction s with
  | nil => simp [cutAt]
  | cons c rest ih =>
    by_cases hc : c = mark
    · simp [cutAt, hc]
    · simp [cutAt, hc, ih, Ne.symm hc]

/-- What is added at the end stands after the cut, unless it is where the mark occurs first. -/
theorem cutAt_append_right {mark : Char} {added : List Char} (h : mark ∉ added) (s : List Char) :
    cutAt mark (s ++ added) =
      (cutAt mark s).map fun (before, after) => (before, after ++ added) := by
  induction s with
  | nil => simpa [cutAt] using cutAt_eq_none.2 h
  | cons c rest ih =>
    by_cases hc : c = mark
    · simp [cutAt, hc]
    · simp [cutAt, hc, ih, Function.comp_def]

/-- What stands after the mark is shorter than the whole. -/
theorem length_of_cutAt {mark : Char} {s before after : List Char}
    (h : cutAt mark s = some (before, after)) : after.length < s.length := by
  rw [(cutAt_eq_some h).1, List.length_append, List.length_cons]
  omega

/-- A cut at the last mark loses the mark and nothing else. -/
theorem cutLast_eq_some {mark : Char} {s before after : List Char}
    (h : cutLast mark s = some (before, after)) :
    s = before ++ mark :: after ∧ mark ∉ after := by
  simp only [cutLast, Option.map_eq_some_iff, Prod.exists, Prod.mk.injEq] at h
  obtain ⟨a, b, hab, rfl, rfl⟩ := h
  obtain ⟨hs, hm⟩ := cutAt_eq_some hab
  refine ⟨?_, by simpa using hm⟩
  rw [← s.reverse_reverse, hs]
  simp

/-- A text is cut where a mark is put last. -/
theorem cutLast_append {mark : Char} {after : List Char} (h : mark ∉ after)
    (before : List Char) : cutLast mark (before ++ mark :: after) = some (before, after) := by
  have hreverse : (before ++ mark :: after).reverse = after.reverse ++ mark :: before.reverse := by
    simp
  rw [cutLast, hreverse, cutAt_append (by simpa using h)]
  simp

/-- There is no last mark exactly where there is none. -/
@[simp] theorem cutLast_eq_none {mark : Char} {s : List Char} :
    cutLast mark s = none ↔ mark ∉ s := by
  rw [cutLast, Option.map_eq_none_iff, cutAt_eq_none, List.mem_reverse]

end TableApi.Text
