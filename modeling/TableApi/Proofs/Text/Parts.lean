import Mathlib.Data.List.Forall2
import TableApi.Proofs.Text.Entries

/-!
# Parts that are read back of their list

A part of a list may hold quotes, groups, and commas in them. What makes it a part is said of its
ends and of the characters outside its quotes alone (`IsPart`). Parts with commas between them, and
with blanks around the commas, are the entries of their list (`entries_parts`).
-/

namespace TableApi.Text

/-- **A part of a list.** It is not empty and has no blank at its ends, its quotes are closed, and
outside them as many groups are closed as are opened, and no comma stands outside of a group. The
kinds of groups are not told apart, and none has to be opened before one is closed: parts whose
groups are well nested are some of these. -/
@[mk_iff] structure IsPart (s : List Char) : Prop where
  not_empty : s ≠ []
  start : ∀ c ∈ s.head?, isBlank c = false
  ending : ∀ c ∈ s.getLast?, isBlank c = false
  quotes : Even (s.count '\'')
  groups : openings (outsideQuotes false s) = closings (outsideQuotes false s)
  commas : ∀ before, before ++ [','] <+: outsideQuotes false s → closings before < openings before

/-- **A part is a piece of its list.** -/
theorem IsPart.whole {s : List Char} (h : IsPart s) : Whole s :=
  whole_of_counts h.quotes h.groups h.commas

instance (s : List Char) : Decidable (IsPart s) :=
  decidable_of_iff
    (s ≠ [] ∧ s.head?.all (!isBlank ·) = true ∧ s.getLast?.all (!isBlank ·) = true ∧
      s.count '\'' % 2 = 0 ∧
      openings (outsideQuotes false s) = closings (outsideQuotes false s) ∧
      ∀ before ∈ (outsideQuotes false s).inits, before ++ [','] <+: outsideQuotes false s →
        closings before < openings before) (by
    have hinits : ∀ before, before ++ [','] <+: outsideQuotes false s →
        before ∈ (outsideQuotes false s).inits := fun before h =>
      (List.mem_inits _ _).2 ((List.prefix_append before [',']).trans h)
    simp only [isPart_iff, Nat.even_iff, Option.all_eq_true, Bool.not_eq_true', Option.mem_def]
    exact and_congr_right' (and_congr_right' (and_congr_right' (and_congr_right'
      (and_congr_right' ⟨fun h before hc => h before (hinits before hc) hc,
        fun h before _ => h before⟩)))))

/-- **A text that is a part but for blanks around it.** -/
def Padded (part text : String) : Prop :=
  ∃ before after : List Char, (∀ c ∈ before, isBlank c = true) ∧
    (∀ c ∈ after, isBlank c = true) ∧ text.toList = before ++ (part.toList ++ after)

/-- A part with blanks around it is a piece of its list, and what is left of it is the part. -/
theorem Padded.spec {part text : String} (h : Padded part text) (hpart : IsPart part.toList) :
    Whole text.toList ∧ trimmed text = part := by
  obtain ⟨before, after, hbefore, hafter, htext⟩ := h
  rw [trimmed, htext, trim_append hbefore hafter, trim_eq_self hpart.start hpart.ending,
    String.ofList_toList]
  exact ⟨hpart.whole.padded hbefore hafter, rfl⟩

/-- **The entries of a list of parts are the parts.** Commas join the parts, and any blanks may
stand around the commas. -/
theorem entries_parts {parts texts : List String} (hparts : ∀ p ∈ parts, IsPart p.toList)
    (htexts : List.Forall₂ Padded parts texts) : entries (",".intercalate texts) = parts := by
  have hread : (∀ t ∈ texts, Whole t.toList ∧ trimmed t ≠ "") ∧ texts.map trimmed = parts := by
    induction htexts with
    | nil => exact ⟨by simp, rfl⟩
    | @cons p t parts texts ht _ ih =>
      obtain ⟨hp, hps⟩ := List.forall_mem_cons.1 hparts
      obtain ⟨hwhole, htrim⟩ := ht.spec hp
      obtain ⟨hrest, hmap⟩ := ih hps
      have hne : p ≠ "" := fun h => hp.not_empty (by simp [h])
      refine ⟨List.forall_mem_cons.2 ⟨⟨hwhole, htrim ▸ hne⟩, hrest⟩, ?_⟩
      rw [List.map_cons, htrim, hmap]
  rw [entries_intercalate hread.1, hread.2]

/-- A call with a group in its arguments, a quoted text with signs in it, and two groups. -/
theorem entries_parts_nested :
    let parts := ["f([a,b],c)@x", "'),['", "(a)[b]"]
    let texts := ["f([a,b],c)@x", " '),['\t", "  (a)[b]"]
    (∀ p ∈ parts, IsPart p.toList) ∧ List.Forall₂ Padded parts texts ∧
      entries (",".intercalate texts) = parts := by
  intro parts texts
  have hcall : IsPart "f([a,b],c)@x".toList := by decide
  have hquoted : IsPart "'),['".toList := by decide
  have hgroups : IsPart "(a)[b]".toList := by decide
  have hparts : ∀ p ∈ parts, IsPart p.toList :=
    List.forall_mem_cons.2 ⟨hcall, List.forall_mem_cons.2 ⟨hquoted,
      List.forall_mem_singleton.2 hgroups⟩⟩
  have htexts : List.Forall₂ Padded parts texts :=
    .cons ⟨[], [], by decide, by decide, by decide⟩
      (.cons ⟨[' '], ['\t'], by decide, by decide, by decide⟩
        (.cons ⟨[' ', ' '], [], by decide, by decide, by decide⟩ .nil))
  exact ⟨hparts, htexts, entries_parts hparts htexts⟩

end TableApi.Text
