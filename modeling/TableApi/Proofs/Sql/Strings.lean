import TableApi.Proofs.Sql.Fragment

/-!
# Harmless strings

Statements are strings put together with `++`. These are the facts about harmless and led texts in
that form: what may follow what, optional parts, lists, numbers and names.
-/

namespace TableApi.Sql

variable {d : Dialect}

/-- A string that can follow another, after a harmless one. -/
theorem harmless_append {a b : String} (ha : Harmless d a.toList) (hb : Led d b.toList) :
    Harmless d (a ++ b).toList := by
  rw [String.toList_append]
  exact ha.append hb

/-- A string that can follow another, after one that can. -/
theorem led_append {a b : String} (ha : Led d a.toList) (hb : Led d b.toList) :
    Led d (a ++ b).toList := by
  rw [String.toList_append]
  exact ha.append hb

theorem led_after {t b : String} (ht : Firm t.toList) (hb : Harmless d b.toList) :
    Led d (t ++ b).toList := by
  rw [String.toList_append]
  exact ht.append hb

/-- Two harmless strings with a keyword between them. -/
theorem harmless_join {a t b : String} (ha : Harmless d a.toList) (ht : Firm t.toList)
    (hb : Harmless d b.toList) : Harmless d (a ++ t ++ b).toList := by
  rw [String.append_assoc]
  exact harmless_append ha (led_after ht hb)

/-- What is written for a value, if there is one. -/
theorem led_elim {α : Type} {o : Option α} {f : α → String} (h : ∀ a ∈ o, Led d (f a).toList) :
    Led d (o.elim "" f).toList := by
  cases o with
  | none => exact led_nil d
  | some a => exact h a rfl

theorem led_join {parts : List String} (h : ∀ p ∈ parts, Led d p.toList) :
    Led d (String.join parts).toList := by
  rw [String.toList_join]
  induction parts with
  | nil => exact led_nil d
  | cons p parts ih =>
    obtain ⟨hp, hparts⟩ := List.forall_mem_cons.1 h
    exact hp.append (ih hparts)

@[simp] theorem firm_toString (n : Nat) : Firm (toString n).toList := by
  have hdigits : ∀ c ∈ '-' :: harmfulSigns, c.isDigit = false := by decide
  rw [Nat.toString_eq_repr, Nat.toList_repr]
  refine ⟨Nat.toDigits_ne_nil, fun c hc hmem => ?_⟩
  have hdigit : c.isDigit = true := Nat.isDigit_of_mem_toDigits (by decide) (by decide) hc
  rw [hdigits c hmem] at hdigit
  exact absurd hdigit (by decide)

@[simp] theorem harmless_quoteIdent (name : String) : Harmless d (d.quoteIdent name).toList :=
  (isQuoted_quoteIdent d name).harmless

@[simp] theorem harmless_qualified (first second : String) :
    Harmless d (d.quoteIdent first ++ "." ++ d.quoteIdent second).toList :=
  harmless_join (harmless_quoteIdent first) (by decide) (harmless_quoteIdent second)

end TableApi.Sql
