import TableApi.Proofs.Session.Run
import TableApi.Refresh

/-!
# Catalogs that services have

A catalog is made by adding databases and tables to the empty one (`Catalog.Built`), and so its
tables stand under their names. The catalog that is read from a database is made so, whatever the
database answers (`built_readCatalog`): an engine starts with such a catalog, and has one whatever
becomes of its refreshes (`built_bootstrap`, `built_advance`).
-/

namespace TableApi

/-- **A catalog that was made by adding databases and tables.** -/
inductive Catalog.Built : Catalog → Prop
  | empty : Built .empty
  | addDatabase {c : Catalog} (h : Built c) (database : String) : Built (c.addDatabase database)
  | insertTable {c : Catalog} (h : Built c) (database : String) (t : Table) :
      Built (c.insertTable database t)

theorem Catalog.Built.name_eq {c : Catalog} (h : c.Built) {database name : String} {t : Table}
    (ht : c.table? database name = some t) : t.name = name := by
  induction h with
  | empty => simp at ht
  | addDatabase h db ih => exact ih (by simpa using ht)
  | insertTable h db t' ih =>
    rw [table?_insertTable] at ht
    split at ht
    · next hname =>
      obtain rfl := Option.some.inj ht
      exact hname.2.symm
    · exact ih ht

/-! ## What work gives -/

namespace Work

variable {α β : Type} {P : α → Prop} {Q : β → Prop}

/-- **What work gives has a property**, on every session on which it gives something. -/
def Gives (P : α → Prop) (w : Work α) : Prop :=
  ∀ s a, (w.on s).1 = .ok a → P a

namespace Gives

theorem pure {a : α} (h : P a) : Gives P (pure a) := by
  intro s a' ha
  obtain rfl : a = a' := Except.ok.inj ha
  exact h

/-- Of a sequence, it is the second part that gives something. -/
theorem bind {w : Work α} {f : α → Work β} (hw : Gives P w) (hf : ∀ a, P a → Gives Q (f a)) :
    Gives Q (w >>= f) := by
  intro s b hb
  rw [on_bind] at hb
  cases hfirst : w.on s with
  | mk r s' =>
    cases r with
    | error e => simp [hfirst] at hb
    | ok a =>
      rw [hfirst] at hb
      exact hf a (hw s a (by rw [hfirst])) s' b hb

/-- Nothing need be known of the first part. -/
theorem after (w : Work α) {f : α → Work β} (hf : ∀ a, Gives Q (f a)) : Gives Q (w >>= f) :=
  bind (P := fun _ => True) (fun _ _ _ => trivial) fun a _ => hf a

/-- **Loops.** What holds at the start and is kept by every step holds at the end. -/
theorem foldlM {f : β → α → Work β} {xs : List α} (hf : ∀ b a, Q b → Gives Q (f b a)) {b : β}
    (hb : Q b) : Gives Q (xs.foldlM f b) := by
  induction xs generalizing b with
  | nil => exact pure hb
  | cons x xs ih =>
    rw [List.foldlM_cons]
    exact (hf b x hb).bind fun _ => ih

end Gives

end Work

/-! ## Reading a catalog -/

open Catalog Work

/-- **The catalog that is read** is made by adding databases and tables. -/
theorem Introspect.built_readCatalog (d : Dialect) (databases : List String) :
    Gives Built (readCatalog d databases) := by
  refine Gives.foldlM (fun c database hc => ?_) .empty
  refine Gives.after _ fun rows => Gives.foldlM (fun c table hc => ?_) (hc.addDatabase database)
  exact Gives.after _ fun t => .pure (hc.insertTable database t)

namespace Engine

/-- A refreshed engine has such a catalog. -/
theorem built_refresh (e : Engine) : Gives (·.catalog.Built) e.refresh :=
  Gives.bind (Introspect.built_readCatalog _ _) fun _ hread => .pure hread

/-- **So does a first engine.** -/
theorem built_bootstrap (d : Dialect) (settings : Settings) :
    Gives (·.catalog.Built) (bootstrap d settings) := by
  unfold bootstrap
  split
  · intro s e he
    simp at he
  · exact Gives.bind (Introspect.built_readCatalog _ _) fun _ hread => .pure hread

end Engine

namespace Clocked

/-- Refreshes that fail leave the catalog. -/
theorem built_refreshTimes {e : Engine} (he : e.catalog.Built) (n : Nat) :
    Gives (·.catalog.Built) (refreshTimes e n) := by
  induction n generalizing e with
  | zero => exact .pure he
  | succ n ih =>
    intro s e' he'
    rw [refreshTimes, on_bind, on_attempt] at he'
    cases hrefresh : (e.refresh.on s).1 with
    | error why =>
      rw [hrefresh] at he'
      exact ih he _ _ he'
    | ok next =>
      rw [hrefresh] at he'
      exact ih (e.built_refresh s next hrefresh) _ _ he'

/-- **An engine on a clock keeps such a catalog.** -/
theorem built_advance {c : Clocked} (hc : c.engine.catalog.Built) (seconds : Nat) :
    Gives (·.engine.catalog.Built) (c.advance seconds) :=
  Gives.bind (built_refreshTimes hc _) fun _ hkept => .pure hkept

end Clocked

end TableApi
