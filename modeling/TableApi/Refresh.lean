import TableApi.Engine

/-!
# Refreshing on a clock

An engine whose settings say how long a catalog lasts reads it anew once in every such period. The
clock counts seconds since the engine started; when it moves on, every boundary between periods that
it passes is one refresh. A refresh that fails leaves the catalog as it was.
-/

namespace TableApi

/-- **An engine on a clock.** -/
structure Clocked where
  engine : Engine
  /-- Seconds since the start. -/
  elapsed : Nat := 0

namespace Clocked

/-- Seconds between two refreshes, if there are any. -/
def period? (c : Clocked) : Option Nat :=
  c.engine.settings.catalogTtl.filter (0 < ·)

/-- How many boundaries the clock passes in moving on by so many seconds. -/
def boundaries (c : Clocked) (seconds : Nat) : Nat :=
  match c.period? with
  | some p => (c.elapsed + seconds) / p - c.elapsed / p
  | none => 0

/-- One refresh after the other; one that fails changes nothing. -/
def refreshTimes (e : Engine) : Nat → Work Engine
  | 0 => pure e
  | n + 1 => do
    match ← Work.attempt e.refresh with
    | .ok e => refreshTimes e n
    | .error _ => refreshTimes e n

/-- **The clock moves on.** -/
def advance (c : Clocked) (seconds : Nat) : Work Clocked := do
  let engine ← refreshTimes c.engine (c.boundaries seconds)
  pure ⟨engine, c.elapsed + seconds⟩

end Clocked

end TableApi
