import TableApi.Proofs.Session.Transaction

/-!
# Statements one after the other

A loop that executes one statement in each step sends its statements in turn until one fails
(`on_foldlM_execute`). In a transaction of its own it begins, sends them, and ends with a commit if
all of them succeeded and with a rollback otherwise (`inTurn_transaction`).
-/

namespace TableApi

variable {α β : Type} {turns : List Turn}

/-- Statements that were executed in an open transaction, each with success. -/
def executed (qs : List Statement) : List (Event × Option DatabaseError) :=
  qs.map fun q => (.execute true q, none)

/-- **A transaction of statements in turn**, as it is told. -/
inductive InTurn (qs : List Statement) : List (Event × Option DatabaseError) → Prop
  /-- It does not begin, and nothing follows. -/
  | notBegun (why : DatabaseError) : InTurn qs [(.step .beginTransaction, some why)]
  /-- All statements succeeded, and a commit is the last step. -/
  | finished (commit : Option DatabaseError) :
      InTurn qs ((.step .beginTransaction, none) :: (executed qs ++ [(.step .commit, commit)]))
  /-- A statement failed. None follows it, and a rollback is the last step. -/
  | failed (done rest : List Statement) (q : Statement) (h : qs = done ++ q :: rest)
      (why : DatabaseError) (rollback : Option DatabaseError) :
      InTurn qs ((.step .beginTransaction, none) ::
        (executed done ++ [(.execute true q, some why), (.step .rollback, rollback)]))

/-- What it sends besides its steps is among the statements. -/
theorem InTurn.mem {qs : List Statement} {script : List Reply} {log : List Event}
    (h : InTurn qs (told script log)) {event : Event} (hevent : event ∈ log) :
    (∃ k, event = .step k) ∨ ∃ q ∈ qs, event = .execute true q := by
  have hexecuted : ∀ {done : List Statement}, event ∈ (executed done).map Prod.fst →
      ∃ q ∈ done, event = .execute true q := by
    intro done hmem
    rw [executed, List.map_map] at hmem
    obtain ⟨q, hq, rfl⟩ := List.mem_map.1 hmem
    exact ⟨q, hq, rfl⟩
  rw [← map_fst_told script log] at hevent
  generalize told script log = sent at h hevent
  cases h with
  | notBegun why => exact .inl ⟨_, List.mem_singleton.1 hevent⟩
  | finished commit =>
    rw [List.map_cons, List.map_append, List.mem_cons, List.mem_append] at hevent
    rcases hevent with rfl | hmem | hlast
    · exact .inl ⟨_, rfl⟩
    · exact .inr (hexecuted hmem)
    · exact .inl ⟨_, List.mem_singleton.1 hlast⟩
  | failed done rest q hqs why rollback =>
    rw [List.map_cons, List.map_append, List.mem_cons, List.mem_append] at hevent
    rcases hevent with rfl | hmem | hlast
    · exact .inl ⟨_, rfl⟩
    · obtain ⟨q', hq', rfl⟩ := hexecuted hmem
      exact .inr ⟨q', hqs ▸ List.mem_append_left _ hq', rfl⟩
    · rcases List.mem_pair.1 hlast with rfl | rfl
      · exact .inr ⟨q, by simp [hqs], rfl⟩
      · exact .inl ⟨_, rfl⟩

/-- **How the loop goes**: it sends all its statements, or stops at the first one that fails. -/
inductive LoopInTurn (qs : List Statement) :
    Except ApiError β → List (Event × Option DatabaseError) → Prop
  | finished (b : β) : LoopInTurn qs (.ok b) (executed qs)
  | failed (done rest : List Statement) (q : Statement) (h : qs = done ++ q :: rest)
      (why : DatabaseError) :
      LoopInTurn qs (.error (.database why)) (executed done ++ [(.execute true q, some why)])

/-- A statement that succeeded, before the others. -/
theorem LoopInTurn.cons {qs : List Statement} {r : Except ApiError β}
    {sent : List (Event × Option DatabaseError)} (q : Statement) (h : LoopInTurn qs r sent) :
    LoopInTurn (q :: qs) r ((.execute true q, none) :: sent) := by
  cases h with
  | finished b => exact .finished b
  | failed done rest q' hqs why => exact .failed (q :: done) rest q' (congrArg (q :: ·) hqs) why

/-- The result may be changed afterwards. -/
theorem LoopInTurn.map {γ : Type} {qs : List Statement} {r : Except ApiError β}
    {sent : List (Event × Option DatabaseError)} (h : LoopInTurn qs r sent) (f : β → γ) :
    LoopInTurn qs (r.map f) sent := by
  cases h with
  | finished b => exact .finished (f b)
  | failed done rest q hqs why => exact .failed done rest q hqs why

/-- **A loop with one statement in each step**, on a session with an open transaction. -/
theorem on_foldlM_execute {f : β → α → Work β} {stmt : α → Statement} {next : β → α → Nat → β}
    (hf : ∀ b a, f b a = next b a <$> Work.execute (stmt a)) (xs : List α) (b : β) {s : Session}
    (hs : s.inTransaction = true) :
    ∃ events, ((xs.foldlM f b).on s).2 = ⟨left s.script events, s.log ++ events, true, s.turns⟩ ∧
      LoopInTurn (xs.map stmt) ((xs.foldlM f b).on s).1 (told s.script events) := by
  induction xs generalizing b s with
  | nil =>
    obtain ⟨script, log, _⟩ := s
    subst hs
    refine ⟨[], ?_, .finished b⟩
    rw [List.append_nil]
    rfl
  | cons x xs ih =>
    obtain ⟨n, hn⟩ := Work.on_execute (stmt x) s
    rw [List.foldlM_cons, Work.on_bind, hf, Work.on_map, hn, hs, Event.answer]
    cases hheard : ((Event.execute true (stmt x)).heard s.script).1 with
    | some why =>
      refine ⟨[.execute true (stmt x)], ?_, ?_⟩
      · simp [Session.after, left, Except.map, hs]
      · rw [told, told, hheard]
        exact .failed [] (xs.map stmt) (stmt x) rfl why
    | none =>
      obtain ⟨events, hsession, hloop⟩ :=
        ih (next b x n) (s := s.after (.execute true (stmt x))) hs
      refine ⟨.execute true (stmt x) :: events, ?_, ?_⟩
      · dsimp only [Option.elim, Except.map]
        rw [hsession, Session.after, List.append_assoc]
        rfl
      · rw [told, hheard]
        exact hloop.cons (stmt x)

theorem LoopInTurn.inTurn {qs : List Statement} {work answer : Except ApiError β}
    {sent all : List (Event × Option DatabaseError)} (hloop : LoopInTurn qs work sent)
    (h : Enclosed work sent answer all) : InTurn qs all := by
  cases h with
  | notBegun why => exact .notBegun why
  | committed ha | notCommitted ha why =>
    rw [ha] at hloop
    -- a loop that fails has no result
    obtain ⟨⟩ := hloop
    exact .finished _
  | rolledBack he rollback =>
    rw [he] at hloop
    cases hloop with
    | failed done rest q hqs why =>
      rw [List.append_assoc]
      exact .failed done rest q hqs why rollback

/-- **A transaction of such a loop**, on a fresh session and for every script of replies. -/
theorem inTurn_transaction {w : Work α} {qs : List Statement}
    (hw : ∀ s : Session, s.inTransaction = true → ∃ events,
      (w.on s).2 = ⟨left s.script events, s.log ++ events, true, s.turns⟩ ∧
        LoopInTurn qs (w.on s).1 (told s.script events)) (script : List Reply) (turns : List Turn) :
    InTurn qs (told script ((Work.transaction w).on ⟨script, [], false, turns⟩).2.log) := by
  obtain ⟨events, hafter, hloop⟩ := hw (.begun script turns) rfl
  exact hloop.inTurn (enclosed_transaction hafter)

end TableApi
