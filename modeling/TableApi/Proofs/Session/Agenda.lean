import TableApi.Proofs.Session.Transaction

/-!
# Agendas

What work is going to send can often be written down before it runs: an agenda, one entry for each
statement, with a failed check where one will be made. Work that follows its agenda (`Follows`)
sends the statements in order until one fails or the check is reached.

* `Follows` — how work goes by an agenda, as a relation of its result and what was told.
* `FollowsOn` — work that goes so on a session with an open transaction. Sequences and loops follow
  the agendas of their parts one after the other. The agenda of a later part may depend on replies
  to an earlier one, since all of it is relative to the session.
* `FollowsTo` — such work with the result that it has if it succeeds.
* `Enclosed.log_of_ok`, `Enclosed.mem_agenda` and `Enclosed.log_of_refusal` — what that says of a
  transaction.
-/

namespace TableApi

variable {α β : Type}

/-- **An agenda**: what will be sent, in order, and the check that will fail, where there is one. -/
abbrev Agenda := List (Except ApiError Event)

/-- Events that all succeeded. -/
def went (events : List Event) : List (Event × Option DatabaseError) :=
  events.map fun e => (e, none)

/-- **How work goes by an agenda.** -/
inductive Follows (agenda : Agenda) :
    Except ApiError α → List (Event × Option DatabaseError) → Prop
  /-- It has a result. All of the agenda was sent, and no check was on it. -/
  | finished {a : α} (done : List Event) (h : agenda = done.map .ok) :
      Follows agenda (.ok a) (went done)
  /-- A statement failed. Nothing after it was sent, and the work fails as it did. -/
  | failed (done : List Event) (e : Event) (rest : Agenda)
      (h : agenda = done.map .ok ++ .ok e :: rest) (why : DatabaseError) :
      Follows agenda (.error (.database why)) (went done ++ [(e, some why)])
  /-- The check was reached. Nothing after it was sent, and the work fails with it. -/
  | refused (done : List Event) (why : ApiError) (rest : Agenda)
      (h : agenda = done.map .ok ++ .error why :: rest) : Follows agenda (.error why) (went done)

namespace Follows

variable {p q : Agenda} {sent : List (Event × Option DatabaseError)}

/-- Work that fails does not come to what is on the agenda afterwards. -/
theorem append_right {e : ApiError} (h : Follows p (.error e : Except ApiError α) sent)
    (q : Agenda) : Follows (p ++ q) (.error e : Except ApiError β) sent := by
  cases h with
  | failed done event rest h why => exact .failed done event (rest ++ q) (by simp [h]) why
  | refused done why rest h => exact .refused done e (rest ++ q) (by simp [h])

theorem append_left {r : Except ApiError α} (h : Follows q r sent) (done : List Event) :
    Follows (done.map .ok ++ q) r (went done ++ sent) := by
  cases h with
  | finished more h =>
    rw [went, went, ← List.map_append]
    exact .finished (done ++ more) (by simp [h])
  | failed more e rest h why =>
    rw [← List.append_assoc, went, went, ← List.map_append]
    exact .failed (done ++ more) e rest (by simp [h]) why
  | refused more why rest h =>
    rw [went, went, ← List.map_append]
    exact .refused (done ++ more) why rest (by simp [h])

/-- **What was sent is a beginning of the agenda.** -/
theorem map_ok_prefix {r : Except ApiError α} (h : Follows p r sent) :
    sent.map (.ok ∘ Prod.fst) <+: p := by
  have hwent : ∀ done : List Event,
      (went done).map (.ok ∘ Prod.fst : _ → Except ApiError Event) = done.map .ok := fun done => by
    simp [went]
  cases h with
  | finished done h =>
    rw [hwent]
    exact h ▸ List.prefix_rfl
  | failed done e rest h why =>
    rw [List.map_append, hwent, h]
    exact ⟨rest, by simp⟩
  | refused done why rest h =>
    rw [hwent, h]
    exact List.prefix_append _ _

end Follows

/-! ## Work that follows an agenda -/

/-- **Work that follows an agenda** on a session with an open transaction, and leaves it open. -/
def FollowsOn (w : Work α) (s : Session) (agenda : Agenda) : Prop :=
  ∃ events, (w.on s).2 = ⟨left s.script events, s.log ++ events, true, s.turns⟩ ∧
    Follows agenda (w.on s).1 (told s.script events)

namespace FollowsOn

variable {s : Session}

theorem pure (a : α) (hs : s.inTransaction = true) : FollowsOn (Pure.pure a : Work α) s [] := by
  obtain ⟨script, log, _⟩ := s
  subst hs
  refine ⟨[], ?_, .finished [] rfl⟩
  rw [Work.on_pure, List.append_nil]
  rfl

theorem fail (e : ApiError) (hs : s.inTransaction = true) :
    FollowsOn (Work.fail e : Work α) s [.error e] := by
  obtain ⟨script, log, _⟩ := s
  subst hs
  refine ⟨[], ?_, .refused [] e [] rfl⟩
  rw [Work.on_fail, List.append_nil]
  rfl

theorem of_event {w : Work α} {e : Event} {a : α}
    (hw : w.on s = (e.answer s.script a, s.after e)) (hs : s.inTransaction = true) :
    FollowsOn w s [.ok e] := by
  refine ⟨[e], ?_, ?_⟩
  · rw [hw, Session.after, hs]
    rfl
  · rw [hw, told, told, Event.answer]
    cases (e.heard s.script).1 with
    | some why => exact .failed [] e [] rfl why
    | none => exact .finished [e] rfl

/-- **A sequence** follows the agendas of its parts. The second one may depend on the first one's
result. -/
theorem bind {w : Work α} {f : α → Work β} {p q : Agenda} (hw : FollowsOn w s p)
    (hf : ∀ a s', w.on s = (.ok a, s') → s'.inTransaction = true → FollowsOn (f a) s' q) :
    FollowsOn (w >>= f) s (p ++ q) := by
  obtain ⟨events, hsession, hfollows⟩ := hw
  rw [FollowsOn, Work.on_bind]
  cases hrun : w.on s with
  | mk r s' =>
    rw [hrun] at hsession hfollows
    dsimp only at hsession hfollows
    subst hsession
    cases r with
    | error e => exact ⟨events, rfl, hfollows.append_right q⟩
    | ok a =>
      obtain ⟨more, hsession, hmore⟩ := hf a _ hrun rfl
      refine ⟨events ++ more, ?_, ?_⟩
      · dsimp only
        rw [hsession, left_append, List.append_assoc]
      · rw [told_append]
        generalize told s.script events = sent at hfollows ⊢
        cases hfollows with
        | finished done h =>
          rw [h]
          exact hmore.append_left done

/-- **Work that succeeds** has sent all of its agenda, and no check was on it. -/
theorem sent_of_ok {w : Work α} {p : Agenda} (hw : FollowsOn w s p) {a : α} {s' : Session}
    (h : w.on s = (.ok a, s')) :
    ∃ done, p = done.map .ok ∧ s' = ⟨left s.script done, s.log ++ done, true, s.turns⟩ := by
  obtain ⟨events, hsession, hfollows⟩ := hw
  rw [h] at hsession hfollows
  have hlog := map_fst_told s.script events
  generalize told s.script events = sent at hfollows hlog
  cases hfollows with
  | finished done hp =>
    obtain rfl : done = events := by simpa [went, Function.comp_def] using hlog
    exact ⟨done, hp, hsession⟩

theorem map {w : Work α} {p : Agenda} (hw : FollowsOn w s p) (f : α → β) :
    FollowsOn (f <$> w) s p := by
  rw [map_eq_pure_bind, ← List.append_nil p]
  exact hw.bind fun a s' _ hs' => pure (f a) hs'

/-- **A loop** follows the agendas of its steps. -/
theorem foldlM {f : β → α → Work β} {items : α → Agenda}
    (hf : ∀ b a s, s.inTransaction = true → FollowsOn (f b a) s (items a)) (xs : List α) (b : β)
    (hs : s.inTransaction = true) : FollowsOn (xs.foldlM f b) s (xs.flatMap items) := by
  induction xs generalizing b s with
  | nil => exact pure b hs
  | cons x xs ih =>
    rw [List.foldlM_cons, List.flatMap_cons]
    exact (hf b x s hs).bind fun b' s' _ hs' => ih b' hs'

theorem mapM {f : α → Work β} {items : α → Agenda}
    (hf : ∀ a s, s.inTransaction = true → FollowsOn (f a) s (items a)) (xs : List α)
    (hs : s.inTransaction = true) : FollowsOn (xs.mapM f) s (xs.flatMap items) := by
  induction xs generalizing s with
  | nil => exact pure [] hs
  | cons x xs ih =>
    rw [List.mapM_cons, List.flatMap_cons]
    refine (hf x s hs).bind fun b s' _ hs' => ?_
    rw [← List.append_nil (xs.flatMap items)]
    exact (ih hs').bind fun bs s'' _ hs'' => pure (b :: bs) hs''

end FollowsOn

/-! ## Work whose result is known -/

/-- **Work that follows an agenda**, and has this result if it succeeds. -/
def FollowsTo (w : Work α) (s : Session) (agenda : Agenda) (a : α) : Prop :=
  FollowsOn w s agenda ∧ ∀ b s', w.on s = (.ok b, s') → b = a

namespace FollowsTo

variable {s : Session}

theorem pure (a : α) (hs : s.inTransaction = true) : FollowsTo (Pure.pure a : Work α) s [] a :=
  ⟨.pure a hs, fun _ _ h => (Except.ok.inj (Prod.mk.inj h).1).symm⟩

theorem fail (e : ApiError) (a : α) (hs : s.inTransaction = true) :
    FollowsTo (Work.fail e) s [.error e] a :=
  ⟨.fail e hs, fun _ _ h => by simp at h⟩

theorem of_event {w : Work α} {e : Event} {a : α}
    (hw : w.on s = (e.answer s.script a, s.after e)) (hs : s.inTransaction = true) :
    FollowsTo w s [.ok e] a := by
  refine ⟨.of_event hw hs, fun b s' h => ?_⟩
  rw [hw, Event.answer] at h
  cases hheard : (e.heard s.script).1 with
  | some why => simp [hheard] at h
  | none =>
    rw [hheard] at h
    exact (Except.ok.inj (Prod.mk.inj h).1).symm

/-- **A sequence.** -/
theorem bind {w : Work α} {f : α → Work β} {p q : Agenda} {a : α} {b : β}
    (hw : FollowsTo w s p a)
    (hf : ∀ s', w.on s = (.ok a, s') → s'.inTransaction = true → FollowsTo (f a) s' q b) :
    FollowsTo (w >>= f) s (p ++ q) b := by
  obtain ⟨hfollows, hresult⟩ := hw
  refine ⟨hfollows.bind fun a' s' hrun hs' => ?_, fun b' s'' h => ?_⟩
  · obtain rfl := hresult a' s' hrun
    exact (hf s' hrun hs').1
  · rw [Work.on_bind] at h
    cases hrun : w.on s with
    | mk r s' =>
      rw [hrun] at h
      cases r with
      | error e => simp at h
      | ok a' =>
        obtain rfl := hresult a' s' hrun
        obtain ⟨done, -, rfl⟩ := hfollows.sent_of_ok hrun
        exact (hf _ hrun rfl).2 b' s'' h

theorem map {w : Work α} {p : Agenda} {a : α} (hw : FollowsTo w s p a) (f : α → β) :
    FollowsTo (f <$> w) s p (f a) := by
  rw [map_eq_pure_bind, ← List.append_nil p]
  exact hw.bind fun s' _ hs' => pure (f a) hs'

end FollowsTo

/-- **Statements take one reply each**, whatever it is. -/
theorem left_of_isInside {events : List Event} (h : ∀ e ∈ events, e.IsInside)
    (script : List Reply) : left script events = script.drop events.length := by
  have hevent : ∀ (e : Event) (script : List Reply), e.IsInside →
      (e.heard script).2 = script.tail := by
    intro e script he
    cases e with
    | fetch | execute =>
      cases script with
      | nil => rfl
      | cons reply rest => cases reply <;> rfl
    | step k => exact he.elim
  induction events generalizing script with
  | nil => rfl
  | cons e events ih =>
    obtain ⟨he, hrest⟩ := List.forall_mem_cons.1 h
    have hleft : left script (e :: events) = left (e.heard script).2 events := rfl
    rw [hleft, hevent e script he, ih hrest, List.length_cons, ← List.drop_one, List.drop_drop,
      Nat.add_comm]

/-- So work that succeeds takes a reply for each entry of its agenda. -/
theorem FollowsOn.script_of_ok {w : Work α} {s s' : Session} {p : Agenda} {a : α}
    (hw : FollowsOn w s p) (hp : ∀ e, .ok e ∈ p → e.IsInside) (h : w.on s = (.ok a, s')) :
    s'.script = s.script.drop p.length := by
  obtain ⟨done, rfl, rfl⟩ := hw.sent_of_ok h
  rw [List.length_map]
  exact left_of_isInside (fun e he => hp e (List.mem_map_of_mem he)) s.script

/-! ## Transactions -/

/-- A beginning of a list that a value is not in ends before the value. -/
theorem prefix_of_prefix_append_cons {γ : Type} {xs before rest : List γ} {y : γ}
    (h : xs <+: before ++ y :: rest) (hy : y ∉ xs) : xs <+: before := by
  rcases List.prefix_or_prefix_of_prefix h (List.prefix_append before _) with hxs | ⟨zs, rfl⟩
  · exact hxs
  · cases zs with
    | nil => simp
    | cons z zs =>
      obtain ⟨rfl, -⟩ := List.cons_prefix_cons.1 ((List.prefix_append_right_inj before).1 h)
      simp at hy

namespace Enclosed

variable {agenda : Agenda} {work answer : Except ApiError α}
  {sent : List (Event × Option DatabaseError)} {script : List Reply} {log : List Event}

/-- **A success**: all of the agenda was sent, between the begin and the commit. -/
theorem log_of_ok {a : α} (h : Enclosed work sent (.ok a) (told script log))
    (hfollows : Follows agenda work sent) :
    ∃ done, agenda = done.map .ok ∧
      log = .step .beginTransaction :: (done ++ [.step .commit]) := by
  have hlog := map_fst_told script log
  generalize told script log = all at h hlog
  cases h with
  | committed ha =>
    rw [ha] at hfollows
    cases hfollows with
    | finished done hagenda => exact ⟨done, hagenda, by simp [← hlog, went, Function.comp_def]⟩

/-- **What was sent** is a step of the transaction or on the agenda. -/
theorem mem_agenda {event : Event} (h : Enclosed work sent answer (told script log))
    (hfollows : Follows agenda work sent) (hevent : event ∈ log) :
    (∃ k, event = .step k) ∨ .ok event ∈ agenda := by
  have hsent : event ∈ sent.map Prod.fst → .ok event ∈ agenda := by
    intro hmem
    obtain ⟨o, ho, rfl⟩ := List.mem_map.1 hmem
    exact hfollows.map_ok_prefix.subset (List.mem_map.2 ⟨o, ho, rfl⟩)
  rw [← map_fst_told script log] at hevent
  generalize told script log = all at h hevent
  cases h with
  | notBegun why => exact .inl ⟨_, List.mem_singleton.1 hevent⟩
  | committed | notCommitted | rolledBack =>
    rw [List.map_cons, List.map_append, List.mem_cons, List.mem_append] at hevent
    rcases hevent with rfl | hmem | hlast
    · exact .inl ⟨_, rfl⟩
    · exact .inr (hsent hmem)
    · exact .inl ⟨_, List.mem_singleton.1 hlast⟩

theorem work_of_ok {a : α} {all : List (Event × Option DatabaseError)}
    (h : Enclosed work sent (.ok a) all) : work = .ok a := by
  cases h with
  | committed ha => exact ha

/-- **A check on the agenda** makes the work fail. If the transaction began, it is rolled back, and
what was sent stood before the check. -/
theorem log_of_refusal {before rest : Agenda} {why : ApiError}
    (h : Enclosed work sent answer (told script log))
    (hfollows : Follows (before ++ .error why :: rest) work sent) :
    (∃ e, answer = .error e) ∧ ((.step .beginTransaction, none) ∈ told script log →
      ∃ done, done.map .ok <+: before ∧
        log = .step .beginTransaction :: (done ++ [.step .rollback])) := by
  have hfails : ∀ a, work ≠ .ok a := by
    rintro a rfl
    generalize hagenda : before ++ Except.error why :: rest = agenda at hfollows
    cases hfollows with
    | finished done hdone =>
      have hcheck : Except.error why ∈ done.map Except.ok := by
        rw [← hdone, ← hagenda]
        simp
      simp at hcheck
  have hprefix : (sent.map Prod.fst).map .ok <+: before := by
    rw [List.map_map]
    exact prefix_of_prefix_append_cons hfollows.map_ok_prefix (by simp)
  have hlog := map_fst_told script log
  generalize told script log = all at h hlog ⊢
  cases h with
  | notBegun why => simp
  | committed ha => exact absurd ha (hfails _)
  | notCommitted ha why => exact absurd ha (hfails _)
  | rolledBack he rollback =>
    exact ⟨⟨_, rfl⟩, fun _ => ⟨sent.map Prod.fst, hprefix, by simp [← hlog]⟩⟩

end Enclosed

end TableApi
