import TableApi.Proofs.Outcome
import TableApi.Proofs.Session.Run
import TableApi.Proofs.Session.Turns

/-!
# Statements that do not wait for each other

`Work.all` is for statements that each take one reply (`TakesOne`). In whatever turns they go
(`on_all`), some of them are sent in some order, and each hears the reply that is next. If a result
is answered, all of them were sent, none failed, and the results stand in the order of the
statements. If a failure is answered, it is that of one that was sent, and others may not have been
sent at all (`Gathered`).

A request that asks for something which does not exist is told so before anything is sent
(`MissesEarly`).
-/

namespace TableApi

variable {α β : Type}

/-- The session after the events of these numbers. -/
def Session.afterSome (s : Session) (events : List Event) (order : List Nat) : Session :=
  { s with
    script := s.script.drop order.length
    log := s.log ++ order.filterMap (events[·]?) }

namespace Work

/-- **Statements that take one reply each**, and come to what it says. -/
def TakesOne (f : Statement → Work α) (event : Bool → Statement → Event)
    (value : List Reply → α) : Prop :=
  ∀ (q : Statement) (s : Session), (f q).on s = (heardAs value s.script,
    { s with script := s.script.tail, log := s.log ++ [event s.inTransaction q] })

@[simp] theorem takesOne_execute : TakesOne execute .execute countHeard := by
  intro q s
  rw [on_execute_eq, Event.answer, Session.after, heard_execute]
  rfl

@[simp] theorem takesOne_fetch : TakesOne fetch .fetch rowsHeard := by
  intro q s
  rw [on_fetch, Event.answer, Session.after, heard_fetch]
  rfl

/-- **How statements that do not wait for each other go**, `n` of them in some turns: those of
`order` are sent. -/
structure Gathered (turns : List Turn) (n : Nat) (value : List Reply → α) (script : List Reply)
    (order : List Nat) (answer : Except ApiError (List α)) : Prop where
  nodup : order.Nodup
  lt : ∀ i ∈ order, i < n
  /-- With a result, all of them were sent and none failed. Each result is what its statement heard.
  -/
  ok : ∀ values, answer = .ok values → order.Perm (List.range n) ∧
    (∀ k < n, failureHeard (script.drop k) = none) ∧
      values = (List.range n).map fun i => value (script.drop (order.idxOf i))
  /-- A failure is that of one of those that were sent. -/
  error : ∀ e, answer = .error e → ∃ k < order.length, ∃ why,
    failureHeard (script.drop k) = some why ∧ e = .database why
  inOrder : Turn.InOrder 0 turns → order = List.range order.length
  /-- Without turns all of them are sent, and the first failure is answered. -/
  alone : turns = [] → order = List.range n ∧
    answer = (List.range n).mapM fun k => heardAs value (script.drop k)

/-- Each number of the order is that of a statement. -/
theorem Gathered.length_filterMap {turns : List Turn} {value : List Reply → α}
    {script : List Reply} {order : List Nat} {answer : Except ApiError (List α)} {n : Nat}
    (h : Gathered turns n value script order answer) {γ : Type} (xs : List γ) (hn : xs.length = n) :
    (order.filterMap (xs[·]?)).length = order.length := by
  rw [List.length_filterMap_eq_countP, List.countP_eq_length]
  intro i hi
  simpa [hn] using h.lt i hi

theorem Gathered.sentApart {turns : List Turn} {value : List Reply → α} {script : List Reply}
    {order : List Nat} {answer : Except ApiError (List α)} {events : List Event} {n : Nat}
    (h : Gathered turns n value script order answer) (hn : events.length = n) :
    SentApart turns (∃ values, answer = .ok values) events (order.filterMap (events[·]?)) where
  once := filterMap_getElem?_subperm h.nodup (hn ▸ h.lt)
  all := fun ⟨values, hvalues⟩ => filterMap_getElem?_perm (hn ▸ (h.ok values hvalues).1)
  inOrder := fun hturns => by
    have horder := h.inOrder hturns
    have hlength : order.length ≤ events.length := by
      by_contra hlong
      have hlast := h.lt events.length (by rw [horder]; simpa using hlong)
      exact absurd hlast (by omega)
    rw [horder]
    exact filterMap_getElem?_prefix hlength
  alone := fun hturns => by rw [(h.alone hturns).1, ← hn, filterMap_getElem?_range]

/-! ## Turn by turn -/

/-- The results there are once the statements of these numbers were sent. -/
def resultsOf (value : List Reply → α) (script : List Reply) (n : Nat) (order : List Nat) :
    List (Option (Except ApiError α)) :=
  (List.range n).map fun i =>
    if i ∈ order then some (heardAs value (script.drop (order.idxOf i))) else none

variable {f : Statement → Work α} {event : Bool → Statement → Event} {value : List Reply → α}
  {script : List Reply} {n : Nat} {order : List Nat} {i : Nat}

theorem getElem?_resultsOf (hi : i < n) :
    (resultsOf value script n order)[i]? =
      some (if i ∈ order then some (heardAs value (script.drop (order.idxOf i))) else none) := by
  simp [resultsOf, hi]

theorem getElem?_resultsOf_of_le (hi : n ≤ i) : (resultsOf value script n order)[i]? = none := by
  simp [resultsOf, hi]

theorem set_resultsOf (hnew : i ∉ order) :
    (resultsOf value script n order).set i (some (heardAs value (script.drop order.length))) =
      resultsOf value script n (order ++ [i]) := by
  refine List.ext_getElem? fun j => ?_
  by_cases hj : j < n
  · rw [List.getElem?_set, getElem?_resultsOf hj, getElem?_resultsOf hj]
    by_cases hij : i = j
    · subst hij
      simp [resultsOf, hj, List.idxOf_append_of_notMem hnew]
    · by_cases hmem : j ∈ order
      · simp [hij, hmem, List.idxOf_append_of_mem hmem]
      · simp [hij, Ne.symm hij, hmem]
  · have hle : n ≤ j := Nat.le_of_not_lt hj
    rw [getElem?_resultsOf_of_le hle, List.getElem?_eq_none]
    simpa [resultsOf] using hle

/-- **The turn of a statement that has not been sent**: it is, and its result is one more. -/
theorem on_turn_run (h : TakesOne f event value) (qs : List Statement) (s : Session)
    (hi : i < qs.length) (hnew : i ∉ order) :
    (turn (qs.map f) (resultsOf value s.script qs.length order) (.run i)).on
        (s.afterSome (qs.map (event s.inTransaction)) order) =
      (.ok (resultsOf value s.script qs.length (order ++ [i])),
        s.afterSome (qs.map (event s.inTransaction)) (order ++ [i])) := by
  have hresult : (resultsOf value s.script qs.length order)[i]? = _ := getElem?_resultsOf hi
  rw [if_neg hnew] at hresult
  have hturn : turn (qs.map f) (resultsOf value s.script qs.length order) (.run i) =
      attempt (f qs[i]) >>= fun result =>
        pure ((resultsOf value s.script qs.length order).set i (some result)) := by
    simp only [turn, hresult, List.getElem?_map, List.getElem?_eq_getElem hi, Option.map_some]
  rw [hturn, on_bind, on_attempt, h]
  dsimp only [Session.afterSome]
  rw [on_pure, set_resultsOf hnew]
  simp [List.filterMap_append, List.getElem?_eq_getElem hi]

/-- The turn of any other changes nothing. -/
theorem turn_run_of_not (works : List (Work α)) (hold : ¬(i < n ∧ i ∉ order)) :
    turn works (resultsOf value script n order) (.run i) =
      pure (resultsOf value script n order) := by
  by_cases hi : i < n
  · have hmem : i ∈ order := by simpa [hi] using hold
    simp only [turn, getElem?_resultsOf hi, if_pos hmem]
    cases works[i]? <;> rfl
  · simp only [turn, getElem?_resultsOf_of_le (Nat.le_of_not_lt hi)]
    cases works[i]? <;> rfl

/-- **A result is taken**: a failure is the end, and anything else changes nothing. -/
theorem turn_take (value : List Reply → α) (script : List Reply) (n : Nat) (works : List (Work α))
    (order : List Nat) (i : Nat) :
    (∃ e, i ∈ order ∧ heardAs value (script.drop (order.idxOf i)) = .error e ∧
        turn works (resultsOf value script n order) (.take i) = fail e) ∨
      turn works (resultsOf value script n order) (.take i) =
        pure (resultsOf value script n order) := by
  by_cases hi : i < n
  · have hresult : (resultsOf value script n order)[i]? = _ := getElem?_resultsOf hi
    by_cases hmem : i ∈ order
    · rw [if_pos hmem] at hresult
      cases hheard : heardAs value (script.drop (order.idxOf i)) with
      | error e =>
        rw [hheard] at hresult
        exact .inl ⟨e, hmem, rfl, by simp only [turn, hresult]⟩
      | ok a =>
        rw [hheard] at hresult
        exact .inr (by simp only [turn, hresult])
    · rw [if_neg hmem] at hresult
      exact .inr (by simp only [turn, hresult])
  · exact .inr (by simp only [turn, getElem?_resultsOf_of_le (Nat.le_of_not_lt hi)])

/-- **What turns come to**, from the statements of `order` on: those of `sent` were sent when the
turns were over, or when a failure was taken. -/
def TurnsTo (value : List Reply → α) (script : List Reply) (n : Nat) (order : List Nat)
    (turns : List Turn) (sent : List Nat)
    (answer : Except ApiError (List (Option (Except ApiError α)))) : Prop :=
  ∃ p, p <+: turns ∧ sent = Turn.started n order p ∧
    ((p = turns ∧ answer = .ok (resultsOf value script n sent)) ∨
      ∃ e, answer = .error e ∧ ∃ i ∈ sent, .take i ∈ turns ∧
        heardAs value (script.drop (sent.idxOf i)) = .error e)

theorem TurnsTo.cons {t : Turn} {order' sent : List Nat} {turns : List Turn}
    {answer : Except ApiError (List (Option (Except ApiError α)))}
    (h : TurnsTo value script n order' turns sent answer)
    (hstarted : ∀ p, Turn.started n order (t :: p) = Turn.started n order' p) :
    TurnsTo value script n order (t :: turns) sent answer := by
  obtain ⟨p, hp, rfl, hanswer⟩ := h
  refine ⟨t :: p, List.cons_prefix_cons.2 ⟨rfl, hp⟩, (hstarted p).symm, ?_⟩
  rcases hanswer with ⟨rfl, hok⟩ | ⟨e, herror, i, hi, htake, hheard⟩
  · exact .inl ⟨rfl, hok⟩
  · exact .inr ⟨e, herror, i, hi, List.mem_cons_of_mem _ htake, hheard⟩

/-- **Turn after turn**, until they are over or a failure is taken. -/
theorem on_turns (h : TakesOne f event value) (qs : List Statement) (s : Session)
    (turns : List Turn) (order : List Nat) :
    let run := (turns.foldlM (turn (qs.map f)) (resultsOf value s.script qs.length order)).on
      (s.afterSome (qs.map (event s.inTransaction)) order)
    ∃ sent, TurnsTo value s.script qs.length order turns sent run.1 ∧
      run.2 = s.afterSome (qs.map (event s.inTransaction)) sent := by
  induction turns generalizing order with
  | nil => exact ⟨order, ⟨[], List.prefix_rfl, rfl, .inl ⟨rfl, rfl⟩⟩, rfl⟩
  | cons t turns ih =>
    rw [List.foldlM_cons]
    cases t with
    | run i =>
      by_cases hnew : i < qs.length ∧ i ∉ order
      · obtain ⟨sent, hturns, hsession⟩ := ih (order ++ [i])
        rw [on_bind, on_turn_run h qs s hnew.1 hnew.2]
        exact ⟨sent, hturns.cons fun p => by rw [Turn.started, if_pos hnew], hsession⟩
      · obtain ⟨sent, hturns, hsession⟩ := ih order
        rw [turn_run_of_not _ hnew, pure_bind]
        exact ⟨sent, hturns.cons fun p => by rw [Turn.started, if_neg hnew], hsession⟩
    | take i =>
      rcases turn_take value s.script qs.length (qs.map f) order i with
        ⟨e, hmem, hheard, hturn⟩ | hturn
      · rw [hturn]
        exact ⟨order, ⟨[], List.nil_prefix, rfl, .inr ⟨e, rfl, i, hmem, by simp, hheard⟩⟩, rfl⟩
      · obtain ⟨sent, hturns, hsession⟩ := ih order
        rw [hturn, pure_bind]
        exact ⟨sent, hturns.cons fun p => rfl, hsession⟩

/-! ## All of them -/

/-- When every statement has been sent, the results are taken in the order of the statements. -/
theorem mapM_resultsOf (hall : ∀ i < n, i ∈ order) :
    ((resultsOf value script n order).filterMap id).mapM id =
      (List.range n).mapM fun i => heardAs value (script.drop (order.idxOf i)) := by
  have hsome : resultsOf value script n order =
      (List.range n).map fun i => some (heardAs value (script.drop (order.idxOf i))) :=
    List.map_congr_left fun i hi => if_pos (hall i (List.mem_range.1 hi))
  have hresults : (resultsOf value script n order).filterMap id =
      (List.range n).map fun i => heardAs value (script.drop (order.idxOf i)) := by
    rw [hsome, List.filterMap_map]
    exact congrFun List.filterMap_eq_map _
  rw [hresults, List.mapM_map, Function.id_comp]

/-- A statement did not fail exactly if it has a result. -/
@[simp] theorem heardAs_eq_ok {a : α} :
    heardAs value script = .ok a ↔ failureHeard script = none ∧ a = value script := by
  rw [heardAs]
  cases failureHeard script <;> simp [eq_comm]

/-- It failed exactly if the reply says so. -/
@[simp] theorem heardAs_eq_error {e : ApiError} :
    heardAs value script = .error e ↔
      ∃ why, failureHeard script = some why ∧ e = .database why := by
  rw [heardAs]
  cases failureHeard script <;> simp [eq_comm]

/-- A failure that was heard is one of the replies. -/
theorem exists_failureHeard (hi : i ∈ order) {e : ApiError}
    (h : heardAs value (script.drop (order.idxOf i)) = .error e) :
    ∃ k < order.length, ∃ why, failureHeard (script.drop k) = some why ∧ e = .database why :=
  ⟨order.idxOf i, List.idxOf_lt_length_of_mem hi, heardAs_eq_error.1 h⟩

/-- **Where there are results**, no reply was a failure. -/
theorem failureHeard_eq_none {values : List α} (hperm : order.Perm (List.range n))
    (h : (List.range n).mapM (fun i => heardAs value (script.drop (order.idxOf i))) = .ok values) :
    (∀ k < n, failureHeard (script.drop k) = none) ∧
      values = (List.range n).map fun i => value (script.drop (order.idxOf i)) := by
  have hlength : order.length = n := by simpa using hperm.length_eq
  have hnone : ∀ i ∈ List.range n, failureHeard (script.drop (order.idxOf i)) = none := by
    intro i hi
    cases hheard : heardAs value (script.drop (order.idxOf i)) with
    | ok a => exact (heardAs_eq_ok.1 hheard).1
    | error e =>
      obtain ⟨why, hwhy⟩ := exists_mapM_error
        (f := fun i => heardAs value (script.drop (order.idxOf i))).2 ⟨i, hi, e, hheard⟩
      exact absurd (h.symm.trans hwhy) (by simp)
  refine ⟨fun k hk => ?_, ?_⟩
  · -- the reply with this number is that of some statement
    have hk : k < order.length := hlength ▸ hk
    rw [← (hperm.nodup_iff.2 List.nodup_range).idxOf_getElem k hk]
    exact hnone _ (hperm.mem_iff.1 (List.getElem_mem hk))
  · rw [mapM_eq_ok_map fun i hi => heardAs_eq_ok.2 ⟨hnone i hi, rfl⟩] at h
    exact (Except.ok.inj h).symm

/-- **What is answered when every statement has been sent**: the results of all of them, or the
failure of one. -/
theorem gathered_of_perm {turns : List Turn} (hperm : order.Perm (List.range n))
    (hinOrder : Turn.InOrder 0 turns → order = List.range order.length) :
    Gathered turns n value script order
      ((List.range n).mapM fun i => heardAs value (script.drop (order.idxOf i))) where
  nodup := hperm.nodup_iff.2 List.nodup_range
  lt := fun i hi => List.mem_range.1 (hperm.mem_iff.1 hi)
  ok := fun values hvalues => ⟨hperm, failureHeard_eq_none hperm hvalues⟩
  error := fun e he => by
    obtain ⟨i, hi, hheard⟩ := mem_of_mapM_error he
    exact exists_failureHeard (hperm.mem_iff.2 hi) hheard
  inOrder := hinOrder
  alone := fun hturns => by
    have hlength : order.length = n := by simpa using hperm.length_eq
    have hrange : order = List.range n := by rw [hinOrder (hturns ▸ trivial), hlength]
    refine ⟨hrange, mapM_congr fun i hi => ?_⟩
    have hi : i < (List.range n).length := List.length_range.symm ▸ List.mem_range.1 hi
    have hindex : order.idxOf i = i := by simpa [hrange] using List.nodup_range.idxOf_getElem i hi
    rw [hindex]

/-- **What is answered when the turns are over**, or when a failure was taken before. -/
theorem TurnsTo.gathered {turns : List Turn} {sent : List Nat}
    {answer : Except ApiError (List (Option (Except ApiError α)))}
    (h : TurnsTo value script n [] (turns ++ (List.range n).map .run) sent answer) :
    Gathered turns n value script sent
      (answer >>= fun results => (results.filterMap id).mapM id) := by
  obtain ⟨p, hp, hsent, hanswer⟩ := h
  obtain ⟨hnodup, hlt⟩ : sent.Nodup ∧ ∀ i ∈ sent, i < n := by
    rw [hsent]
    exact Turn.started_ok List.nodup_nil (by simp)
  have hinOrder : Turn.InOrder 0 turns → sent = List.range sent.length := by
    intro hturns
    have hfirst := Turn.started_of_inOrder (n := n) (hturns.append (Turn.inOrder_range n)) hp
    simpa [← hsent] using hfirst
  rcases hanswer with ⟨rfl, rfl⟩ | ⟨e, rfl, i, hi, htake, hheard⟩
  · have hall : ∀ i < n, i ∈ sent := fun i hi => hsent ▸ Turn.mem_started hi (by simp [hi])
    have hperm : sent.Perm (List.range n) :=
      (List.perm_ext_iff_of_nodup hnodup List.nodup_range).2 fun i =>
        ⟨fun hi => List.mem_range.2 (hlt i hi), fun hi => hall i (List.mem_range.1 hi)⟩
    rw [ok_bind, mapM_resultsOf hall]
    exact gathered_of_perm hperm hinOrder
  · refine ⟨hnodup, hlt, fun values hvalues => ?_, fun e' he => ?_, hinOrder, fun hturns => ?_⟩
    · simp [bind, Except.bind] at hvalues
    · obtain rfl : e = e' := Except.error.inj he
      exact exists_failureHeard hi hheard
    · -- without turns no failure is taken before
      simp [hturns] at htake

/-- **Pieces that are statements**, in whatever turns: some are sent, and the answer is as
`Gathered` says. -/
theorem on_all (h : TakesOne f event value) (qs : List Statement) (s : Session) :
    ∃ sent, Gathered s.turns qs.length value s.script sent ((all (qs.map f)).on s).1 ∧
      ((all (qs.map f)).on s).2 = s.afterSome (qs.map (event s.inTransaction)) sent := by
  have hall : (all (qs.map f)).on s =
      ((s.turns ++ (List.range qs.length).map Turn.run).foldlM (turn (qs.map f))
        (resultsOf value s.script qs.length []) >>= fun results =>
          ofExcept ((results.filterMap id).mapM id)).on
            (s.afterSome (qs.map (event s.inTransaction)) []) := by
    have hstart : s.afterSome (qs.map (event s.inTransaction)) [] = s := by
      simp [Session.afterSome]
    have hnone : (qs.map f).map (fun _ => (none : Option (Except ApiError α))) =
        resultsOf value s.script qs.length [] := by
      simp [resultsOf, Function.comp_def, List.map_const']
    rw [hstart, ← hnone, ← List.length_map f]
    rfl
  obtain ⟨sent, hturns, hsession⟩ := on_turns h qs s
    (s.turns ++ (List.range qs.length).map .run) []
  rw [hall, on_bind_ofExcept, hsession]
  exact ⟨sent, hturns.gathered, rfl⟩

/-- **Work that sends these events** on a fresh session, as statements that do not wait for each
other. -/
def SendsApart (w : Work α) (events : List Event) : Prop :=
  ∀ script turns, SentApart turns (∃ a, (w.on ⟨script, [], false, turns⟩).1 = .ok a) events
    (w.on ⟨script, [], false, turns⟩).2.log

theorem sendsApart_all (h : TakesOne f event value) (qs : List Statement) :
    SendsApart (all (qs.map f)) (qs.map (event false)) := by
  intro script turns
  obtain ⟨sent, hgathered, hsession⟩ := on_all h qs ⟨script, [], false, turns⟩
  have hapart : SentApart turns _ (qs.map (event false)) _ :=
    hgathered.sentApart (List.length_map ..)
  rw [hsession]
  simpa [Session.afterSome] using hapart

theorem SendsApart.map {w : Work α} {events : List Event} (h : SendsApart w events) (g : α → β) :
    SendsApart (g <$> w) events := by
  intro script turns
  rw [on_map]
  exact (h script turns).congr exists_map_eq_ok

/-- A failure that is taken before the other statement has run keeps it from being sent. -/
example :
    ((all (["a", "b"].map fun sql => execute { sql })).on
        ⟨[.failure none .rowNotFound], [], false, [.run 1, .take 1]⟩).2.log.filterMap
      Event.statement? == [{ sql := "b" }] := by
  decide

/-! ## What does not exist -/

/-- **Nothing was sent** where the answer is that something does not exist. -/
def MissesEarly (w : Work α) : Prop :=
  ∀ s what, (w.on s).1 = .error (.notFound what) → (w.on s).2 = s

namespace MissesEarly

theorem check {f : α → Work β} (x : Except ApiError α) (hf : ∀ a, MissesEarly (f a)) :
    MissesEarly (ofExcept x >>= f) := by
  intro s what h
  cases x with
  | error e => rfl
  | ok a => exact hf a s what h

/-- Work that does not find anything missing. -/
theorem of_ne {w : Work α} (h : ∀ s what, (w.on s).1 ≠ .error (.notFound what)) :
    MissesEarly w :=
  fun s what hs => absurd hs (h s what)

theorem map {w : Work α} (hw : MissesEarly w) (f : α → β) : MissesEarly (f <$> w) := by
  intro s what h
  rw [on_map] at h ⊢
  refine hw s what ?_
  cases hr : (w.on s).1 with
  | ok a => simp [hr, Except.map] at h
  | error e =>
    rw [hr] at h
    rw [Except.error.inj h]

end MissesEarly

end Work

end TableApi
