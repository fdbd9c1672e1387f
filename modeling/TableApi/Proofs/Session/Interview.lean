import TableApi.Proofs.Session.Run

/-!
# Interviews

Work that only fetches is an interview: each of its questions takes a reply, the first reply that is
a failure ends it, and otherwise it comes to a result. Which questions it asks may depend on the
answers, but given the replies to come they can be written down before (`Session.interview`). Work
that follows an interview is put together from fetches (`on_fetch_bind`) and from such work one
after the other (`on_bind_interview`).
-/

namespace TableApi

variable {α β : Type}

namespace Session

/-- The session after a question. -/
def asked (s : Session) (q : Statement) : Session :=
  s.after (.fetch s.inTransaction q)

@[simp] theorem script_asked (s : Session) (q : Statement) :
    (s.asked q).script = s.script.tail := by
  rw [asked, after, heard_fetch]

@[simp] theorem log_asked (s : Session) (q : Statement) :
    (s.asked q).log = s.log ++ [.fetch s.inTransaction q] := rfl

@[simp] theorem inTransaction_asked (s : Session) (q : Statement) :
    (s.asked q).inTransaction = s.inTransaction := rfl

/-- **An interview.** The questions are asked in turn until a reply is a failure, which is the
answer then. If none is, the answer is the result. -/
def interview (s : Session) : List Statement → α → Except ApiError α × Session
  | [], a => (.ok a, s)
  | q :: qs, a =>
    match failureHeard s.script with
    | some why => (.error (.database why), s.asked q)
    | none => (s.asked q).interview qs a

/-- **An interview sees its replies as failures or none**: where two scripts have the same failures
in the same places, it comes to the same answer by the same questions. -/
theorem interview_congr {s s' : Session} (hlog : s.log = s'.log)
    (htransaction : s.inTransaction = s'.inTransaction)
    (hfailures : ∀ k, failureHeard (s.script.drop k) = failureHeard (s'.script.drop k))
    (qs : List Statement) (a : α) :
    (s.interview qs a).1 = (s'.interview qs a).1 ∧
      (s.interview qs a).2.log = (s'.interview qs a).2.log := by
  induction qs generalizing s s' with
  | nil => exact ⟨rfl, hlog⟩
  | cons q qs ih =>
    have hasked : (s.asked q).log = (s'.asked q).log := by
      rw [log_asked, log_asked, hlog, htransaction]
    have hnext : failureHeard s.script = failureHeard s'.script := hfailures 0
    rw [interview, interview, hnext]
    cases failureHeard s'.script with
    | some why => exact ⟨rfl, hasked⟩
    | none =>
      refine ih hasked htransaction fun k => ?_
      simpa using hfailures (k + 1)

end Session

namespace Work

/-- A fetch comes to the rows of the next reply, unless that is a failure. -/
theorem on_fetch_eq (q : Statement) (s : Session) :
    (fetch q).on s = s.interview [q] (rowsHeard s.script) := by
  rw [on_fetch, Event.answer, heard_fetch, Session.interview]
  cases failureHeard s.script <;> rfl

/-- **Work after an interview.** What it goes on with is an interview on the replies that are
left. -/
theorem on_bind_interview {w : Work α} {f : α → Work β} {s : Session} {qs ps : List Statement}
    {a : α} {b : β} (hw : w.on s = s.interview qs a)
    (hf : ∀ s', s'.script = s.script.drop qs.length → (f a).on s' = s'.interview ps b) :
    (w >>= f).on s = s.interview (qs ++ ps) b := by
  rw [on_bind, hw]
  clear hw
  induction qs generalizing s with
  | nil => exact hf s rfl
  | cons q qs ih =>
    rw [List.cons_append, Session.interview, Session.interview]
    cases failureHeard s.script with
    | some why => rfl
    | none =>
      refine ih fun s' hs' => hf s' ?_
      rw [hs', Session.script_asked, List.length_cons, List.drop_tail]

/-- **A question first.** What is asked next may depend on its answer. -/
theorem on_fetch_bind {q : Statement} {f : List Row → Work β} {s : Session} {qs : List Statement}
    {b : β} (hf : ∀ s', s'.script = s.script.tail →
      (f (rowsHeard s.script)).on s' = s'.interview qs b) :
    (fetch q >>= f).on s = s.interview (q :: qs) b :=
  on_bind_interview (on_fetch_eq q s) fun s' hs' => hf s' (by rw [hs', List.length_singleton,
    List.drop_one])

end Work

end TableApi
