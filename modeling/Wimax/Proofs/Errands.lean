import Wimax.Errand

/-! What a caller waits for at each point of a call, and what the call has come to there. -/

namespace Wimax

namespace Order

def question? : Order → Option Question
  | ask q => some q
  | aim _ | prefer _ => none

end Order

namespace Caller

/-- The question whose answer the caller waits for. -/
def awaits? : Caller → Option Question
  | away (.hear q) => some q
  | away (.retire _ (.hear _)) => some .view
  | away (.retire _ (.part _)) => some .halt
  | _ => none

/-- The caller retires and looks no longer. -/
def isParting : Caller → Bool
  | away (.retire _ (.halt _)) | away (.retire _ (.part _)) => true
  | _ => false

theorem eq_halt_of_isParting {c : Caller} {q : Question} (hpart : c.isParting = true)
    (hawaits : c.awaits? = some q) : q = .halt := by
  unfold isParting at hpart
  split at hpart
  · cases hawaits
  · cases hawaits
    rfl
  · cases hpart

/-- The caller is not in the middle of a call. -/
def IsOutset (c : Caller) : Prop :=
  c = idle ∨ (∃ call result, c = back call result) ∨ ∃ call : Call, c = away call.errand

end Caller

/-- The result of a call that has ended the session. -/
def Call.Ends : Call → Except Fault Told → Prop
  | .ask .halt, result => result = .ok .nothing
  | .retire millis, result =>
    result = .ok .nothing ∨ result = .error (.restTimeout (.ofMillis millis))
  | _, _ => False

namespace Errand

variable {e : Errand} {pause now limit moment : Nat} {o : Order} {sent : Nat → Caller}
  {refused lost woken after : Caller} {heard : Nat → Except Fault Told → Caller}

theorem exists_send_of_errand (call : Call) (pause : Nat) :
    ∃ o sent, call.errand.wait pause = .send o sent (.back call (.error .loopStopped)) := by
  cases call <;> exact ⟨_, _, rfl⟩

theorem limit?_errand (call : Call) : call.errand.limit? = none := by cases call <;> rfl

section Send

variable (h : e.wait pause = .send o sent refused)
include h

theorem awaits?_of_send : (Caller.away e).awaits? = none := by
  cases e with
  | hear q => cases h
  | retire millis leg => cases leg <;> first | rfl | cases h
  | _ => rfl

theorem awaits?_sent : (sent now).awaits? = o.question? := by
  cases e with
  | hear q => cases h
  | retire millis leg => cases leg <;> cases h <;> rfl
  | _ => cases h; rfl

theorem isParting_sent : (sent now).isParting = (Caller.away e).isParting := by
  cases e with
  | hear q => cases h
  | retire millis leg => cases leg <;> cases h <;> rfl
  | _ => cases h; rfl

/-- Only an order to halt is sent in parting. -/
theorem eq_halt_of_isParting (hpart : (Caller.away e).isParting = true) : o = .ask .halt := by
  cases e with
  | retire millis leg =>
    cases leg with
    | halt result => cases h; rfl
    | part result => cases h
    | _ => cases hpart
  | _ => cases hpart

theorem not_ends_sent {call : Call} {result : Except Fault Told}
    (hback : sent now = .back call result) : ¬ call.Ends result := by
  cases e with
  | hear q => cases h
  | retire millis leg => cases leg <;> cases h <;> cases hback
  | _ => cases h; cases hback <;> exact id

theorem halt_of_parting_sent {millis : Nat} {result : Except Fault Told}
    (hpart : sent now = .away (.retire millis (.halt result)) ∨
      sent now = .away (.retire millis (.part result))) : e = .retire millis (.halt result) := by
  cases e with
  | hear q => cases h
  | retire millis leg =>
    cases leg <;> cases h <;> rcases hpart with hpart | hpart <;> cases hpart
    rfl
  | _ => cases h; rcases hpart with hpart | hpart <;> cases hpart

end Send

section Answer

variable (h : e.wait pause = .answer heard lost)
include h

theorem exists_awaits?_of_answer : ∃ q, (Caller.away e).awaits? = some q := by
  cases e with
  | hear q => exact ⟨q, rfl⟩
  | retire millis leg =>
    cases leg with
    | hear limit => exact ⟨.view, rfl⟩
    | part result => exact ⟨.halt, rfl⟩
    | _ => cases h
  | _ => cases h

theorem awaits?_heard (answer : Except Fault Told) : (heard now answer).awaits? = none := by
  cases e with
  | hear q => cases h; rfl
  | retire millis leg =>
    cases leg with
    | hear limit =>
      cases h
      dsimp only
      split <;> rfl
    | part result => cases h; rfl
    | _ => cases h
  | _ => cases h

theorem isOutset_heard {answer : Except Fault Told}
    (hhalt : (Caller.away e).awaits? = some .halt) : (heard now answer).IsOutset := by
  cases e with
  | hear q => cases h; exact .inr (.inl ⟨_, _, rfl⟩)
  | retire millis leg =>
    cases leg with
    | part result => cases h; exact .inr (.inl ⟨_, _, rfl⟩)
    | hear limit => cases hhalt
    | _ => cases h
  | _ => cases h

theorem awaits?_of_ends_heard {answer result : Except Fault Told} {call : Call}
    (hback : heard now answer = .back call result) (hends : call.Ends result) :
    (Caller.away e).awaits? = some .halt := by
  cases e with
  | hear q =>
    cases h
    cases hback
    cases q with
    | halt => rfl
    | _ => exact hends.elim
  | retire millis leg =>
    cases leg with
    | part result => rfl
    | hear limit => cases h; cases hback
    | _ => cases h
  | _ => cases h

theorem ends_heard {answer result : Except Fault Told} {millis : Nat}
    (hpart : heard now answer = .away (.retire millis (.halt result))) :
    (Call.retire millis).Ends result := by
  cases e with
  | hear q => cases h; cases hpart
  | retire millis leg =>
    cases leg with
    | hear limit =>
      cases h
      dsimp only at hpart
      split at hpart <;> cases hpart
      exact .inl rfl
    | part result => cases h; cases hpart
    | _ => cases h
  | _ => cases h

end Answer

theorem pause_of_sleep (h : e.wait pause = .sleep moment woken) :
    ∃ millis limit, e = .retire millis (.pause limit moment) ∧
      woken = .away (.retire millis (.look limit)) := by
  cases e with
  | retire millis leg => cases leg <;> cases h; exact ⟨_, _, rfl, rfl⟩
  | _ => cases h

theorem retire_of_limit? (h : e.limit? = some (limit, after)) :
    ∃ millis leg, e = .retire millis leg ∧
      (leg = .look limit ∨ leg = .hear limit ∨ ∃ moment, leg = .pause limit moment) ∧
      after = .away (.retire millis (.halt (.error (.restTimeout (.ofMillis millis))))) := by
  cases e with
  | retire millis leg => cases leg <;> cases h <;> exact ⟨_, _, rfl, by simp, rfl⟩
  | _ => cases h

end Errand

end Wimax
