import Wimax.Proofs.BenchRuns
import Wimax.Proofs.Endings
import Wimax.Proofs.Retiring

/-!
Stopping is final. Behind a call that has ended the session nothing is asked of the card, nothing is
published, and whatever is tried fails; an order to halt does not touch the card itself.
-/

namespace Wimax

namespace Deed

/-- The deed puts a request to the card or publishes an event. -/
def isAct : Deed → Bool
  | ask _ | publish _ => true
  | _ => false

/-- How an operation of the caller or a notice ends, the value apart. -/
def outcome? : Deed → Option (Except Fault Unit)
  | .result _ r => some (r.map fun _ => ())
  | .post _ r => some r
  | _ => none

end Deed

namespace System

variable {rt : Runtime} {s t u : System rt} {now later begun : Nat} {d : Deed}
  {history rest : List (Nat × Deed)}

/-- A session that is over, with a caller who does not know it or has been told so. -/
structure Dead (s : System rt) : Prop where
  stopped : s.loop = .stopped
  orders : ¬ rt.orders.IsOpen s.orders
  notices : ¬ rt.notices.IsOpen s.notices
  caller : s.caller = .idle ∨ (∃ call : Call, s.caller = .away call.errand) ∨
    ∃ call, s.caller = .back call (.error .loopStopped)

theorem not_loopStep_of_stopped (h : s.loop = .stopped) : ¬ LoopStep now s d t := by
  intro hstep
  cases hstep <;> simp_all

theorem Dead.step (hrt : rt.Lawful) (hs : s.Dead) (h : s.Step now d t) :
    t.Dead ∧ d.isAct = false ∧ ∀ r, d.outcome? = some r → r = .error .loopStopped := by
  obtain ⟨hstop, horders, hnotices, hcaller⟩ := hs
  have haway : ∀ {e : Errand}, s.caller = .away e → ∃ call : Call, e = call.errand := by
    intro e he
    rw [he] at hcaller
    rcases hcaller with hidle | ⟨call, hcall⟩ | ⟨call, hback⟩
    · cases hidle
    · exact ⟨call, Caller.away.inj hcall⟩
    · cases hback
  cases h with
  | loop h => exact absurd h (not_loopStep_of_stopped hstop)
  | post n put => exact absurd (hrt.notices.of_puts put).1 hnotices
  | postRefused n gone =>
    exact ⟨⟨hstop, horders, hnotices, hcaller⟩, rfl, fun r hr => (Option.some.inj hr).symm⟩
  | caller h =>
    cases h with
    | begin h kept call =>
      exact ⟨⟨hstop, horders, hnotices, .inr (.inl ⟨call, rfl⟩)⟩, rfl, fun _ hr => nomatch hr⟩
    | send h wait put => exact absurd (hrt.orders.of_puts put).1 horders
    | refused h wait gone =>
      obtain ⟨call, rfl⟩ := haway h
      obtain ⟨o, sent, hsend⟩ := Errand.exists_send_of_errand call s.lookPause
      rw [hsend] at wait
      cases wait
      exact ⟨⟨hstop, horders, hnotices, .inr (.inr ⟨call, rfl⟩)⟩, rfl, fun _ hr => nomatch hr⟩
    | expire h limited =>
      obtain ⟨call, rfl⟩ := haway h
      rw [Errand.limit?_errand] at limited
      cases limited
    | result h =>
      refine ⟨⟨hstop, horders, hnotices, .inl rfl⟩, rfl, fun r hr => ?_⟩
      rw [h] at hcaller
      rcases hcaller with hidle | ⟨call, hcall⟩ | ⟨call, hback⟩
      · cases hidle
      · cases hcall
      · cases hback
        exact (Option.some.inj hr).symm
    | release h => exact ⟨⟨hstop, horders, hnotices, .inl h⟩, rfl, fun _ hr => nomatch hr⟩
    | _ h wait =>
      obtain ⟨call, rfl⟩ := haway h
      obtain ⟨o, sent, hsend⟩ := Errand.exists_send_of_errand call s.lookPause
      rw [hsend] at wait
      cases wait

theorem Dead.run (hrt : rt.Lawful) (hs : s.Dead) (run : s.Run begun history now t) :
    t.Dead ∧ ∀ x ∈ history, x.2.isAct = false ∧
      ∀ r, x.2.outcome? = some r → r = .error .loopStopped :=
  run.keeps (Dead.step hrt) hs

/-- Behind the end of a session a notice and any call fail at once. -/
theorem Dead.fails (hrt : rt.Lawful) (hs : s.Dead) (now : Nat) :
    (∀ n, s.Step now (.post n (.error .loopStopped)) s) ∧
      (s.caller = .idle → s.released = false → ∀ call,
        s.Run now [(now, .begin call), (now, .refused), (now, .result call (.error .loopStopped))]
          now s) := by
  refine ⟨fun n => .postRefused n (hrt.notices.refuses_iff.mpr hs.notices), ?_⟩
  intro hidle hkept call
  obtain ⟨o, sent, hsend⟩ := Errand.exists_send_of_errand call s.lookPause
  have hbegin : s.Step now (.begin call) { s with caller := .away call.errand } :=
    .caller (.begin hidle hkept call)
  have hrefused : Step now { s with caller := .away call.errand } .refused
      { s with caller := .back call (.error .loopStopped) } :=
    .caller (.refused rfl hsend (hrt.orders.refuses_iff.mpr hs.orders))
  have hresult : Step now { s with caller := .back call (.error .loopStopped) }
      (.result call (.error .loopStopped)) { s with caller := .idle } :=
    .caller (.result rfl)
  have hsame : ({ s with caller := .idle } : System rt) = s := by rw [← hidle]
  rw [hsame] at hresult
  exact .step (.step (.step .nil hbegin) hrefused) hresult

/-- The loop is to stop, or has stopped, and does nothing else any more. -/
def Halting (s : System rt) : Prop :=
  s.loop = .stopped ∨ ∃ l deadline m answer,
    s.loop = .working (.order l deadline) (.done (m, answer)) ∧ l.order = .ask .halt

theorem Halting.step (hs : s.Halting) (h : s.Step now d t) : t.Halting ∧ d.isAct = false := by
  cases h with
  | caller h =>
    refine ⟨?_, by cases h <;> rfl⟩
    unfold Halting
    rw [h.loop]
    exact hs
  | post => exact ⟨hs, rfl⟩
  | postRefused => exact ⟨hs, rfl⟩
  | loop h =>
    rcases hs with hstop | ⟨l, deadline, m, answer, hloop, hhalt⟩
    · exact absurd h (not_loopStep_of_stopped hstop)
    · cases h with
      | finish h =>
        obtain ⟨rfl, hwork⟩ := Loop.working.inj (hloop.symm.trans h)
        refine ⟨.inl ?_, rfl⟩
        simp only [System.finish, if_pos hhalt]
        rfl
      | _ h =>
        rw [hloop] at h
        cases h

theorem Halting.run (hs : s.Halting) (run : s.Run begun history now t) :
    ∀ x ∈ history, x.2.isAct = false :=
  (run.keeps Halting.step hs).2

theorem halting_of_take {l : Letter} (h : s.Step now (.take l) t) (hhalt : l.order = .ask .halt) :
    t.Halting := by
  cases h with
  | caller h => cases h
  | loop h =>
    cases h with
    | @take m deadline l q h taken =>
      refine .inr ⟨l, deadline, m, some (.ok .nothing), ?_, hhalt⟩
      rw [hhalt]
      rfl

theorem dead_of_result (hs : s.Sound) {call : Call} {result : Except Fault Told}
    (h : s.Step now (.result call result) t) (hends : call.Ends result) : t.Dead := by
  cases h with
  | loop h => cases h
  | caller h =>
    cases h with
    | result h =>
      have hstop := hs.ended call result h hends
      obtain ⟨-, horders, hnotices⟩ := hs.closed hstop
      exact ⟨hstop, horders, hnotices, .inl rfl⟩

/-- A call has ended the session. -/
def EndedIn (history : List (Nat × Deed)) : Prop :=
  ∃ time call result, (time, .result call result) ∈ history ∧ call.Ends result

theorem EndedIn.snoc (h : EndedIn history) (x : Nat × Deed) : EndedIn (history ++ [x]) := by
  obtain ⟨time, call, result, hmem, hends⟩ := h
  exact ⟨time, call, result, List.mem_append_left _ hmem, hends⟩

/-- A loop that has stopped was released, or a call has ended the session or is about to. -/
def Accounted (history : List (Nat × Deed)) (s : System rt) : Prop :=
  s.loop = .stopped → s.released = true ∨ s.caller.awaits? = some .halt ∨
    (∃ call result, s.caller = .back call result ∧ call.Ends result) ∨ EndedIn history

theorem Accounted.loopStep (hrt : rt.Lawful) (hs : s.Sound) (hsettling : s.Settling)
    (h : LoopStep now s d t) : Accounted (history ++ [(now, d)]) t := by
  intro hstop
  rcases h.steady_or hrt with ⟨hsteady, -⟩ | ⟨l, deadline, m, answer, hloop, rfl, rfl⟩ |
    ⟨hreleased, -, -, rfl⟩
  · exact absurd hstop hsteady.running.2
  · by_cases hhalt : l.order = .ask .halt
    · have hawaits := (hs.finish_halt hloop (hsettling.finished hloop) hrt hhalt).2
      simp only [System.finish, if_pos hhalt]
      exact .inr (.inl hawaits)
    · simp only [System.finish, if_neg hhalt] at hstop
      cases hstop
  · exact .inl hreleased

/-- A caller who hears that the loop has stopped has ended the session. -/
theorem exists_ends_heard (hrt : rt.Lawful) (hs : s.Sound) {e : Errand}
    {heard : Nat → Except Fault Told → Caller} {lost : Caller} {answer : Except Fault Told}
    (h : s.caller = .away e) (wait : e.wait s.lookPause = .answer heard lost)
    (yields : rt.reply.Yields s.reply answer) (hawaits : s.caller.awaits? = some .halt) :
    ∃ call result, heard now answer = .back call result ∧ call.Ends result := by
  cases e with
  | hear q =>
    rw [h] at hawaits
    cases hawaits
    cases wait
    rcases hs.answered .halt (by rw [h]; rfl) with hwaits | ⟨_, told, hreply, htold, -⟩
    · rw [hs.fresh ⟨_, hwaits, rfl⟩] at yields
      exact absurd yields (hrt.reply.not_yields_fresh answer)
    · rw [hreply] at yields
      obtain rfl := hrt.reply.yields_fill_iff.mp yields
      exact ⟨_, _, rfl, Option.some.inj htold⟩
  | retire millis leg =>
    cases leg with
    | part result =>
      cases wait
      exact ⟨_, _, rfl, hs.parting millis result (.inr h)⟩
    | hear limit =>
      rw [h] at hawaits
      cases hawaits
    | _ => cases wait
  | _ => cases wait

theorem Accounted.callerStep (hrt : rt.Lawful) (hs : s.Sound) (hacc : s.Accounted history)
    (h : CallerStep now s d t) : t.Accounted (history ++ [(now, d)]) := by
  intro hstop
  rw [h.loop] at hstop
  rcases hacc hstop with hreleased | hawaits | ⟨call, result, hback, hends⟩ | hended
  · have hidle := hs.released hreleased
    cases h <;> simp_all
  · cases h with
    | hear h wait yields =>
      exact .inr (.inr (.inl (exists_ends_heard hrt hs h wait yields hawaits)))
    | lose h wait fails => exact absurd fails (hs.not_fails hrt hawaits)
    | wake h wait =>
      obtain ⟨millis, limit, rfl, rfl⟩ := Errand.pause_of_sleep wait
      rw [h] at hawaits
      cases hawaits
    | expire h limited =>
      obtain ⟨millis, leg, rfl, hleg, rfl⟩ := Errand.retire_of_limit? limited
      rw [h] at hawaits
      rcases hleg with rfl | rfl | ⟨moment, rfl⟩ <;> cases hawaits
    | begin h =>
      rw [h] at hawaits
      cases hawaits
    | result h =>
      rw [h] at hawaits
      cases hawaits
    | release h =>
      rw [h] at hawaits
      cases hawaits
    | _ h wait =>
      rw [h, Errand.awaits?_of_send wait] at hawaits
      cases hawaits
  · cases h with
    | @result call' result' h =>
      rw [h] at hback
      cases hback
      exact .inr (.inr (.inr
        ⟨now, call, result, List.mem_append_right _ List.mem_cons_self, hends⟩))
    | _ h =>
      rw [h] at hback
      cases hback
  · exact .inr (.inr (.inr (hended.snoc _)))

theorem Run.accounted (hrt : rt.Lawful) {settings : Settings}
    (run : (start rt settings).Run begun history now s) : s.Accounted history := by
  induction run with
  | nil => exact fun hstop => nomatch hstop
  | @step history now s t d prior last ih =>
    obtain ⟨hs, hsettling⟩ := prior.sound_of_start hrt
    cases last with
    | loop h => exact Accounted.loopStep hrt hs hsettling h
    | caller h => exact ih.callerStep hrt hs h
    | post | postRefused =>
      intro hstop
      rcases ih hstop with hreleased | hawaits | hback | hended
      · exact .inl hreleased
      · exact .inr (.inl hawaits)
      · exact .inr (.inr (.inl hback))
      · exact .inr (.inr (.inr (hended.snoc _)))
  | wait prior passes ih => exact ih

/-- A call does not begin in a session that has stopped, unless one before has ended it. -/
theorem not_stopped_of_begin (hrt : rt.Lawful) {settings : Settings}
    (run : (start rt settings).Run begun history now s) {call : Call}
    (h : s.Step later (.begin call) t) (hended : ¬ EndedIn history) : s.loop ≠ .stopped := by
  intro hstop
  cases h with
  | loop h => cases h
  | caller h =>
    cases h with
    | begin h kept =>
      rcases run.accounted hrt hstop with hreleased | hawaits | ⟨call, result, hback, -⟩ | hin
      · rw [kept] at hreleased
        cases hreleased
      · rw [h] at hawaits
        cases hawaits
      · rw [h] at hback
        cases hback
      · exact hended hin

/-- On any runtime, whatever the card does and in whatever order the tasks take their steps:
behind a call that has ended the session the card is asked nothing, nothing is published and every
call and notice fails; the order to halt asks the card nothing; a call to retire first sets the goal
to rest, succeeds if and only if rest is shown before its time limit strikes, and ends with the time
limit otherwise; and a call under way always has a way on to its end. -/
theorem stop_is_final (hrt : rt.Lawful) {settings : Settings}
    (run : (start rt settings).Run begun history now s) :
    (∀ before time call result after,
      history = before ++ (time, .result call result) :: after → call.Ends result →
        (∀ x ∈ after, x.2.isAct = false ∧
          ∀ r, x.2.outcome? = some r → r = .error .loopStopped) ∧
        (∀ n, s.Step now (.post n (.error .loopStopped)) s) ∧
        (s.caller = .idle → s.released = false → ∀ call, s.Run now
          [(now, .begin call), (now, .refused), (now, .result call (.error .loopStopped))]
          now s)) ∧
    (∀ before time l after, history = before ++ (time, .take l) :: after →
      l.order = .ask .halt → ∀ x ∈ after, x.2.isAct = false) ∧
    (∀ before called millis mid time call result after,
      history = before ++ (called, .begin (.retire millis)) :: mid ++
        (time, .result call result) :: after →
      ¬ EndedIn before → (∀ x ∈ mid, x.2.isResult = false) →
        call = .retire millis ∧ ∃ first sent number rest,
          mid = first ++ (sent, .send ⟨number, .aim .ready⟩) :: rest ∧
          (∀ x ∈ first, x.2.isCallers = false) ∧ Obeyed number rest ∧
          (result = .ok .nothing ∧ RestShown rt.clock number (sent + millis) rest ∨
            result = .error (.restTimeout (.ofMillis millis)) ∧
              ¬ RestShown rt.clock number (sent + millis) rest ∧
              TimedOut (sent + millis) rest)) ∧
    (0 < settings.queueCapacity → ∀ e, s.caller = .away e → ∃ rest later t result,
      s.Run now (rest ++ [(later, .result e.call result)]) later t ∧
        ∀ x ∈ rest, x.2.isResult = false) := by
  refine ⟨?_, ?_, ?_, ?_⟩
  · rintro before time call result after rfl hends
    obtain ⟨between, u, v, hbefore, hstep, hafter⟩ := run.at
    have hdead := dead_of_result (hbefore.sound_of_start hrt).1 hstep hends
    obtain ⟨hlast, hhistory⟩ := hdead.run hrt hafter
    exact ⟨hhistory, hlast.fails hrt now⟩
  · rintro before time l after rfl hhalt
    obtain ⟨between, u, v, -, hstep, hafter⟩ := run.at
    exact (halting_of_take hstep hhalt).run hafter
  · rintro before called millis mid time call result after rfl hended hmid
    obtain ⟨between, u, v, hmiddle, hresult, -⟩ := run.at
    obtain ⟨between', u', v', hbefore, hbegin, hrest⟩ := hmiddle.at
    obtain ⟨hsound, hsettling⟩ := hbefore.sound_of_start hrt
    have hrun := not_stopped_of_begin hrt hbefore hbegin hended
    obtain ⟨rfl, first, sent, number, rest, rfl, hfirst, hobeyed, hcomes⟩ :=
      concludes_of_run hrt hsound hsettling hrun hbegin hrest hmid hresult
    refine ⟨rfl, first, sent, number, rest, rfl, hfirst, hobeyed, ?_⟩
    rcases hcomes with ⟨rfl, hshown⟩ | ⟨rfl, hout⟩
    · exact .inl ⟨rfl, hshown⟩
    · exact .inr ⟨rfl, hout.not_restShown, hout⟩
  · intro hroom e haway
    exact exists_ending hrt ((fit_start hrt hroom).run hrt run) haway now

end System

namespace Session

/-- A session that was to retire while a call of its teardown hung, and what was tried behind it. -/
def overdue : Session :=
  let card := ({} : Card).push (.unsubscribe .statusChange) (.stall 20000)
  let s := ((Session.start {} card).post (.insertRemove true)).2.runUntil 2500
  let s := ((s.retire 1500).2.post (.insertRemove false)).2
  s.view.2

theorem runs_overdue : overdue.Runs {} := by
  have hstart := runs_start {} (({} : Card).push (.unsubscribe .statusChange) (.stall 20000))
  have hteardown := (hstart.postNotice (.insertRemove true)).runUntil 2500
  exact ((hteardown.retire 1500).postNotice (.insertRemove false)).view

end Session

namespace System

open Session

theorem stop_is_final_in_teardown :
    Runtime.bench.Lawful ∧ overdue.Runs {} ∧ ∃ before mid after,
      overdue.history.reverse = before ++ (2500, .begin (.retire 1500)) :: mid ++
        (23400, .result (.retire 1500) (.error (.restTimeout (.ofMillis 1500)))) :: after ∧
      (∃ first sent number rest, mid = first ++ (sent, .send ⟨number, .aim .ready⟩) :: rest ∧
        TimedOut (sent + 1500) rest) ∧
      after.length = 4 ∧ ∀ x ∈ after, x.2.isAct = false ∧
        ∀ r, x.2.outcome? = some r → r = .error .loopStopped := by
  have hsplit : overdue.history.reverse =
      overdue.history.reverse.take 124 ++ (2500, .begin (.retire 1500)) ::
          (overdue.history.reverse.drop 125).take 65 ++
        (23400, .result (.retire 1500) (.error (.restTimeout (.ofMillis 1500)))) ::
          overdue.history.reverse.drop 191 := by
    decide +kernel
  have hbefore : ∀ x ∈ overdue.history.reverse.take 124, x.2.isResult = false := by
    decide +kernel
  have hmid : ∀ x ∈ (overdue.history.reverse.drop 125).take 65, x.2.isResult = false := by
    decide +kernel
  obtain ⟨hfinal, -, hretire, -⟩ := stop_is_final Runtime.lawful_bench runs_overdue
  obtain ⟨-, first, sent, number, rest, hsent, -, -, hresult⟩ :=
    hretire _ _ _ _ _ _ _ _ hsplit (fun ⟨_, _, _, hmem, _⟩ => nomatch hbefore _ hmem) hmid
  have hout : TimedOut (sent + 1500) rest := by
    rcases hresult with ⟨hok, -⟩ | ⟨-, -, hout⟩
    · cases hok
    · exact hout
  exact ⟨Runtime.lawful_bench, runs_overdue, _, _, _, hsplit,
    ⟨first, sent, number, rest, hsent, hout⟩, by decide +kernel,
    (hfinal _ _ _ _ _ hsplit (.inr rfl)).1⟩

end System

end Wimax
