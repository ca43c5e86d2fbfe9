import Wimax.Run
import Wimax.System

/-!
Runs of a system: how they are taken apart, and what the work of the loop comes to. The machine of a
loop is one that a run of operations leads to, so what holds of every reachable machine holds there.
-/

namespace Wimax

namespace Dialog

variable {α : Type} {d : Dialog α} {p : α → Prop} {a : α} {r : Request} {e : Event}
  {next : Outcome → Dialog α}

/-- Whatever the card does, the dialog ends with a result of the given kind. -/
def EndsIn (d : Dialog α) (p : α → Prop) : Prop := ∀ acts a, d.Runs acts a → p a

theorem endsIn_done_iff : (done a).EndsIn p ↔ p a := by
  constructor
  · intro h
    exact h [] a (.done a)
  · intro h acts a' hruns
    obtain ⟨-, rfl⟩ := runs_done_iff.mp hruns
    exact h

theorem EndsIn.of_publish (h : (publish e d).EndsIn p) : d.EndsIn p :=
  fun _ _ hruns => h _ _ (.publish _ _ _ _ hruns)

theorem EndsIn.of_ask (h : (ask r next).EndsIn p) (o : Outcome) : (next o).EndsIn p :=
  fun _ _ hruns => h _ _ (.ask _ _ _ _ _ hruns)

end Dialog

namespace Order

/-- What the order comes to: the machine behind it and the answer. -/
def Settles : Order → Machine × Option (Except Fault Told) → Prop
  | aim g, (m, answer) => m.goal = g ∧ answer = none
  | prefer _, (_, answer) => answer = none
  | ask .view, (m, answer) => answer = some (.ok (.view m.view))
  | ask (.query _), (_, answer) =>
    ∃ result : Except Fault Answer, answer = some (result.map .answer)
  | ask .halt, (_, answer) => answer = some (.ok .nothing)

end Order

/-- What the job comes to. Only orders are answered. -/
def Job.Settles : Job → Machine × Option (Except Fault Told) → Prop
  | order l _, done => l.order.Settles done
  | notice, (_, answer) | tick, (_, answer) => answer = none

/-- The machine behind the job is one that operations lead to, and the job has been done. -/
def Job.Comes (job : Job) (done : Machine × Option (Except Fault Told)) : Prop :=
  done.1.Reachable ∧ job.Settles done

theorem Work.endsIn_quiet {d : Dialog Machine} (h : d.EndsIn Machine.Reachable) :
    (Work.quiet d).EndsIn fun done => done.1.Reachable ∧ done.2 = none := by
  intro acts done hruns
  obtain ⟨m, first, rest, -, hfirst, hrest⟩ := Dialog.runs_bind_iff.mp hruns
  obtain ⟨-, rfl⟩ := Dialog.runs_done_iff.mp hrest
  exact ⟨h first m hfirst, rfl⟩

namespace Machine

variable {m : Machine}

theorem Reachable.endsIn_carryOut (hm : m.Reachable) (op : Operation) :
    (m.carryOut op).EndsIn Reachable := fun _ _ hruns => hm.step hruns

theorem Reachable.endsIn_obey (hm : m.Reachable) (l : Letter) (deadline : Nat) :
    (m.obey l.order).EndsIn (Job.order l deadline).Comes := by
  obtain ⟨number, order⟩ := l
  cases order with
  | aim g =>
    exact Dialog.endsIn_done_iff.mpr
      ⟨Dialog.endsIn_done_iff.mp (hm.endsIn_carryOut (.aim g)), rfl, rfl⟩
  | prefer name => exact Work.endsIn_quiet (hm.endsIn_carryOut (.prefer name))
  | ask q =>
    cases q with
    | view => exact Dialog.endsIn_done_iff.mpr ⟨hm, rfl⟩
    | halt => exact Dialog.endsIn_done_iff.mpr ⟨hm, rfl⟩
    | query q =>
      intro acts done hruns
      obtain ⟨⟨n, result⟩, first, rest, -, hfirst, hrest⟩ := Dialog.runs_bind_iff.mp hruns
      obtain ⟨-, rfl⟩ := Dialog.runs_done_iff.mp hrest
      have hquery : (m.carryOut (.query q)).Runs (first ++ []) n :=
        Dialog.runs_bind_iff.mpr ⟨(n, result), first, [], rfl, hfirst, .done n⟩
      exact ⟨hm.step hquery, result, rfl⟩

end Machine

theorem Order.Settles.exists_answer {q : Question} {m : Machine}
    {answer : Option (Except Fault Told)} (h : (Order.ask q).Settles (m, answer)) :
    ∃ told, answer = some told := by
  cases q with
  | view => exact ⟨_, h⟩
  | query q =>
    obtain ⟨_, h⟩ := h
    exact ⟨_, h⟩
  | halt => exact ⟨_, h⟩

namespace System

variable {rt : Runtime} {s t : System rt} {now : Nat} {d : Deed}

section Respond

variable (s : System rt) (l : Letter) (answer : Option (Except Fault Told))

theorem respond_eq :
    s.respond l answer = { s with reply := (s.respond l answer).reply } := by
  unfold respond
  cases answer with
  | none => rfl
  | some a =>
    dsimp only
    split <;> rfl

@[simp]
theorem respond_caller : (s.respond l answer).caller = s.caller := by rw [respond_eq]

@[simp]
theorem respond_orders : (s.respond l answer).orders = s.orders := by rw [respond_eq]

@[simp]
theorem respond_notices : (s.respond l answer).notices = s.notices := by rw [respond_eq]

@[simp]
theorem respond_number : (s.respond l answer).number = s.number := by rw [respond_eq]

@[simp]
theorem respond_released : (s.respond l answer).released = s.released := by rw [respond_eq]

variable {s l answer}

theorem reply_respond_of_ne (h : l.number ≠ s.number) :
    (s.respond l answer).reply = s.reply := by
  cases answer with
  | none => rfl
  | some a => simp only [respond, if_neg h]

theorem reply_respond_of_eq {a : Except Fault Told} (h : l.number = s.number) :
    (s.respond l (some a)).reply = rt.reply.fill s.reply a := by
  simp only [respond, if_pos h]

end Respond

/-- A loop that has carried an order out waits again, unless that was an order to halt. -/
theorem finish_order_eq_or (s : System rt) (now : Nat) (m : Machine)
    (answer : Option (Except Fault Told)) (l : Letter) (deadline : Nat) :
    s.finish now m answer (.order l deadline) = (s.respond l answer).shut ∨
      s.finish now m answer (.order l deadline) =
        { s.respond l answer with loop := .waiting m deadline } := by
  by_cases hhalt : l.order = .ask .halt
  · exact .inl (if_pos hhalt)
  · exact .inr (if_neg hhalt)

/-- The machine of the loop is one that operations lead to, and the work that is under way comes to
what its job does. -/
def Settling (s : System rt) : Prop :=
  match s.loop with
  | .passing m | .waiting m _ => m.Reachable
  | .working job work => work.EndsIn job.Comes
  | .calling job _ next => ∀ o, (next o).EndsIn job.Comes
  | .stopped => True

section Settling

variable {m : Machine} {job : Job} {work : Work} {deadline : Nat}

theorem settling_passing_iff (h : s.loop = .passing m) : s.Settling ↔ m.Reachable := by
  simp only [Settling, h]

theorem settling_waiting_iff (h : s.loop = .waiting m deadline) : s.Settling ↔ m.Reachable := by
  simp only [Settling, h]

theorem settling_working_iff (h : s.loop = .working job work) :
    s.Settling ↔ work.EndsIn job.Comes := by
  simp only [Settling, h]

theorem settling_calling_iff {r : Request} {next : Outcome → Work}
    (h : s.loop = .calling job r next) : s.Settling ↔ ∀ o, (next o).EndsIn job.Comes := by
  simp only [Settling, h]

theorem Settling.of_loop (hs : s.Settling) (h : t.loop = s.loop) : t.Settling := by
  unfold Settling
  rw [h]
  exact hs

theorem settling_finish (hm : m.Reachable) (s : System rt) (now : Nat)
    (answer : Option (Except Fault Told)) (job : Job) : (s.finish now m answer job).Settling := by
  cases job with
  | notice => exact hm
  | tick => exact hm
  | order l deadline =>
    rcases finish_order_eq_or s now m answer l deadline with heq | heq <;> rw [heq]
    · trivial
    · exact hm

theorem CallerStep.loop (h : CallerStep now s d t) : t.loop = s.loop := by cases h <;> rfl

theorem Settling.loopStep (hs : s.Settling) (h : LoopStep now s d t) : t.Settling := by
  cases h with
  | @receive m n q h =>
    exact Work.endsIn_quiet (((settling_passing_iff h).mp hs).endsIn_carryOut (.notice n))
  | tick h => exact Work.endsIn_quiet (((settling_passing_iff h).mp hs).endsIn_carryOut .tick)
  | publish h => exact ((settling_working_iff h).mp hs).of_publish
  | ask h => exact ((settling_working_iff h).mp hs).of_ask
  | conclude h o => exact (settling_calling_iff h).mp hs o
  | finish h =>
    exact settling_finish (Dialog.endsIn_done_iff.mp ((settling_working_iff h).mp hs)).1 s now _ _
  | pass h => exact (settling_waiting_iff h).mp hs
  | @take m deadline l q h => exact ((settling_waiting_iff h).mp hs).endsIn_obey l deadline
  | leave => trivial

theorem Settling.step (hs : s.Settling) (h : s.Step now d t) : t.Settling := by
  cases h with
  | loop h => exact hs.loopStep h
  | caller h => exact hs.of_loop h.loop
  | post => exact hs.of_loop rfl
  | postRefused => exact hs

theorem Settling.finished {answer : Option (Except Fault Told)} (hs : s.Settling)
    (h : s.loop = .working job (.done (m, answer))) : job.Settles (m, answer) :=
  (Dialog.endsIn_done_iff.mp ((settling_working_iff h).mp hs)).2

theorem settling_start (settings : Settings) : (start rt settings).Settling :=
  Machine.reachable_start settings

end Settling

variable {u : System rt} {history first rest : List (Nat × Deed)} {begun later : Nat}

/-- What every step keeps holds behind a run, and what every step does a run does all through. -/
theorem Run.keeps {I : System rt → Prop} {P : Deed → Prop}
    (hstep : ∀ {now : Nat} {d : Deed} {s t : System rt}, I s → s.Step now d t → I t ∧ P d)
    (run : s.Run begun history now t) (hs : I s) : I t ∧ ∀ x ∈ history, P x.2 := by
  induction run with
  | nil => exact ⟨hs, fun _ hx => nomatch hx⟩
  | step prior last ih =>
    obtain ⟨hlast, hhistory⟩ := ih
    obtain ⟨hnext, hd⟩ := hstep hlast last
    refine ⟨hnext, fun x hx => ?_⟩
    rcases List.mem_append.mp hx with hx | hx
    · exact hhistory x hx
    · obtain rfl := List.mem_singleton.mp hx
      exact hd
  | wait prior passes ih => exact ih

theorem Run.invariant {I : System rt → Prop}
    (hstep : ∀ {now : Nat} {d : Deed} {s t : System rt}, I s → s.Step now d t → I t)
    (run : s.Run begun history now t) (hs : I s) : I t :=
  (run.keeps (P := fun _ => True) (fun hs h => ⟨hstep hs h, trivial⟩) hs).1

theorem Run.settling (run : s.Run begun history now t) (hs : s.Settling) : t.Settling :=
  run.invariant Settling.step hs

/-- The machine of a session is one that operations lead to. -/
theorem Run.reachable {settings : Settings} (run : (start rt settings).Run begun history now t)
    {m : Machine} (h : t.loop = .passing m ∨ ∃ deadline, t.loop = .waiting m deadline) :
    m.Reachable := by
  have ht := run.settling (settling_start settings)
  rcases h with h | ⟨deadline, h⟩
  · exact (settling_passing_iff h).mp ht
  · exact (settling_waiting_iff h).mp ht

theorem Run.append (h₁ : s.Run begun first now t) (h₂ : t.Run now rest later u) :
    s.Run begun (first ++ rest) later u := by
  induction h₂ with
  | nil => simpa using h₁
  | step prior last ih =>
    rw [← List.append_assoc]
    exact .step ih last
  | wait prior passes ih => exact .wait ih passes

theorem Run.at (run : s.Run begun (first ++ (now, d) :: rest) later t) :
    ∃ between u v, s.Run begun first between u ∧ u.Step now d v ∧ v.Run now rest later t := by
  generalize hhistory : first ++ (now, d) :: rest = history at run
  induction run generalizing rest with
  | nil => simp at hhistory
  | @step history later t u d' prior last ih =>
    rcases List.eq_nil_or_concat rest with rfl | ⟨rest', x, rfl⟩
    · obtain ⟨rfl, hx⟩ := List.append_inj' hhistory rfl
      obtain ⟨rfl, rfl⟩ := Prod.mk.inj (List.singleton_inj.mp hx)
      exact ⟨now, t, u, prior, last, .nil⟩
    · rw [List.concat_eq_append, ← List.cons_append, ← List.append_assoc] at hhistory
      obtain ⟨hfirst, hx⟩ := List.append_inj' hhistory rfl
      obtain rfl := List.singleton_inj.mp hx
      obtain ⟨between, v, w, hbefore, hstep, hafter⟩ := ih hfirst
      rw [List.concat_eq_append]
      exact ⟨between, v, w, hbefore, hstep, .step hafter last⟩
  | wait prior passes ih =>
    obtain ⟨between, v, w, hbefore, hstep, hafter⟩ := ih hhistory
    exact ⟨between, v, w, hbefore, hstep, .wait hafter passes⟩

theorem Step.notices_room (hrt : rt.Lawful) (h : s.Step now d t) :
    rt.notices.room t.notices = rt.notices.room s.notices := by
  cases h with
  | caller h => cases h <;> rfl
  | postRefused => rfl
  | post n put => exact (hrt.notices.of_puts put).2.2.2
  | loop h =>
    cases h with
    | receive h taken => exact (hrt.notices.of_takes taken).2.2
    | leave => exact hrt.notices.room_close _
    | @finish job m answer h =>
      cases job with
      | order l deadline =>
        rcases finish_order_eq_or s now m answer l deadline with heq | heq <;> rw [heq]
        · exact (hrt.notices.room_close _).trans (by rw [respond_notices])
        · exact congrArg _ (respond_notices s l answer)
      | _ => rfl
    | _ => rfl

/-- The queue of notices has no bound. -/
theorem Run.notices_room (hrt : rt.Lawful) {settings : Settings}
    (run : (start rt settings).Run begun history now t) : rt.notices.room t.notices = none :=
  run.invariant (I := fun s => rt.notices.room s.notices = none)
    (fun hs h => (h.notices_room hrt).trans hs) (hrt.notices.room_make none)

end System

end Wimax
