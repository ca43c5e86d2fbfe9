import Wimax.Proofs.Steps

/-!
What a session does with its driver is a sequence of commands, each of which is settled at once or
costs one call. So the networks in sight are those of the last answered network list.
-/

namespace Wimax

def Outcome.reply? : Outcome → Option Reply
  | reply answer => some answer
  | fault _ | timedOut => none

/-- The last answer to a command. A call that was not answered does not count. -/
def lastReply? (c : Command) (cs : List (Request × Outcome)) : Option Reply :=
  cs.reverse.findSome? fun call => if call.1.command = c then call.2.reply? else none

section LastReply

variable {c : Command} {cs ds : List (Request × Outcome)} {r : Request} {o : Outcome}

theorem lastReply?_append :
    lastReply? c (cs ++ ds) = (lastReply? c ds).or (lastReply? c cs) := by
  simp [lastReply?, List.findSome?_append]

theorem lastReply?_call :
    lastReply? c [(r, o)] = if r.command = c then o.reply? else none := by
  simp [lastReply?]

theorem lastReply?_eq_none (h : ∀ call ∈ cs, call.1.command ≠ c) : lastReply? c cs = none := by
  apply List.findSome?_eq_none_iff.mpr
  intro call hcall
  exact if_neg (h call (List.mem_reverse.mp hcall))

end LastReply

namespace Driver

variable {d d₁ d₂ d' : Driver} {c : Command} {args : Args} {cs ds : List (Request × Outcome)}
  {acts : List Act} {response : Response}

/-- What the driver can come to by commands of any kind, with the calls they cost. -/
inductive Trace (d : Driver) : List (Request × Outcome) → Driver → Prop
  | nil : d.Trace [] d
  | settle {cs : List (Request × Outcome)} {d₁ d₂ : Driver} {c : Command} {args : Args}
      {response : Response} (prior : d.Trace cs d₁)
      (h : d₁.settled? c args = some (d₂, response)) : d.Trace cs d₂
  | call {cs : List (Request × Outcome)} {d₁ : Driver} {c : Command} {args : Args}
      (prior : d.Trace cs d₁) (h : d₁.settled? c args = none) (o : Outcome) :
      d.Trace (cs ++ [(⟨c, d₁.callArgs c args⟩, o)]) (d₁.afterCall c o)

theorem Trace.trans (h₁ : d.Trace cs d₁) (h₂ : d₁.Trace ds d₂) : d.Trace (cs ++ ds) d₂ := by
  induction h₂ with
  | nil => simpa using h₁
  | settle _ h ih => exact .settle ih h
  | call _ h o ih =>
    rw [← List.append_assoc]
    exact .call ih h o

theorem trace_perform {result : Except Fault Response}
    (h : (d.perform c args).Runs acts (d', result)) : d.Trace (calls acts) d' := by
  rcases runs_perform h with ⟨response, hs, rfl, -⟩ | ⟨o, hs, rfl, rfl, -⟩
  · exact .settle .nil hs
  · exact .call .nil hs o

theorem trace_attempt (h : (d.attempt c args).Runs acts (d', response)) :
    d.Trace (calls acts) d' := by
  rcases runs_attempt h with ⟨hs, rfl⟩ | ⟨o, hs, rfl, rfl, -⟩
  · exact .settle .nil hs
  · exact .call .nil hs o

theorem driver_of_settled? (h : d.settled? c args = some (d', response)) :
    d' = d ∨ d.settings.notices = false ∧ ∃ ch on,
      (c = .subscribe ch ∧ on = true ∨ c = .unsubscribe ch ∧ on = false) ∧
        d' = { d with record := d.record.setSubscribed ch on } := by
  cases c with
  | subscribe ch =>
    simp only [settled?] at h
    split_ifs at h with hch hn
    · exact .inl (Prod.mk.inj (Option.some.inj h)).1.symm
    · exact .inr ⟨by simpa using hn, ch, true, .inl ⟨rfl, rfl⟩,
        (Prod.mk.inj (Option.some.inj h)).1.symm⟩
  | unsubscribe ch =>
    simp only [settled?] at h
    split_ifs at h with hch hn
    · exact .inr ⟨by simpa using hn, ch, false, .inr ⟨rfl, rfl⟩,
        (Prod.mk.inj (Option.some.inj h)).1.symm⟩
    · exact .inl (Prod.mk.inj (Option.some.inj h)).1.symm
  | _ =>
    simp only [settled?] at h
    split at h
    · exact .inl (Prod.mk.inj (Option.some.inj h)).1.symm
    · split_ifs at h
      exact .inl (Prod.mk.inj (Option.some.inj h)).1.symm

end Driver

/-- The networks that an answer to a network list has brought. -/
def Reply.networks (r : Reply) : List Network := r.successPayload.networksOrNil

theorem Reply.eq_of_networks_ne_nil {r : Reply} (h : r.networks ≠ []) :
    r = ⟨.success, .networks r.networks⟩ := by
  obtain ⟨response, payload⟩ := r
  by_cases hr : response = .success
  · subst hr
    cases payload <;> simp_all [networks, successPayload, Payload.networksOrNil]
  · simp [networks, successPayload, hr, Payload.networksOrNil] at h

theorem Record.networks_afterCall_networkList (r : Record) (o : Outcome) :
    (r.afterCall .networkList o).networks = (o.reply?.map Reply.networks).getD r.networks := by
  cases o <;> rfl

/-- The networks in sight are those of the last answered network list. -/
theorem Driver.Trace.networks {d d' : Driver} {cs : List (Request × Outcome)} (h : d.Trace cs d') :
    d'.record.networks =
      ((lastReply? .networkList cs).map Reply.networks).getD d.record.networks := by
  induction h with
  | nil => rfl
  | settle prior h ih =>
    rcases driver_of_settled? h with rfl | ⟨-, ch, on, -, rfl⟩
    · exact ih
    · exact ih
  | @call cs d₁ c args prior h o ih =>
    rw [lastReply?_append, lastReply?_call, record_afterCall]
    by_cases hc : c = .networkList
    · subst hc
      rw [Record.networks_afterCall_networkList, ih, if_pos rfl]
      cases o.reply? <;> rfl
    · rw [Record.networks_afterCall o hc, ih, if_neg hc]
      rfl

namespace Dialog

variable {α β : Type} {d : Driver} {dialog : Dialog α} {out : α → Driver} {out' : β → Driver}

/-- Every history of the dialog is a trace of commands from the driver to that of the result. -/
def Traces (dialog : Dialog α) (d : Driver) (out : α → Driver) : Prop :=
  ∀ acts a, dialog.Runs acts a → d.Trace (calls acts) (out a)

theorem traces_done {a : α} (h : out a = d) : (done a).Traces d out := by
  intro acts b hrun
  obtain ⟨rfl, rfl⟩ := runs_done_iff.mp hrun
  rw [h]
  exact .nil

theorem Traces.publish (h : dialog.Traces d out) (e : Event) :
    (Dialog.publish e dialog).Traces d out := by
  intro acts a hrun
  obtain ⟨rest, rfl, hrest⟩ := runs_publish_iff.mp hrun
  exact h rest a hrest

theorem Traces.bind {f : α → Dialog β} (h : dialog.Traces d out)
    (hf : ∀ a, (f a).Traces (out a) out') : (dialog >>= f).Traces d out' := by
  intro acts b hrun
  obtain ⟨a, first, rest, rfl, hfirst, hrest⟩ := runs_bind_iff.mp hrun
  rw [calls_append]
  exact (h first a hfirst).trans (hf a rest b hrest)

end Dialog

namespace Driver

open Dialog (traces_done)

theorem traces_perform (d : Driver) (c : Command) (args : Args) :
    (d.perform c args).Traces d Prod.fst := fun _ _ h => trace_perform h

theorem traces_attempt (d : Driver) (c : Command) (args : Args) :
    (d.attempt c args).Traces d Prod.fst := fun _ _ h => trace_attempt h

theorem traces_cardPresent (d : Driver) : d.cardPresent.Traces d Prod.fst := by
  apply (traces_attempt d .apiOpen .nothing).bind
  intro first
  apply (traces_attempt first.1 .listDevices .nothing).bind
  intro last
  exact traces_done rfl

theorem traces_lossMessage (d : Driver) (response : Response) :
    (d.lossMessage response).Traces d Prod.fst := by
  unfold lossMessage
  split
  · exact (traces_cardPresent d).bind fun _ => traces_done rfl
  · exact traces_done rfl

end Driver

section Phases

open Dialog (traces_done)
open Driver (traces_attempt traces_lossMessage)

theorem Bringup.traces_step (b : Bringup) (d : Driver) (budget : Nat) :
    (b.step d budget).Traces d Step.driver := by
  obtain ⟨c, hc, hpick⟩ := b.cursor.exists_pick (by simp [script])
  simp only [step, hpick]
  apply (traces_attempt d c .nothing).bind
  rintro ⟨d₁, r⟩
  dsimp only [afterResponse]
  split_ifs
  · exact traces_done (driver_afterSuccess _ _ _ _)
  · exact traces_done rfl
  · exact (traces_lossMessage d₁ r).bind fun _ => traces_done rfl
  · exact traces_done (driver_afterFailure _ _ _ _)
  · exact traces_done rfl

namespace Attach

variable (a : Attach) (d : Driver)

theorem traces_loseCard (r : Response) : (a.loseCard d r).Traces d Step.driver :=
  (traces_lossMessage d r).bind fun _ => traces_done rfl

theorem traces_request (preferred : String) : (a.request d preferred).Traces d Step.driver := by
  unfold request
  split
  · exact traces_done rfl
  · apply (traces_attempt d .connect _).bind
    rintro ⟨d₁, r⟩
    dsimp only
    split_ifs
    · exact traces_done rfl
    · exact a.traces_loseCard d₁ r
    · exact traces_done rfl

theorem traces_checkRadio : (a.checkRadio d).Traces d Step.driver := by
  apply (traces_attempt d .deviceStatus .nothing).bind
  rintro ⟨d₁, r⟩
  dsimp only
  split_ifs
  · exact a.traces_loseCard d₁ r
  · exact traces_done (driver_afterStatus a d₁)
  · exact traces_done rfl

theorem traces_finish : (a.finish d).Traces d Step.driver :=
  (traces_attempt d .ipInterface .nothing).bind fun _ => traces_done rfl

theorem traces_checkLink : (a.checkLink d).Traces d Step.driver := by
  apply (traces_attempt d .linkStatus .nothing).bind
  rintro ⟨d₁, r⟩
  dsimp only
  split_ifs
  · exact a.traces_finish d₁
  · exact a.traces_finish d₁
  · exact traces_done rfl
  · exact a.traces_loseCard d₁ r
  · exact traces_done rfl

theorem traces_step (preferred : String) : (a.step d preferred).Traces d Step.driver := by
  rw [step_eq]
  split_ifs
  · exact traces_request _ d preferred
  · exact traces_checkRadio _ d
  · exact traces_checkLink _ d

end Attach

theorem Monitor.traces_step (m : Monitor) (d : Driver) :
    (m.step d).Traces d fun result => result.1.driver := by
  obtain ⟨c, hc, hpick⟩ := m.cursor.exists_pick (by simp [script])
  simp only [step, hpick]
  apply (traces_attempt d c .nothing).bind
  rintro ⟨d₁, r⟩
  dsimp only
  split_ifs
  · exact traces_done (driver_afterStatus _ _ _)
  · exact traces_done rfl

theorem Teardown.traces_step (t : Teardown) (d : Driver) : (t.step d).Traces d Step.driver := by
  obtain ⟨c, hc, hpick⟩ := t.cursor.exists_pick (by simp [script])
  simp only [step, hpick]
  exact (traces_attempt d c .nothing).bind fun _ => traces_done rfl

end Phases

namespace Machine

open Dialog (traces_done)

variable {m n : Machine} {op : Operation} {acts : List Act}

theorem traces_announce (m : Machine) (r : Report) :
    (m.announce r).Traces m.driver driver := by
  unfold announce
  split
  · exact traces_done rfl
  · exact Dialog.Traces.publish (traces_done (by rfl)) _

theorem traces_announceRssi (m : Machine) (dbm : Int) :
    (m.announceRssi dbm).Traces m.driver driver := by
  unfold announceRssi
  split
  · exact traces_done rfl
  · exact Dialog.Traces.publish (traces_done (by rfl)) _

theorem traces_moveTo (m : Machine) (s : Stage) : (m.moveTo s).Traces m.driver driver := by
  unfold moveTo
  split
  · exact traces_done rfl
  · exact traces_announce _ _

theorem traces_redirect (m : Machine) : m.redirect.Traces m.driver driver := by
  unfold redirect
  split
  · exact m.traces_moveTo _
  · exact traces_done rfl

theorem traces_tickBringup (m : Machine) (b : Bringup) :
    (m.tickBringup b).Traces m.driver driver := by
  apply (b.traces_step m.driver m.settings.scanAllowance).bind
  intro s
  cases s.verdict with
  | underway => exact traces_done rfl
  | scanning => exact traces_announce _ _
  | finished => exact traces_moveTo _ _
  | failed => exact traces_redirect _

theorem traces_tickAttach (m : Machine) (a : Attach) :
    (m.tickAttach a).Traces m.driver driver := by
  apply (a.traces_step m.driver m.preferred).bind
  intro s
  cases s.verdict with
  | underway => exact traces_done rfl
  | scanning => exact traces_moveTo _ _
  | finished => exact traces_moveTo _ _
  | failed => cases s.message <;> exact traces_moveTo _ _

theorem traces_tickMonitor (m : Machine) (w : Monitor) :
    (m.tickMonitor w).Traces m.driver driver := by
  apply (w.traces_step m.driver).bind
  rintro ⟨s, sample⟩
  dsimp only
  cases s.verdict with
  | underway => exact traces_done rfl
  | scanning => exact traces_done rfl
  | finished =>
    cases sample with
    | none => exact traces_done rfl
    | some dbm => exact traces_announceRssi _ _
  | failed => exact traces_moveTo _ _

theorem traces_tickTeardown (m : Machine) (t : Teardown) :
    (m.tickTeardown t).Traces m.driver driver := by
  apply (t.traces_step m.driver).bind
  intro s
  dsimp only
  split
  · exact traces_moveTo _ _
  · exact traces_done rfl

theorem traces_tickPhase (m : Machine) : m.tickPhase.Traces m.driver driver := by
  unfold tickPhase
  split
  · exact m.traces_redirect
  · exact m.traces_redirect
  · split
    · exact m.traces_moveTo _
    · exact m.traces_redirect
  · split
    · exact m.traces_tickBringup _
    · exact m.traces_redirect
  · split
    · exact m.traces_tickAttach _
    · exact m.traces_redirect
  · split
    · exact m.traces_tickMonitor _
    · exact m.traces_redirect
  · exact m.traces_tickTeardown _

theorem traces_tick (m : Machine) : m.tick.Traces m.driver driver := by
  unfold tick
  dsimp only
  split
  · exact (m.traces_announce _).bind fun n => n.traces_tickPhase
  · exact m.traces_tickPhase

theorem traces_prefer (m : Machine) (name : String) :
    (m.prefer name).Traces m.driver driver := by
  unfold prefer
  split
  · exact traces_done rfl
  · dsimp only
    split
    · exact traces_moveTo _ _
    · exact traces_done rfl

theorem driver_aim (m : Machine) (g : Goal) : (m.aim g).driver = m.driver := rfl

theorem traces_seekCard (m : Machine) : m.seekCard.Traces m.driver driver := by
  apply (Driver.traces_cardPresent m.driver).bind
  rintro ⟨d, present⟩
  apply traces_done
  split_ifs <;> rfl

theorem traces_ask (m : Machine) (q : Query) :
    (m.ask q).Traces m.driver fun result => result.1.driver := by
  unfold ask
  split
  · exact traces_done rfl
  · exact (Driver.traces_perform m.driver q.command q.args).bind fun _ => traces_done rfl

theorem networks_noteCard (m : Machine) (present : Bool) :
    (m.noteCard present).driver.record.networks = m.driver.record.networks := by
  unfold noteCard
  dsimp only
  split_ifs <;> rfl

theorem traces_handle (m : Machine) {notice : Notice}
    (h : ∀ present, notice ≠ .insertRemove present) : (m.handle notice).Traces m.driver driver := by
  cases notice with
  | insertRemove present => exact absurd rfl (h present)
  | power state =>
    apply traces_done
    split <;> rfl
  | connectResult code =>
    simp only [handle]
    split
    · exact m.traces_seekCard
    · exact traces_done rfl
  | disconnectResult code =>
    simp only [handle]
    split
    · exact m.traces_seekCard
    · exact traces_done rfl
  | wideScan networks => exact m.traces_seekCard.bind fun _ => (traces_done rfl).publish _
  | provisioning stage kind => exact (traces_done rfl).publish _
  | packageUpdate stage => exact (traces_done rfl).publish _
  | statusChange status reason phase => exact traces_done rfl

/-- Every operation is a trace of commands, or notes that the card was announced. -/
theorem trace_carryOut (h : (m.carryOut op).Runs acts n) :
    m.driver.Trace (calls acts) n.driver ∨
      calls acts = [] ∧ ∃ present, n = m.noteCard present := by
  cases op with
  | tick => exact .inl (m.traces_tick acts n h)
  | aim g => exact .inl (traces_done (m.driver_aim g) acts n h)
  | prefer name => exact .inl (m.traces_prefer name acts n h)
  | notice notice =>
    by_cases hnotice : ∃ present, notice = .insertRemove present
    · obtain ⟨present, rfl⟩ := hnotice
      obtain ⟨rfl, rfl⟩ := Dialog.runs_done_iff.mp h
      exact .inr ⟨rfl, present, rfl⟩
    · refine .inl (m.traces_handle ?_ acts n h)
      rintro present rfl
      exact hnotice ⟨present, rfl⟩
  | query q =>
    have hask : (m.carryOut (.query q)).Traces m.driver driver :=
      (m.traces_ask q).bind fun _ => traces_done rfl
    exact .inl (hask acts n h)

theorem networks_carryOut (h : (m.carryOut op).Runs acts n) :
    n.driver.record.networks =
      ((lastReply? .networkList (calls acts)).map Reply.networks).getD
        m.driver.record.networks := by
  rcases trace_carryOut h with htrace | ⟨hcalls, present, rfl⟩
  · exact htrace.networks
  · rw [hcalls, networks_noteCard]
    rfl

theorem networks_run {steps : List (Operation × List Act)} (run : Run m steps n) :
    n.driver.record.networks =
      ((lastReply? .networkList (calls (actsOf steps))).map Reply.networks).getD
        m.driver.record.networks := by
  induction run with
  | nil => rfl
  | @snoc steps k n op acts prior last ih =>
    rw [networks_carryOut last, ih, actsOf_append, calls_append, lastReply?_append]
    simp only [actsOf_cons, actsOf_nil, List.append_nil]
    cases lastReply? .networkList (calls acts) <;> rfl

end Machine

end Wimax
