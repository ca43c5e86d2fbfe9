import Wimax.Proofs.News

/-!
A call may fail in three ways: the backend is at fault, the time limit passes, or the answer says
that the command failed. They leave different readings behind, but no step reads what a failed
command was to bring, so to the control loop they are all alike.
-/

namespace Wimax

/-- The same outcome, or two that both count as failed. -/
def Outcome.FailAlike (o o' : Outcome) : Prop :=
  o = o' ∨ (o.response = .failed ∧ o'.response = .failed)

/-- How the calls of a history have ended. -/
def outcomes (acts : List Act) : List Outcome := (calls acts).map (·.2)

/-- What a history asks for and publishes, whatever its calls end with. -/
def Act.shape : Act → Request ⊕ Event
  | call r _ => .inl r
  | publish e => .inr e

namespace Dialog

variable {α β γ δ : Type} {R : α → β → Prop} {S : γ → δ → Prop}

/-- The dialogs ask and publish the same as long as their calls end alike, failures not told apart,
and end with related results. -/
inductive FailAlike (R : α → β → Prop) : Dialog α → Dialog β → Prop
  | done {a : α} {b : β} (h : R a b) : FailAlike R (done a) (done b)
  | ask (r : Request) {next : Outcome → Dialog α} {next' : Outcome → Dialog β}
      (h : ∀ o o', o.FailAlike o' → FailAlike R (next o) (next' o')) :
      FailAlike R (ask r next) (ask r next')
  | publish (e : Event) {next : Dialog α} {next' : Dialog β} (h : FailAlike R next next') :
      FailAlike R (publish e next) (publish e next')

theorem FailAlike.bind {d : Dialog α} {d' : Dialog β} {f : α → Dialog γ} {f' : β → Dialog δ}
    (h : FailAlike R d d') (hf : ∀ a b, R a b → FailAlike S (f a) (f' b)) :
    FailAlike S (d >>= f) (d' >>= f') := by
  induction h with
  | done h => exact hf _ _ h
  | ask r _ ih => exact .ask r ih
  | publish e _ ih => exact .publish e ih

theorem FailAlike.announcing {d : Dialog α} {d' : Dialog β} (h : FailAlike R d d')
    (es : List Event) : FailAlike R (Dialog.announcing es d) (Dialog.announcing es d') := by
  induction es with
  | nil => exact h
  | cons e es ih => exact .publish e ih

/-- A history of one dialog becomes one of the other when its outcomes are exchanged for alike
ones. -/
theorem FailAlike.runs {d : Dialog α} {d' : Dialog β} (h : FailAlike R d d') {acts : List Act}
    {a : α} (run : d.Runs acts a) {ends : List Outcome}
    (hends : List.Forall₂ Outcome.FailAlike (outcomes acts) ends) :
    ∃ acts' b, d'.Runs acts' b ∧ outcomes acts' = ends ∧
      acts'.map Act.shape = acts.map Act.shape ∧ R a b := by
  induction h generalizing acts ends with
  | @done a' b h =>
    obtain ⟨rfl, rfl⟩ := runs_done_iff.mp run
    cases hends
    exact ⟨[], b, .done b, rfl, rfl, h⟩
  | ask r _ ih =>
    obtain ⟨o, rest, rfl, hrest⟩ := runs_ask_iff.mp run
    cases hends with
    | @cons _ o' _ ends ho hends =>
      obtain ⟨acts', b, hruns, rfl, hshape, hR⟩ := ih o o' ho hrest hends
      exact ⟨.call r o' :: acts', b, .ask _ _ _ _ _ hruns, rfl, by simp [Act.shape, hshape], hR⟩
  | publish e _ ih =>
    obtain ⟨rest, rfl, hrest⟩ := runs_publish_iff.mp run
    obtain ⟨acts', b, hruns, rfl, hshape, hR⟩ := ih hrest hends
    exact ⟨.publish e :: acts', b, .publish _ _ _ _ hruns, rfl, by simp [hshape], hR⟩

theorem Runs.eq_of_outcomes {d : Dialog α} {acts acts' : List Act} {a a' : α}
    (h : d.Runs acts a) (h' : d.Runs acts' a') (hends : outcomes acts = outcomes acts') :
    acts = acts' ∧ a = a' := by
  induction h generalizing acts' with
  | done a =>
    obtain ⟨rfl, rfl⟩ := runs_done_iff.mp h'
    exact ⟨rfl, rfl⟩
  | ask r next o acts a _ ih =>
    obtain ⟨o', rest, rfl, hrest⟩ := runs_ask_iff.mp h'
    obtain ⟨rfl, hrests⟩ : o = o' ∧ outcomes acts = outcomes rest := List.cons.inj hends
    obtain ⟨rfl, rfl⟩ := ih hrest hrests
    exact ⟨rfl, rfl⟩
  | publish e next acts a _ ih =>
    obtain ⟨rest, rfl, hrest⟩ := runs_publish_iff.mp h'
    obtain ⟨rfl, rfl⟩ := ih hrest hends
    exact ⟨rfl, rfl⟩

end Dialog

namespace Driver

open Dialog (FailAlike)

variable {d d' : Driver} {c : Command} {args : Args} {o o' : Outcome} {response : Response}

/-- The drivers differ in their readings and in the flag of the device at most. -/
structure Level (d d' : Driver) : Prop where
  settings : d.settings = d'.settings
  apiOpen : d.record.apiOpen = d'.record.apiOpen
  subscriptions : d.record.subscriptions = d'.record.subscriptions

theorem Level.refl (d : Driver) : d.Level d := ⟨rfl, rfl, rfl⟩

theorem subscriptions_afterCall_failed (ho : o.response = .failed) :
    (d.afterCall c o).record.subscriptions = (d.record.atCall c).subscriptions := by
  cases o with
  | reply reply =>
    have hr : reply.response = .failed := ho
    cases c <;> simp [Record.afterCall, Record.store, Record.setDevices, Record.atCall,
      beforeCall, Response.isSuccess, hr]
  | _ => cases c <;> rfl

/-- A failed call leaves the same behind however it failed, but for readings and for a device that
is closed by any answer. -/
theorem level_afterCall_failed (ho : o.response = .failed) (ho' : o'.response = .failed) :
    (d.afterCall c o).Level (d.afterCall c o') where
  settings := rfl
  apiOpen := by
    rw [Bool.eq_iff_iff]
    simp [Record.apiOpen_afterCall, ho, ho']
  subscriptions := by
    rw [subscriptions_afterCall_failed ho, subscriptions_afterCall_failed ho']

theorem failAlike_attempt_bind {α β : Type} {S : α → β → Prop} {f : Driver × Response → Dialog α}
    {f' : Driver × Response → Dialog β} (hsame : ∀ p, FailAlike S (f p) (f' p))
    (hfailed : ∀ o o', o.response = .failed → o'.response = .failed →
      FailAlike S (f (d.afterCall c o, .failed)) (f' (d.afterCall c o', .failed))) :
    FailAlike S (d.attempt c args >>= f) (d.attempt c args >>= f') := by
  rw [attempt_eq]
  cases d.settled? c args with
  | some p => exact hsame p
  | none =>
    refine .ask _ fun o o' h => ?_
    rcases h with rfl | ⟨ho, ho'⟩
    · exact hsame _
    · simp only [ho, ho']
      exact hfailed o o' ho ho'

theorem afterCall_apiOpen_failed (ho : o.response = .failed) : d.afterCall .apiOpen o = d := by
  cases o with
  | reply reply =>
    have hopen : (d.record.apiOpen || reply.response.isSuccess) = d.record.apiOpen := by
      have hr : reply.response = .failed := ho
      simp [Response.isSuccess, hr]
    simp only [afterCall, Record.afterCall, Record.store, Record.atCall, beforeCall, reduceCtorEq,
      ↓reduceIte, hopen]
  | _ => rfl

theorem failAlike_cardPresent (d : Driver) :
    FailAlike (fun p q => p.1.Level q.1 ∧ p.2 = q.2) d.cardPresent d.cardPresent := by
  have hlist : ∀ d : Driver, FailAlike (fun p q => p.1.Level q.1 ∧ p.2 = q.2)
      (d.attempt .listDevices .nothing >>= fun p =>
        .done (p.1, p.2.isSuccess && p.1.record.cardListed))
      (d.attempt .listDevices .nothing >>= fun p =>
        .done (p.1, p.2.isSuccess && p.1.record.cardListed)) := by
    intro d
    refine failAlike_attempt_bind (fun p => .done ⟨.refl _, rfl⟩) fun o o' ho ho' => ?_
    exact .done ⟨level_afterCall_failed ho ho', rfl⟩
  refine failAlike_attempt_bind (fun p => hlist p.1) fun o o' ho ho' => ?_
  rw [afterCall_apiOpen_failed ho, afterCall_apiOpen_failed ho']
  exact hlist d

theorem failAlike_lossMessage (d : Driver) (response : Response) :
    FailAlike (fun p q => p.1.Level q.1 ∧ p.2 = q.2) (d.lossMessage response)
      (d.lossMessage response) := by
  unfold lossMessage
  split
  · refine (failAlike_cardPresent d).bind fun p q h => .done ⟨h.1, ?_⟩
    rw [h.2]
  · exact .done ⟨.refl d, rfl⟩

end Driver

open Dialog (FailAlike)

/-- The steps differ in what the driver has read at most. -/
structure Step.Level {φ : Type} (s s' : Step φ) : Prop where
  phase : s.phase = s'.phase
  driver : s.driver.Level s'.driver
  verdict : s.verdict = s'.verdict
  message : s.message = s'.message

theorem Step.Level.refl {φ : Type} (s : Step φ) : s.Level s := ⟨rfl, .refl _, rfl, rfl⟩

namespace Bringup

variable {d d' : Driver}

theorem level_afterFailure (b : Bringup) (c : Command) (budget : Nat) (hd : d.Level d') :
    (b.afterFailure d c budget).Level (b.afterFailure d' c budget) := by
  unfold afterFailure countIdleScan
  split
  · split <;> exact ⟨rfl, hd, rfl, rfl⟩
  · exact ⟨rfl, hd, rfl, rfl⟩
  · exact ⟨rfl, hd, rfl, rfl⟩

theorem failAlike_step (b : Bringup) (d : Driver) (budget : Nat) :
    FailAlike Step.Level (b.step d budget) (b.step d budget) := by
  unfold step
  split
  · exact .done (.refl _)
  · next c cursor hpick =>
    refine Driver.failAlike_attempt_bind (fun p => ?_) fun o o' ho ho' => ?_
    · dsimp only [afterResponse]
      split_ifs
      · exact .done (.refl _)
      · exact .done (.refl _)
      · refine (Driver.failAlike_lossMessage _ _).bind fun q q' h => .done ?_
        rw [h.2]
        exact ⟨rfl, h.1, rfl, rfl⟩
      · exact .done (.refl _)
      · exact .done (.refl _)
    · have hd : (d.afterCall c o).Level (d.afterCall c o') :=
        Driver.level_afterCall_failed ho ho'
      simp only [afterResponse, reduceCtorEq, ↓reduceIte, Response.meansCardLost,
        Bool.false_eq_true]
      split_ifs
      · exact .done ⟨rfl, hd, rfl, rfl⟩
      · exact .done (level_afterFailure _ c budget hd)

end Bringup

namespace Attach

/-- A connection is reported with the link just probed. -/
def Level (s s' : Step Attach) : Prop :=
  s.Level s' ∧ (s.verdict = .finished → s.driver.record.link = s'.driver.record.link)

theorem Level.refl (s : Step Attach) : Level s s := ⟨.refl s, fun _ => rfl⟩

variable {d d' : Driver}

theorem failAlike_loseCard (a : Attach) (d : Driver) (r : Response) :
    FailAlike Level (a.loseCard d r) (a.loseCard d r) := by
  refine (Driver.failAlike_lossMessage d r).bind fun p q h => .done ⟨?_, nofun⟩
  rw [h.2]
  exact ⟨rfl, h.1, rfl, rfl⟩

theorem level_stay (a : Attach) (hd : d.Level d') : Level (a.stay d) (a.stay d') :=
  ⟨⟨rfl, hd, rfl, rfl⟩, nofun⟩

theorem failAlike_request (a : Attach) (d : Driver) (preferred : String) :
    FailAlike Level (a.request d preferred) (a.request d preferred) := by
  unfold request
  split
  · exact .done (.refl _)
  · refine Driver.failAlike_attempt_bind (fun p => ?_) fun o o' ho ho' => ?_
    · dsimp only
      split_ifs
      · exact .done (.refl _)
      · exact failAlike_loseCard a _ _
      · exact .done (.refl _)
    · exact .done (level_stay a (Driver.level_afterCall_failed ho ho'))

theorem failAlike_checkRadio (a : Attach) (d : Driver) :
    FailAlike Level (a.checkRadio d) (a.checkRadio d) := by
  refine Driver.failAlike_attempt_bind (fun p => ?_) fun o o' ho ho' => ?_
  · dsimp only
    split_ifs
    · exact failAlike_loseCard a _ _
    · exact .done (.refl _)
    · exact .done (.refl _)
  · exact .done (level_stay a (Driver.level_afterCall_failed ho ho'))

theorem link_afterCall_ipInterface (r : Record) (o : Outcome) :
    (r.afterCall .ipInterface o).link = r.link := by
  cases o <;> rfl

theorem failAlike_finish (a : Attach) (d : Driver) :
    FailAlike Level (a.finish d) (a.finish d) := by
  refine Driver.failAlike_attempt_bind (fun p => .done (.refl _)) fun o o' ho ho' => ?_
  refine .done ⟨⟨rfl, Driver.level_afterCall_failed ho ho', rfl, rfl⟩, fun _ => ?_⟩
  simp only [leave, Driver.record_afterCall, link_afterCall_ipInterface]

theorem failAlike_checkLink (a : Attach) (d : Driver) :
    FailAlike Level (a.checkLink d) (a.checkLink d) := by
  refine Driver.failAlike_attempt_bind (fun p => ?_) fun o o' ho ho' => ?_
  · dsimp only
    split_ifs
    · exact failAlike_finish a _
    · exact failAlike_finish a _
    · exact .done (.refl _)
    · exact failAlike_loseCard a _ _
    · exact .done (.refl _)
  · exact .done (level_stay a (Driver.level_afterCall_failed ho ho'))

theorem failAlike_step (a : Attach) (d : Driver) (preferred : String) :
    FailAlike Level (a.step d preferred) (a.step d preferred) := by
  rw [step_eq]
  split_ifs
  · exact failAlike_request _ _ _
  · exact failAlike_checkRadio _ _
  · exact failAlike_checkLink _ _

end Attach

theorem Monitor.failAlike_step (w : Monitor) (d : Driver) :
    FailAlike (fun p q => p.1.Level q.1 ∧ p.2 = q.2) (w.step d) (w.step d) := by
  unfold step
  split
  · exact .done ⟨.refl _, rfl⟩
  · refine Driver.failAlike_attempt_bind (fun p => ?_) fun o o' ho ho' => ?_
    · dsimp only
      split_ifs <;> exact .done ⟨.refl _, rfl⟩
    · dsimp only
      split_ifs <;>
        exact .done ⟨⟨rfl, Driver.level_afterCall_failed ho ho', rfl, rfl⟩, rfl⟩

theorem Teardown.failAlike_step (t : Teardown) (d : Driver) :
    FailAlike Step.Level (t.step d) (t.step d) := by
  unfold step
  split
  · exact .done (.refl _)
  · refine Driver.failAlike_attempt_bind (fun p => .done (.refl _)) fun o o' ho ho' => ?_
    exact .done ⟨rfl, Driver.level_afterCall_failed ho ho', rfl, rfl⟩

namespace Machine

variable {m n n' : Machine} {acts : List Act} {ends : List Outcome}

/-- The machines are the same but for readings of the driver and its flag of the device. -/
structure Level (n n' : Machine) : Prop where
  eq : n' = { n with driver := n'.driver }
  driver : n.driver.Level n'.driver

theorem Level.refl (n : Machine) : n.Level n := ⟨rfl, .refl _⟩

theorem Level.news_eq (h : n.Level n') (m : Machine)
    (hlink : n.shown = m.shown ∨ n.shown ≠ .connected ∨
      n.driver.record.link = n'.driver.record.link) : m.news n = m.news n' := by
  have hbsid : m.shown ≠ n.shown → n.shownBsid? n.shown = n'.shownBsid? n.shown := by
    intro hne
    unfold shownBsid?
    rcases hlink with hsame | hne' | hlink
    · exact absurd hsame.symm hne
    · have hshows : n.shown.showsConnection = false := by
        simpa [Report.showsConnection] using hne'
      simp [hshows]
    · rw [hlink]
  have hshown : n'.shown = n.shown := by rw [h.eq]
  have hrssi : n'.shownRssi = n.shownRssi := by rw [h.eq]
  unfold news
  rw [hshown, hrssi]
  by_cases hne : m.shown = n.shown
  · simp only [if_pos hne]
  · rw [hbsid hne]

/-- What a tick ends with when its calls may fail in different ways: the same machine and news. -/
structure LevelAfter (m n n' : Machine) : Prop where
  level : n.Level n'
  news : m.news n = m.news n'

theorem levelAfter_of_level (h : n.Level n')
    (hlink : n.shown = m.shown ∨ n.shown ≠ .connected ∨
      n.driver.record.link = n'.driver.record.link) : m.LevelAfter n n' :=
  ⟨h, h.news_eq m hlink⟩

theorem levelAfter_afterBringup (m : Machine) {s s' : Step Bringup} (h : s.Level s') :
    m.LevelAfter (m.afterBringup s) (m.afterBringup s') := by
  obtain ⟨phase, d, verdict, message⟩ := s
  obtain ⟨_, d', _, _⟩ := s'
  obtain ⟨rfl, hd, rfl, rfl⟩ := h
  cases verdict with
  | underway => exact levelAfter_of_level ⟨rfl, hd⟩ (.inl rfl)
  | _ => exact levelAfter_of_level ⟨rfl, hd⟩ (.inr (.inl nofun))

theorem levelAfter_afterAttach (m : Machine) {s s' : Step Attach} (h : Attach.Level s s') :
    m.LevelAfter (m.afterAttach s) (m.afterAttach s') := by
  obtain ⟨phase, d, verdict, message⟩ := s
  obtain ⟨_, d', _, _⟩ := s'
  obtain ⟨⟨rfl, hd, rfl, rfl⟩, hlink⟩ := h
  cases verdict with
  | underway => exact levelAfter_of_level ⟨rfl, hd⟩ (.inl rfl)
  | scanning => exact levelAfter_of_level ⟨rfl, hd⟩ (.inr (.inl nofun))
  | finished => exact levelAfter_of_level ⟨rfl, hd⟩ (.inr (.inr (hlink rfl)))
  | failed =>
    cases message <;> exact levelAfter_of_level ⟨rfl, hd⟩ (.inr (.inl nofun))

theorem levelAfter_afterMonitor (m : Machine) {s s' : Step Monitor} (h : s.Level s')
    (sample : Option Int) : m.LevelAfter (m.afterMonitor s sample) (m.afterMonitor s' sample) := by
  obtain ⟨phase, d, verdict, message⟩ := s
  obtain ⟨_, d', _, _⟩ := s'
  obtain ⟨rfl, hd, rfl, rfl⟩ := h
  cases verdict with
  | failed => exact levelAfter_of_level ⟨rfl, hd⟩ (.inr (.inl nofun))
  | _ => exact levelAfter_of_level ⟨rfl, hd⟩ (.inl rfl)

theorem levelAfter_afterTeardown (m : Machine) {s s' : Step Teardown} (h : s.Level s') :
    m.LevelAfter (m.afterTeardown s) (m.afterTeardown s') := by
  obtain ⟨phase, d, verdict, message⟩ := s
  obtain ⟨_, d', _, _⟩ := s'
  obtain ⟨rfl, hd, rfl, rfl⟩ := h
  cases verdict with
  | finished => exact levelAfter_of_level ⟨rfl, hd⟩ (.inr (.inl nofun))
  | _ => exact levelAfter_of_level ⟨rfl, hd⟩ (.inl rfl)

theorem failAlike_advance (m : Machine) : FailAlike m.LevelAfter m.advance m.advance := by
  cases hturn : m.turn? with
  | some s =>
    rw [advance_of_turn? hturn]
    exact .done ⟨.refl _, rfl⟩
  | none =>
    cases hm : m.phase with
    | initializing b =>
      rw [advance_bringup hm ((turn?_bringup hm).mp hturn)]
      exact (b.failAlike_step _ _).bind fun s s' h => .done (levelAfter_afterBringup m h)
    | connecting a =>
      rw [advance_attach hm ((turn?_attach hm).mp hturn)]
      exact (a.failAlike_step _ _).bind fun s s' h => .done (levelAfter_afterAttach m h)
    | connected w =>
      rw [advance_monitor hm ((turn?_monitor hm).mp hturn)]
      refine (w.failAlike_step _).bind fun p q h => .done ?_
      rw [h.2]
      exact levelAfter_afterMonitor m h.1 q.2
    | disconnecting t =>
      rw [advance_teardown hm]
      exact (t.failAlike_step _).bind fun s s' h => .done (levelAfter_afterTeardown m h)
    | ready | initialized | disconnected =>
      simp only [advance, hturn, hm]
      exact .done ⟨.refl m, rfl⟩

theorem failAlike_tick (m : Machine) : FailAlike Level m.tick m.tick := by
  rw [tick_eq]
  refine ((failAlike_advance m.greeted).bind fun n n' h => ?_).announcing _
  rw [telling, telling, h.news]
  exact (FailAlike.done h.level).announcing _

/-- Faults and timeouts are failures like any other. When outcomes of a tick that count as failed
are exchanged for others that do, it takes the only course that the new outcomes allow: it has asked
and published the same, and the machine it leaves differs in the readings of the driver and in its
flag of the device at most. -/
theorem failures_alike (h : (m.carryOut .tick).Runs acts n)
    (hends : List.Forall₂ Outcome.FailAlike (outcomes acts) ends) :
    ∃ acts' n', (m.carryOut .tick).Runs acts' n' ∧ outcomes acts' = ends ∧
      acts'.map Act.shape = acts.map Act.shape ∧ n.Level n' ∧
      ∀ other k, (m.carryOut .tick).Runs other k → outcomes other = ends →
        other = acts' ∧ k = n' := by
  obtain ⟨acts', n', hruns, hsame, hshape, hlevel⟩ := (failAlike_tick m).runs h hends
  refine ⟨acts', n', hruns, hsame, hshape, hlevel, fun other k hother hk => ?_⟩
  exact Dialog.Runs.eq_of_outcomes hother hruns (hk.trans hsame.symm)

/-- A card that is lost while its device is opened and cannot be looked for. -/
def losingCard (r : Request) : Outcome :=
  match r.command with
  | .deviceOpen => .reply ⟨.invalidDevice, .nothing⟩
  | _ => .fault "bus error"

theorem failures_alike_losing :
    ∃ acts n, (((start {}).rehearse (ascent 3)).2.carryOut .tick).Runs acts n ∧
      outcomes acts = [.reply ⟨.invalidDevice, .nothing⟩, .timedOut] ∧
      n.stage = .disconnecting ∧ n.partingMessage = some .cardMissing := by
  have hruns := Dialog.runs_recorder (((start {}).rehearse (ascent 3)).2.carryOut .tick) losingCard
  have hlast : ((((start {}).rehearse (ascent 3)).2.carryOut .tick).run
      (recorder losingCard) []).1.stage = .disconnecting ∧
      ((((start {}).rehearse (ascent 3)).2.carryOut .tick).run
        (recorder losingCard) []).1.partingMessage = some .cardMissing := by decide +kernel
  have hmet : outcomes ((((start {}).rehearse (ascent 3)).2.carryOut .tick).run
      (recorder losingCard) []).2 = [.reply ⟨.invalidDevice, .nothing⟩, .fault "bus error"] := by
    decide +kernel
  have hends : List.Forall₂ Outcome.FailAlike
      (outcomes ((((start {}).rehearse (ascent 3)).2.carryOut .tick).run
        (recorder losingCard) []).2)
      [.reply ⟨.invalidDevice, .nothing⟩, .timedOut] := by
    rw [hmet]
    exact .cons (.inl rfl) (.cons (.inr ⟨rfl, rfl⟩) .nil)
  obtain ⟨acts, n, hrun, hsame, -, hlevel, -⟩ := failures_alike hruns hends
  refine ⟨acts, n, hrun, hsame, ?_⟩
  rw [hlevel.eq]
  exact hlast

end Machine

end Wimax
