import Wimax.Bench
import Wimax.Proofs.BoundedDescent
import Wimax.Proofs.FreshReadings

/-!
Readings do not steer a session. Machines that differ in their readings at most go the same way
through every run: they ask the same, publish the same and answer the same. Of what a command has
brought only the list of networks counts later.
-/

namespace Wimax

namespace Dialog

variable {α β σ : Type} {R : α → β → Prop}

/-- What a dialog does in a world. -/
def history (w : World σ) : Dialog α → σ → List Act
  | done _, _ => []
  | ask r next, s => .call r (w.answer s r).1 :: (next (w.answer s r).1).history w (w.answer s r).2
  | publish e next, s => .publish e :: next.history w (w.publish s e)

theorem runs_history (w : World σ) (d : Dialog α) (s : σ) :
    d.Runs (d.history w s) (d.run w s).1 := by
  induction d generalizing s with
  | done a => exact .done a
  | ask r next ih => exact .ask _ _ _ _ _ (ih _ _)
  | publish e next ih => exact .publish _ _ _ _ (ih _)

/-- In a world alike dialogs do the same and leave the same behind. -/
theorem Alike.run {d : Dialog α} {d' : Dialog β} (h : Alike R d d') (w : World σ) (s : σ) :
    R (d.run w s).1 (d'.run w s).1 ∧ (d.run w s).2 = (d'.run w s).2 ∧
      d.history w s = d'.history w s := by
  induction h generalizing s with
  | done h => exact ⟨h, rfl, rfl⟩
  | ask r _ ih =>
    obtain ⟨hend, hworld, hhistory⟩ := ih (w.answer s r).1 (w.answer s r).2
    exact ⟨hend, hworld, congrArg _ hhistory⟩
  | publish e _ ih =>
    obtain ⟨hend, hworld, hhistory⟩ := ih (w.publish s e)
    exact ⟨hend, hworld, congrArg _ hhistory⟩

end Dialog

/-- What is left of a record when its readings are forgotten. -/
def Record.withoutReadings (r : Record) : Record where
  networks := r.networks
  apiOpen := r.apiOpen
  deviceOpen := r.deviceOpen
  subscriptions := r.subscriptions

theorem Record.alike_iff {r s : Record} : r.Alike s ↔ r.withoutReadings = s.withoutReadings := by
  constructor
  · intro h
    simp only [withoutReadings, h.networks, h.apiOpen, h.deviceOpen, h.subscriptions]
  · intro h
    simp only [withoutReadings, mk.injEq, true_and] at h
    exact ⟨h.1, h.2.1, h.2.2.1, h.2.2.2⟩

namespace Machine

variable {m n : Machine} {r : Report} {s : Stage} {op : Operation} {acts : List Act}

/-- The machine with the readings of its driver forgotten. -/
def withoutReadings (m : Machine) : Machine :=
  { m with driver := { m.driver with record := m.driver.record.withoutReadings } }

/-- The machines differ in the readings of the driver at most. -/
def Alike (m n : Machine) : Prop := ∃ d, n = { m with driver := d } ∧ m.driver.Alike d

theorem alike_iff : m.Alike n ↔ m.withoutReadings = n.withoutReadings := by
  constructor
  · intro h
    obtain ⟨d, rfl, hd⟩ := h
    simp only [withoutReadings, hd.settings, Record.alike_iff.mp hd.record]
  · intro h
    cases m
    cases n
    simp only [withoutReadings, mk.injEq, Driver.mk.injEq] at h
    obtain ⟨rfl, ⟨hsettings, hrecord⟩, rfl, rfl, rfl, rfl, rfl, rfl, rfl⟩ := h
    exact ⟨_, rfl, hsettings, Record.alike_iff.mpr hrecord⟩

theorem alike_announce (h : m.Alike n)
    (hlink : r = .connected → m.driver.record.link = n.driver.record.link) :
    Dialog.Alike Alike (m.announce r) (n.announce r) := by
  obtain ⟨d, rfl, hd⟩ := h
  have hbsid : m.shownBsid? r = shownBsid? { m with driver := d } r := by
    unfold shownBsid?
    split
    · next hr =>
      rw [hlink (by simpa [Report.showsConnection] using hr)]
    · rfl
  unfold announce
  rw [hbsid]
  dsimp only
  split
  · exact .done ⟨d, rfl, hd⟩
  · exact .publish _ (.done ⟨d, rfl, hd⟩)

theorem alike_moveTo (h : m.Alike n)
    (hlink : s = .connected → m.driver.record.link = n.driver.record.link) :
    Dialog.Alike Alike (m.moveTo s) (n.moveTo s) := by
  obtain ⟨d, rfl, hd⟩ := h
  have hstage : stage { m with driver := d } = m.stage := rfl
  unfold moveTo
  rw [hstage]
  split
  · exact .done ⟨d, rfl, hd⟩
  · refine alike_announce ⟨d, rfl, hd⟩ fun hr => hlink ?_
    exact Stage.report_injective hr

theorem alike_redirect (h : m.Alike n) : Dialog.Alike Alike m.redirect n.redirect := by
  obtain ⟨d, rfl, hd⟩ := h
  have hstage : stage { m with driver := d } = m.stage := rfl
  unfold redirect
  rw [hstage]
  dsimp only
  split
  · next s hs =>
    refine alike_moveTo ⟨d, rfl, hd⟩ ?_
    rintro rfl
    simpa using redirect?_mem hs
  · exact .done ⟨d, rfl, hd⟩

theorem alike_tickBringup (h : m.Alike n) (b : Bringup) :
    Dialog.Alike Alike (m.tickBringup b) (n.tickBringup b) := by
  obtain ⟨d, rfl, hd⟩ := h
  unfold tickBringup
  apply (Bringup.alike_step b _ hd).bind
  intro s s' hs
  obtain ⟨hphase, hdriver, hverdict, hmessage⟩ := hs
  dsimp only
  rw [hphase, hverdict, hmessage]
  split
  · exact .done ⟨_, rfl, hdriver⟩
  · exact alike_announce ⟨_, rfl, hdriver⟩ Report.noConfusion
  · exact alike_moveTo ⟨_, rfl, hdriver⟩ Stage.noConfusion
  · exact alike_redirect ⟨_, rfl, hdriver⟩

theorem alike_tickAttach (h : m.Alike n) (a : Attach) :
    Dialog.Alike Alike (m.tickAttach a) (n.tickAttach a) := by
  obtain ⟨d, rfl, hd⟩ := h
  unfold tickAttach
  apply (Attach.alike_step a _ hd).bind
  intro s s' hs
  obtain ⟨⟨hphase, hdriver, hverdict, hmessage⟩, hlink⟩ := hs
  dsimp only
  rw [hverdict] at hlink
  rw [hphase, hverdict, hmessage]
  split
  · exact .done ⟨_, rfl, hdriver⟩
  · exact alike_moveTo ⟨_, rfl, hdriver⟩ Stage.noConfusion
  · next hv => exact alike_moveTo ⟨_, rfl, hdriver⟩ fun _ => hlink hv
  · split
    · exact alike_moveTo ⟨_, rfl, hdriver⟩ Stage.noConfusion
    · exact alike_moveTo ⟨_, rfl, hdriver⟩ Stage.noConfusion

theorem alike_tickMonitor (h : m.Alike n) (w : Monitor) :
    Dialog.Alike Alike (m.tickMonitor w) (n.tickMonitor w) := by
  obtain ⟨d, rfl, hd⟩ := h
  unfold tickMonitor
  apply (Monitor.alike_step w hd).bind
  intro p q hpq
  obtain ⟨s, sample⟩ := p
  obtain ⟨s', _⟩ := q
  obtain ⟨⟨hphase, hdriver, hverdict, hmessage⟩, rfl⟩ := hpq
  dsimp only at hphase hdriver hverdict hmessage ⊢
  rw [hphase, hverdict, hmessage]
  split
  · exact .done ⟨_, rfl, hdriver⟩
  · exact .done ⟨_, rfl, hdriver⟩
  · split
    · unfold announceRssi
      dsimp only
      split
      · exact .done ⟨_, rfl, hdriver⟩
      · exact .publish _ (.done ⟨_, rfl, hdriver⟩)
    · exact .done ⟨_, rfl, hdriver⟩
  · exact alike_moveTo ⟨_, rfl, hdriver⟩ Stage.noConfusion

theorem alike_tickTeardown (h : m.Alike n) (t : Teardown) :
    Dialog.Alike Alike (m.tickTeardown t) (n.tickTeardown t) := by
  obtain ⟨d, rfl, hd⟩ := h
  unfold tickTeardown
  apply (Teardown.alike_step t hd).bind
  intro s s' hs
  obtain ⟨hphase, hdriver, hverdict, -⟩ := hs
  dsimp only
  rw [hphase, hverdict]
  split
  · exact alike_moveTo ⟨_, rfl, hdriver⟩ Stage.noConfusion
  · exact .done ⟨_, rfl, hdriver⟩

theorem alike_tickPhase (h : m.Alike n) : Dialog.Alike Alike m.tickPhase n.tickPhase := by
  have hh := h
  obtain ⟨d, rfl, hd⟩ := h
  unfold tickPhase
  dsimp only
  split
  · exact alike_redirect hh
  · exact alike_redirect hh
  · split
    · exact alike_moveTo hh Stage.noConfusion
    · exact alike_redirect hh
  · split
    · exact alike_tickBringup hh _
    · exact alike_redirect hh
  · split
    · exact alike_tickAttach hh _
    · exact alike_redirect hh
  · split
    · exact alike_tickMonitor hh _
    · exact alike_redirect hh
  · exact alike_tickTeardown hh _

/-- A machine is connected only after it has shown something. -/
def Announced (m : Machine) : Prop := m.stage = .connected → m.shown ≠ .unknown

theorem Reachable.announced (h : m.Reachable) : m.Announced := by
  intro hs
  rcases h.tells with htells | ⟨hready, -⟩
  · exact htells.ne_unknown
  · simp [hs] at hready

theorem shown_greeted_ne_unknown (m : Machine) : m.greeted.shown ≠ .unknown := by
  unfold greeted
  split
  · change m.stage.report ≠ .unknown
    cases m.stage <;> decide
  · assumption

theorem Announced.carryOut (hm : m.Announced) (h : (m.carryOut op).Runs acts n) :
    n.Announced := by
  intro hs
  cases carries_carryOut h with
  | tick hturn =>
    cases hturn.retells with
    | same _ hr =>
      rw [hr]
      exact m.shown_greeted_ne_unknown
    | scanning _ _ _ hr =>
      rw [hr]
      decide
    | stage _ hr =>
      rw [hr, hs]
      decide
  | giveUp _ hn =>
    rw [hn, stage_entered] at hs
    exact absurd hs Stage.noConfusion
  | store hn =>
    rw [hn] at hs ⊢
    exact hm hs
  | unmoved _ hn =>
    rw [hn.shown]
    exact hm (hn.stage.symm.trans hs)

theorem alike_tick (h : m.Alike n) (hm : m.Announced) : Dialog.Alike Alike m.tick n.tick := by
  have hh := h
  obtain ⟨d, rfl, hd⟩ := h
  unfold tick
  dsimp only
  split
  · next hshown =>
    apply Dialog.Alike.bind (R := Alike)
    · apply alike_announce hh
      intro hr
      have hs : m.stage = .connected := Stage.report_injective hr
      exact absurd hshown (hm hs)
    · exact fun _ _ h => alike_tickPhase h
  · exact alike_tickPhase hh

theorem alike_seekCard (h : m.Alike n) : Dialog.Alike Alike m.seekCard n.seekCard := by
  obtain ⟨d, rfl, hd⟩ := h
  unfold seekCard
  apply (Driver.alike_cardPresent hd).bind
  intro p q hpq
  obtain ⟨d₁, present⟩ := p
  obtain ⟨d₁', _⟩ := q
  obtain ⟨hdriver, rfl⟩ := hpq
  dsimp only at hdriver ⊢
  split
  · split <;> exact .done ⟨_, rfl, hdriver⟩
  · exact .done ⟨_, rfl, hdriver⟩

theorem alike_handle (h : m.Alike n) (notice : Notice) :
    Dialog.Alike Alike (m.handle notice) (n.handle notice) := by
  have hh := h
  obtain ⟨d, rfl, hd⟩ := h
  cases notice with
  | insertRemove present =>
    have hpresent : Driver.Alike
        { m.driver with record := { m.driver.record with present := some present } }
        { d with record := { d.record with present := some present } } :=
      ⟨hd.settings, hd.record.networks, hd.record.apiOpen, hd.record.deviceOpen,
        hd.record.subscriptions⟩
    unfold handle noteCard
    dsimp only
    apply Dialog.Alike.done
    split_ifs <;> exact ⟨_, rfl, hpresent⟩
  | power state =>
    unfold handle
    dsimp only
    apply Dialog.Alike.done
    split_ifs <;> exact ⟨_, rfl, hd⟩
  | connectResult code | disconnectResult code =>
    unfold handle
    dsimp only
    split
    · exact alike_seekCard hh
    · exact .done hh
  | wideScan networks => exact (alike_seekCard hh).bind fun _ _ h => .publish _ (.done h)
  | provisioning stage kind | packageUpdate stage => exact .publish _ (.done hh)
  | statusChange status reason phase => exact .done hh

theorem alike_prefer (h : m.Alike n) (name : String) :
    Dialog.Alike Alike (m.prefer name) (n.prefer name) := by
  obtain ⟨d, rfl, hd⟩ := h
  rw [prefer_eq, prefer_eq]
  have hstage : stage { m with driver := d } = m.stage := rfl
  rw [hstage]
  dsimp only
  split
  · exact .done ⟨_, rfl, hd⟩
  split
  · exact alike_moveTo ⟨_, rfl, hd⟩ Stage.noConfusion
  · exact .done ⟨_, rfl, hd⟩

theorem read?_eq {r r' : Record} (q : Query) (h : r.Alike r')
    (hread : Record.AgreeOn q.command r r') : q.read? r = q.read? r' := by
  cases q with
  | networkList => simp only [Query.read?, h.networks]
  | wideScan | decidePackage => rfl
  | _ =>
    simp only [Query.command, Record.AgreeOn] at hread
    simp only [Query.read?, hread]

theorem alike_ask (h : m.Alike n) (q : Query) :
    Dialog.Alike (fun p q => p.1.Alike q.1 ∧ p.2 = q.2) (m.ask q) (n.ask q) := by
  obtain ⟨d, rfl, hd⟩ := h
  have hstage : stage { m with driver := d } = m.stage := rfl
  unfold ask
  rw [hstage]
  split
  · exact .done ⟨⟨_, rfl, hd⟩, rfl⟩
  · apply (Driver.alike_perform hd q.command q.args).bind
    intro p p' hp
    obtain ⟨d₁, result⟩ := p
    obtain ⟨d₁', _⟩ := p'
    obtain ⟨hdriver, rfl, hread⟩ := hp
    refine .done ⟨⟨_, rfl, hdriver⟩, ?_⟩
    cases result with
    | error fault => rfl
    | ok response =>
      by_cases hr : response = .success
      · have hsame := read?_eq q hdriver.record (hread (by rw [hr]))
        simp only [Query.conclude, hsame]
      · simp only [Query.conclude, if_neg hr]

/-- An operation with the answer that it gives to a caller. -/
def respond (m : Machine) : Operation → Dialog (Machine × Option (Except Fault Answer))
  | .query q => do
    let (m, answer) ← m.ask q
    return (m, some answer)
  | op => do
    let m ← m.carryOut op
    return (m, none)

theorem carryOut_eq (m : Machine) (op : Operation) :
    m.carryOut op = m.respond op >>= fun p => .done p.1 := by
  cases op with
  | query q =>
    simp only [carryOut, respond, Dialog.bind_assoc]
    rfl
  | _ =>
    simp only [respond, Dialog.bind_assoc]
    exact (Dialog.bind_done _).symm

theorem alike_respond (h : m.Alike n) (hm : m.Announced) (op : Operation) :
    Dialog.Alike (fun p q => p.1.Alike q.1 ∧ p.2 = q.2) (m.respond op) (n.respond op) := by
  cases op with
  | tick => exact (alike_tick h hm).bind fun _ _ hk => .done ⟨hk, rfl⟩
  | aim g =>
    obtain ⟨d, rfl, hd⟩ := h
    exact .done ⟨⟨d, rfl, hd⟩, rfl⟩
  | prefer name => exact (alike_prefer h name).bind fun _ _ hk => .done ⟨hk, rfl⟩
  | notice notice => exact (alike_handle h notice).bind fun _ _ hk => .done ⟨hk, rfl⟩
  | query q => exact (alike_ask h q).bind fun _ _ hp => .done ⟨hp.1, congrArg some hp.2⟩

/-- What is done to a session: an operation, or a change of the world it runs in. -/
inductive Deed (σ : Type)
  | operate (op : Operation)
  | prepare (change : σ → σ)

/-- What there is to see of an operation: all that it asked and published, its answer, and the
machine and the world it leaves behind. -/
structure Sight (σ : Type) where
  acts : List Act
  answer : Option (Except Fault Answer)
  machine : Machine
  world : σ

/-- What there is to see of a session in which things are done, the readings apart. -/
def watch {σ : Type} (w : World σ) : Machine → σ → List (Deed σ) → List (Sight σ)
  | _, _, [] => []
  | m, s, .prepare change :: deeds => watch w m (change s) deeds
  | m, s, .operate op :: deeds =>
    let result := (m.respond op).run w s
    { acts := (m.respond op).history w s
      answer := result.1.2
      machine := result.1.1.withoutReadings
      world := result.2 } :: watch w result.1.1 result.2 deeds

theorem Announced.respond {σ : Type} (hm : m.Announced) (w : World σ) (s : σ) (op : Operation) :
    ((m.respond op).run w s).1.1.Announced := by
  have hrun := (m.carryOut op).runs_history w s
  rw [carryOut_eq, Dialog.run_bind, ← carryOut_eq] at hrun
  exact hm.carryOut hrun

/-- Stale readings do not steer a session. Whatever is done to two machines that differ in their
readings at most, in any world there is the same to see of both. A connected machine has to have
shown something, as every reachable one has (`Reachable.announced`): the greeting of another one
would carry the base station of a link that nobody has probed. -/
theorem watch_eq_of_withoutReadings_eq {σ : Type} (h : m.withoutReadings = n.withoutReadings)
    (hm : m.stage = .connected → m.shown ≠ .unknown) (w : World σ) (s : σ)
    (deeds : List (Deed σ)) : watch w m s deeds = watch w n s deeds := by
  induction deeds generalizing m n s with
  | nil => rfl
  | cons deed deeds ih =>
    cases deed with
    | prepare change => exact ih h hm (change s)
    | operate op =>
      have halike := alike_respond (alike_iff.mpr h) hm op
      obtain ⟨⟨hmachine, hanswer⟩, hworld, hacts⟩ := halike.run w s
      have hsame := alike_iff.mp hmachine
      have hlast := ih hsame (Announced.respond hm w s op) ((m.respond op).run w s).2
      rw [hworld] at hlast
      simp only [watch, hacts, hanswer, hsame, hworld, hlast]

/-- The machine with readings that no card has brought. -/
def misread (m : Machine) : Machine :=
  { m with driver := { m.driver with record := { m.driver.record with
      devices := []
      status := some .scanning
      link := some (Card.builtinLink 7)
      contacts := [⟨"help", "tel:1", 0⟩] } } }

theorem watch_misread :
    ((start {}).rehearse (ascent 21)).2.misread ≠ ((start {}).rehearse (ascent 21)).2 ∧
      ∀ deeds, watch (Bench.world none) ((start {}).rehearse (ascent 21)).2.misread {} deeds =
        watch (Bench.world none) ((start {}).rehearse (ascent 21)).2 {} deeds := by
  constructor
  · decide +kernel
  · intro deeds
    have hshown : ((start {}).rehearse (ascent 21)).2.misread.shown ≠ .unknown := by
      decide +kernel
    have hsame : ((start {}).rehearse (ascent 21)).2.misread.withoutReadings =
        ((start {}).rehearse (ascent 21)).2.withoutReadings := rfl
    exact watch_eq_of_withoutReadings_eq hsame (fun _ => hshown) (Bench.world none) {} deeds

end Machine

end Wimax
