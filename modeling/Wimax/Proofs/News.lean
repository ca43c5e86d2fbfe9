import Wimax.Proofs.Moves

/-!
What observers hear of a tick. Its events all come after its calls, and the machines before and
after it determine them: the change of the report and then that of the signal strength.
-/

namespace Wimax

namespace Dialog

variable {α β : Type}

/-- Publishes the events in order and goes on with the dialog. -/
def announcing (es : List Event) (d : Dialog α) : Dialog α := es.foldr publish d

@[simp]
theorem announcing_nil (d : Dialog α) : announcing [] d = d := rfl

@[simp]
theorem announcing_cons (e : Event) (es : List Event) (d : Dialog α) :
    announcing (e :: es) d = publish e (announcing es d) := rfl

theorem announcing_bind (es : List Event) (d : Dialog α) (f : α → Dialog β) :
    announcing es d >>= f = announcing es (d >>= f) := by
  induction es with
  | nil => rfl
  | cons e es ih => simp only [announcing_cons, publish_bind, ih]

theorem runs_announcing_iff {es : List Event} {d : Dialog α} {acts : List Act} {a : α} :
    (announcing es d).Runs acts a ↔ ∃ rest, acts = es.map .publish ++ rest ∧ d.Runs rest a := by
  induction es generalizing acts with
  | nil => simp
  | cons e es ih =>
    simp only [announcing_cons, runs_publish_iff, ih, List.map_cons, List.cons_append]
    constructor
    · rintro ⟨_, rfl, rest, rfl, h⟩
      exact ⟨rest, rfl, h⟩
    · rintro ⟨rest, rfl, h⟩
      exact ⟨_, rfl, rest, rfl, h⟩

end Dialog

namespace Machine

open Dialog (announcing)

variable {m n : Machine} {s : Stage} {acts : List Act}

/-- The events that tell how the second machine differs from the first. -/
def news (m n : Machine) : List Event :=
  (if m.shown = n.shown then [] else [.state n.shown m.shown (n.shownBsid? n.shown)]) ++
    if m.shownRssi = n.shownRssi then [] else n.shownRssi.toList.map .rssi

@[simp]
theorem news_self (m : Machine) : m.news m = [] := by simp [news]

/-- Ends with the second machine after telling how it differs from the first. -/
def telling (m n : Machine) : Dialog Machine := announcing (m.news n) (.done n)

@[simp]
theorem telling_self (m : Machine) : m.telling m = .done m := by simp [telling]

theorem telling_of_news_eq_nil (h : m.news n = []) : m.telling n = .done n := by simp [telling, h]

theorem announce_eq (m : Machine) (r : Report) :
    m.announce r = m.telling { m with shown := r } := by
  unfold announce telling news
  by_cases h : m.shown = r
  · subst h
    simp
  · simp only [if_neg h, ↓reduceIte, List.append_nil, Dialog.announcing_cons,
      Dialog.announcing_nil]
    rfl

theorem announceRssi_eq (m : Machine) (dbm : Int) :
    m.announceRssi dbm = m.telling { m with shownRssi := some dbm } := by
  unfold announceRssi telling news
  by_cases h : m.shownRssi = some dbm
  · simp only [h, ↓reduceIte, List.append_nil, Dialog.announcing_nil]
    rw [← h]
  · simp [if_neg h]

theorem moveTo_eq (hs : m.stage ≠ s) : m.moveTo s = m.telling (m.entered s) := by
  rw [moveTo, if_neg hs, announce_eq]
  rfl

/-- A tick without its events: the stage it turns to, or a step of the phase and what becomes of the
machine by it. -/
def advance (m : Machine) : Dialog Machine :=
  match m.turn? with
  | some s => .done (m.entered s)
  | none =>
    match m.phase with
    | .initializing b => do return m.afterBringup (← b.step m.driver m.settings.scanAllowance)
    | .connecting a => do return m.afterAttach (← a.step m.driver m.preferred)
    | .connected w => do
      let (s, sample) ← w.step m.driver
      return m.afterMonitor s sample
    | .disconnecting t => do return m.afterTeardown (← t.step m.driver)
    | .ready | .initialized | .disconnected => .done m

theorem advance_of_turn? (hs : m.turn? = some s) : m.advance = .done (m.entered s) := by
  simp only [advance, hs]

theorem redirect_eq (hphase : m.turn? = m.goal.redirect? m.stage)
    (hidle : m.turn? = none → m.phase.command? = none) :
    m.redirect = m.advance >>= m.telling := by
  unfold redirect
  rw [← hphase]
  cases hturn : m.turn? with
  | some s => rw [advance_of_turn? hturn, Dialog.done_bind, ← moveTo_eq (turn?_ne hturn)]
  | none =>
    have hdone : m.advance = .done m := by
      rcases Phase.command?_eq_none_iff.mp (hidle hturn) with hm | hm | hm <;>
        simp only [advance, hturn, hm]
    rw [hdone, Dialog.done_bind, telling_self]

theorem tickBringup_eq (m : Machine) (b : Bringup) :
    m.tickBringup b =
      b.step m.driver m.settings.scanAllowance >>= fun s => m.telling (m.afterBringup s) := by
  unfold tickBringup
  congr 1
  funext s
  unfold afterBringup
  cases hv : s.verdict with
  | underway => exact (telling_of_news_eq_nil (by simp [news])).symm
  | scanning => exact announce_eq _ _
  | finished => exact moveTo_eq (by simp [stage, Phase.stage])
  | failed => exact @moveTo_eq _ .disconnecting (by simp [giveUp, stage, Phase.stage])

theorem tickAttach_eq (m : Machine) (a : Attach) :
    m.tickAttach a = a.step m.driver m.preferred >>= fun s => m.telling (m.afterAttach s) := by
  unfold tickAttach
  congr 1
  funext s
  unfold afterAttach
  cases hv : s.verdict with
  | underway => exact (telling_of_news_eq_nil (by simp [news])).symm
  | scanning => exact moveTo_eq (by simp [stage, Phase.stage])
  | finished => exact moveTo_eq (by simp [stage, Phase.stage])
  | failed =>
    cases hmsg : s.message with
    | none => exact moveTo_eq (by simp [stage, Phase.stage])
    | some message => exact moveTo_eq (by simp [giveUp, stage, Phase.stage])

theorem tickMonitor_eq (m : Machine) (w : Monitor) :
    m.tickMonitor w = w.step m.driver >>= fun p => m.telling (m.afterMonitor p.1 p.2) := by
  unfold tickMonitor
  congr 1
  funext p
  obtain ⟨s, sample⟩ := p
  unfold afterMonitor
  dsimp only
  cases hv : s.verdict with
  | underway => exact (telling_of_news_eq_nil (by simp [news])).symm
  | scanning => exact (telling_of_news_eq_nil (by simp [news])).symm
  | finished =>
    cases sample with
    | none => exact (telling_of_news_eq_nil (by simp [news])).symm
    | some dbm => exact announceRssi_eq _ _
  | failed => exact moveTo_eq (by simp [stage, Phase.stage])

theorem tickTeardown_eq (m : Machine) (t : Teardown) :
    m.tickTeardown t = t.step m.driver >>= fun s => m.telling (m.afterTeardown s) := by
  unfold tickTeardown
  congr 1
  funext s
  unfold afterTeardown
  by_cases hv : s.verdict = .finished
  · simp only [hv, ↓reduceIte]
    exact moveTo_eq (by simp [stage, Phase.stage])
  · simp only [hv, ↓reduceIte]
    exact (telling_of_news_eq_nil (by simp [news])).symm

theorem turn?_bringup {b : Bringup} (hm : m.phase = .initializing b) :
    m.turn? = none ↔ m.goal.isUpward = true := by
  simp only [turn?, hm, Phase.stage]
  cases m.goal <;> decide

theorem turn?_attach {a : Attach} (hm : m.phase = .connecting a) :
    m.turn? = none ↔ m.goal = .connected := by
  simp only [turn?, hm, Phase.stage]
  cases m.goal <;> decide

theorem turn?_monitor {w : Monitor} (hm : m.phase = .connected w) :
    m.turn? = none ↔ m.goal = .connected := by
  simp only [turn?, hm]
  cases m.goal <;> decide

theorem advance_bringup {b : Bringup} (hm : m.phase = .initializing b)
    (hg : m.goal.isUpward = true) :
    m.advance = b.step m.driver m.settings.scanAllowance >>= fun s => .done (m.afterBringup s) := by
  simp only [advance, (turn?_bringup hm).mpr hg, hm, Dialog.pure_eq]

theorem advance_attach {a : Attach} (hm : m.phase = .connecting a) (hg : m.goal = .connected) :
    m.advance = a.step m.driver m.preferred >>= fun s => .done (m.afterAttach s) := by
  simp only [advance, (turn?_attach hm).mpr hg, hm, Dialog.pure_eq]

theorem advance_monitor {w : Monitor} (hm : m.phase = .connected w) (hg : m.goal = .connected) :
    m.advance = w.step m.driver >>= fun p => .done (m.afterMonitor p.1 p.2) := by
  simp only [advance, (turn?_monitor hm).mpr hg, hm, Dialog.pure_eq]

theorem advance_teardown {t : Teardown} (hm : m.phase = .disconnecting t) :
    m.advance = t.step m.driver >>= fun s => .done (m.afterTeardown s) := by
  have hturn : m.turn? = none := by simp [turn?, hm]
  simp only [advance, hturn, hm, Dialog.pure_eq]

theorem tickPhase_eq (m : Machine) : m.tickPhase = m.advance >>= m.telling := by
  unfold tickPhase
  split
  · next hm => exact redirect_eq (by simp [turn?, stage, hm]) (by simp [hm, Phase.command?])
  · next hm => exact redirect_eq (by simp [turn?, stage, hm]) (by simp [hm, Phase.command?])
  · next hm =>
    split
    · next hg =>
      have hturn : m.turn? = some .connecting := by simp [turn?, hm, hg]
      rw [advance_of_turn? hturn, Dialog.done_bind, ← moveTo_eq (turn?_ne hturn)]
    · next hg =>
      exact redirect_eq (by simp [turn?, stage, Phase.stage, hm, hg])
        (by simp [hm, Phase.command?])
  · next b hm =>
    split
    · next hg =>
      rw [tickBringup_eq, advance_bringup hm hg, Dialog.bind_assoc]
      rfl
    · next hg =>
      exact redirect_eq (by simp [turn?, stage, hm])
        fun hnone => absurd ((turn?_bringup hm).mp hnone) hg
  · next a hm =>
    split
    · next hg =>
      rw [tickAttach_eq, advance_attach hm hg, Dialog.bind_assoc]
      rfl
    · next hg =>
      exact redirect_eq (by simp [turn?, stage, hm])
        fun hnone => absurd ((turn?_attach hm).mp hnone) hg
  · next w hm =>
    split
    · next hg =>
      rw [tickMonitor_eq, advance_monitor hm hg, Dialog.bind_assoc]
      rfl
    · next hg =>
      exact redirect_eq (by simp [turn?, stage, Phase.stage, hm, hg])
        fun hnone => absurd ((turn?_monitor hm).mp hnone) hg
  · next t hm =>
    rw [tickTeardown_eq, advance_teardown hm, Dialog.bind_assoc]
    rfl

/-- A tick tells the stage if nothing was shown yet, takes its step and tells what has changed. -/
theorem tick_eq (m : Machine) :
    m.tick = announcing (m.news m.greeted) (m.greeted.advance >>= m.greeted.telling) := by
  unfold tick
  by_cases h : m.shown = .unknown
  · have hg : m.greeted = { m with shown := m.stage.report } := if_pos h
    rw [if_pos h, announce_eq, ← hg, ← tickPhase_eq]
    exact Dialog.announcing_bind _ _ _
  · rw [if_neg h, greeted_of_ne h, news_self, ← tickPhase_eq]
    rfl

theorem callsOnly_advance (m : Machine) : m.advance.CallsOnly fun _ => True := by
  unfold advance
  split
  · exact Dialog.callsOnly_done _
  · split
    · exact ((Bringup.callsOnly_step _ _ _).mono fun _ _ => trivial).bind
        fun _ => Dialog.callsOnly_done _
    · exact ((Attach.callsOnly_step _ _ _).mono fun _ _ => trivial).bind
        fun _ => Dialog.callsOnly_done _
    · exact ((Monitor.callsOnly_step _ _).mono fun _ _ => trivial).bind
        fun _ => Dialog.callsOnly_done _
    · exact ((Teardown.callsOnly_step _ _).mono fun _ _ => trivial).bind
        fun _ => Dialog.callsOnly_done _
    all_goals exact Dialog.callsOnly_done _

theorem runs_tick (h : m.tick.Runs acts n) :
    ∃ first, m.greeted.advance.Runs first n ∧
      acts = (m.news m.greeted).map .publish ++ (first ++ (m.greeted.news n).map .publish) := by
  rw [tick_eq] at h
  obtain ⟨_, rfl, hrest⟩ := Dialog.runs_announcing_iff.mp h
  obtain ⟨k, first, last, rfl, hfirst, hlast⟩ := Dialog.runs_bind_iff.mp hrest
  obtain ⟨rest, rfl, hdone⟩ := Dialog.runs_announcing_iff.mp hlast
  obtain ⟨rfl, rfl⟩ := Dialog.runs_done_iff.mp hdone
  exact ⟨first, hfirst, by simp⟩

end Machine

end Wimax
