import Wimax.Proofs.BoundedDescent
import Wimax.Proofs.HealthyCard

/-!
Against a healthy card a session reaches its goal. The distance to the goal, which bounds the ticks
that are still needed, is lowered by every tick until it is zero, whatever the past has left behind.
-/

namespace Wimax

namespace Machine

variable {m n : Machine} {cs : List (Request × Outcome)} {acts : List Act} {b : Bench}
  {limit : Option Nat} {linkRssi : UInt8} {before after : Bool}

/-- So many ticks lead to a lasting connection, by whether the card is connected. Without a network
in sight the way leads through another initialization. -/
def toConnected (m : Machine) (connected : Bool) : Nat :=
  let ready := m.driver.record.networks ≠ []
  match m.phase with
  | .connected w => if connected then 0 else (if ready then 4 else 22) + w.cursor.place
  | .connecting a =>
    if a.cursor.place = 0 then if ready then 3 else 21
    else if a.cursor.place = 1 then if connected then 2 else 22
    else if connected then 1 else 21
  | .initialized => if ready then 4 else 22
  | .initializing b => if ready ∨ b.cursor.place ≤ 14 then 20 - b.cursor.place else 23
  | .ready | .disconnected => 21
  | .disconnecting t => 32 - t.cursor.place

/-- So many ticks lead to the end of an initialization. -/
def toInitialized (m : Machine) : Nat :=
  match m.phase with
  | .initialized => 0
  | .initializing b => 16 - b.cursor.place
  | .disconnecting t => 28 - t.cursor.place
  | .ready | .connecting _ | .connected _ | .disconnected => 17

theorem toConnected_le (m : Machine) (connected : Bool) : m.toConnected connected ≤ 32 := by
  unfold toConnected
  cases m.phase with
  | connected w =>
    have hlt := w.place_lt
    dsimp only
    split_ifs <;> omega
  | _ => grind

theorem toInitialized_le (m : Machine) : m.toInitialized ≤ 28 := by
  unfold toInitialized
  split <;> omega

theorem stage_of_toConnected {connected : Bool} (h : m.toConnected connected = 0) :
    m.stage = .connected := by
  unfold toConnected at h
  rw [stage]
  cases hphase : m.phase with
  | connected w => rfl
  | initializing b =>
    have hlt := b.place_lt
    grind
  | disconnecting t =>
    have hlt := t.place_lt
    grind
  | _ => grind

theorem stage_of_toInitialized (h : m.toInitialized = 0) : m.stage = .initialized := by
  unfold toInitialized at h
  rw [stage]
  cases hphase : m.phase with
  | initialized => rfl
  | initializing b =>
    have hlt := b.place_lt
    grind
  | disconnecting t =>
    have hlt := t.place_lt
    grind
  | _ => grind

@[simp]
theorem toConnected_greeted (m : Machine) (connected : Bool) :
    m.greeted.toConnected connected = m.toConnected connected := by
  simp [toConnected]

@[simp]
theorem toInitialized_greeted (m : Machine) : m.greeted.toInitialized = m.toInitialized := by
  simp [toInitialized]

theorem afterBringup_of_answered {b : Bringup} {s : Step Bringup} (hm : m.Sound)
    (hphase : m.phase = .initializing b)
    (step : (b.step m.driver m.settings.scanAllowance).Runs acts s)
    (ha : Answered linkRssi before (calls acts) after) :
    (m.afterBringup s).goal = m.goal ∧
      (m.afterBringup s).toConnected after ≤ m.toConnected before - 1 ∧
      (m.afterBringup s).toInitialized ≤ m.toInitialized - 1 := by
  have hapi : ∀ c, Bringup.script[b.cursor.place]? = some c → c.needsOpenApi = true →
      m.driver.record.apiOpen = true := by
    intro c hc
    exact hm.apiOpen_of_command? (by rwa [hphase])
  obtain ⟨hend, hnetworks⟩ := Bringup.step_of_answered hapi step ha
  rcases hend with ⟨hv, hplace, hlt⟩ | ⟨hv, hplace⟩
  · simp only [afterBringup, hv, toConnected, toInitialized, hphase, hplace]
    refine ⟨trivial, ?_, by omega⟩
    split_ifs at hnetworks ⊢ <;> grind
  · rw [if_neg (by omega)] at hnetworks
    simp only [afterBringup, hv, toConnected, toInitialized, hphase, hplace, phase_entered,
      goal_entered, Phase.fresh, driver_entered, hnetworks]
    refine ⟨trivial, ?_, by omega⟩
    by_cases hnone : m.driver.record.networks = [] <;> simp [hnone]

theorem afterAttach_of_answered {a : Attach} {s : Step Attach} (hm : m.Sound)
    (hphase : m.phase = .connecting a) (step : (a.step m.driver m.preferred).Runs acts s)
    (ha : Answered linkRssi before (calls acts) after) :
    (m.afterAttach s).goal = m.goal ∧
      (m.afterAttach s).toConnected after ≤ m.toConnected before - 1 := by
  have hapi := (hm.isOpen (.inr (.inl (by rw [stage, hphase]; rfl)))).1
  rcases Attach.runs_step step with ⟨hplace, h⟩ | ⟨hplace, h⟩ | ⟨hplace, h⟩
  · obtain ⟨hnetworks, hend⟩ := Attach.request_of_answered hplace h ha
    split_ifs at hend with hnone
    · simp [afterAttach, hend, toConnected, hphase, hplace, Phase.fresh, hnetworks, hnone]
    · obtain ⟨hv, hnext, rfl⟩ := hend
      simp [afterAttach, hv, toConnected, hphase, hplace, hnext, hnone]
  · obtain ⟨hnetworks, hv, hnext, rfl⟩ := Attach.checkRadio_of_answered hapi hplace h ha
    cases after <;> simp [afterAttach, hv, toConnected, hphase, hplace, hnext]
  · obtain ⟨hnetworks, rfl, hv⟩ := Attach.checkLink_of_answered h ha
    have hzero : a.cursor.place ≠ 0 := by omega
    have hone : a.cursor.place ≠ 1 := by omega
    cases after <;> simp [afterAttach, hv, toConnected, hphase, hzero, hone, Phase.fresh]

theorem afterMonitor_of_answered {w : Monitor} {s : Step Monitor} {sample : Option Int}
    (hm : m.Sound) (hphase : m.phase = .connected w)
    (step : (w.step m.driver).Runs acts (s, sample))
    (ha : Answered linkRssi before (calls acts) after) :
    (m.afterMonitor s sample).goal = m.goal ∧
      (m.afterMonitor s sample).toConnected after ≤ m.toConnected before - 1 := by
  have hapi := (hm.isOpen (.inr (.inr (by rw [stage, hphase]; rfl)))).1
  obtain ⟨hnetworks, rfl, hend⟩ := Monitor.step_of_answered hapi step ha
  split_ifs at hend with hplace hconnected
  · simp [afterMonitor, hend, toConnected, hphase, hconnected]
  · by_cases hnone : m.driver.record.networks = [] <;>
      simp [afterMonitor, hend, toConnected, hphase, hconnected, hplace, Phase.fresh, hnetworks,
        hnone]
  · obtain ⟨hv, hnext⟩ := hend
    simp only [afterMonitor, hv, toConnected, hphase, hnext, hnetworks, true_and]
    split_ifs <;> omega

theorem afterTeardown_nearer {t : Teardown} {s : Step Teardown} (before after : Bool)
    (hphase : m.phase = .disconnecting t) (step : (t.step m.driver).Runs acts s) :
    (m.afterTeardown s).goal = m.goal ∧
      (m.afterTeardown s).toConnected after ≤ m.toConnected before - 1 ∧
      (m.afterTeardown s).toInitialized ≤ m.toInitialized - 1 := by
  obtain ⟨-, -, -, -, hend⟩ := Teardown.runs_step step
  rcases hend with ⟨hlt, hv, hplace⟩ | ⟨hlast, hv⟩
  · have hlt : t.cursor.place < 10 := Nat.lt_of_succ_lt_succ hlt
    simp only [afterTeardown, hv, reduceCtorEq, ↓reduceIte, toConnected, toInitialized, hphase,
      hplace, true_and]
    omega
  · have hlast : t.cursor.place = 10 := Nat.succ.inj hlast
    simp [afterTeardown, hv, toConnected, toInitialized, hphase, hlast, Phase.fresh]

theorem turn?_of_connected (hg : m.goal = .connected) :
    m.turn? = match m.phase with
      | .ready | .disconnected => some .initializing
      | .initialized => some .connecting
      | _ => none := by
  cases hphase : m.phase <;> simp [turn?, hphase, hg] <;> rfl

theorem turn?_of_initialized (hg : m.goal = .initialized) :
    m.turn? = match m.phase with
      | .initializing _ | .initialized | .disconnecting _ => none
      | _ => some .initializing := by
  cases hphase : m.phase <;> simp [turn?, hphase, hg] <;> rfl

theorem not_idle (hturn : m.turn? = none) (hc : m.phase.command? = none)
    (hg : m.goal.isUpward = true) : m.phase = .initialized ∧ m.goal = .initialized := by
  have hgoal : m.goal = .connected ∨ m.goal = .initialized := by
    cases hgoal : m.goal <;> simp_all [Goal.isUpward]
  rcases hgoal with hgoal | hgoal
  · rw [turn?_of_connected hgoal] at hturn
    rcases Phase.command?_eq_none_iff.mp hc with h | h | h <;> simp [h] at hturn
  · rw [turn?_of_initialized hgoal] at hturn
    rcases Phase.command?_eq_none_iff.mp hc with h | h | h
    · simp [h] at hturn
    · exact ⟨h, hgoal⟩
    · simp [h] at hturn

theorem Turn.nearer_connected (h : m.Turn cs n) (hm : m.Sound) (hg : m.goal = .connected)
    (ha : Answered linkRssi before cs after) :
    n.goal = .connected ∧ n.toConnected after ≤ m.toConnected before - 1 := by
  cases h with
  | idle hturn hc =>
    have hidle := (not_idle hturn hc (by rw [hg]; rfl)).2
    simp [hg] at hidle
  | @leave s hs =>
    rw [turn?_of_connected hg] at hs
    refine ⟨hg, ?_⟩
    cases hphase : m.phase with
    | initialized =>
      obtain rfl : Stage.connecting = s := by simpa [hphase] using hs
      by_cases hnone : m.driver.record.networks = [] <;>
        simp [toConnected, hphase, Phase.fresh, hnone]
    | ready | disconnected =>
      obtain rfl : Stage.initializing = s := by simpa [hphase] using hs
      simp [toConnected, hphase, Phase.fresh]
    | _ => simp [hphase] at hs
  | @bringup b s acts hphase _ step =>
    obtain ⟨hgoal, hnear, -⟩ := afterBringup_of_answered hm hphase step ha
    exact ⟨hgoal.trans hg, hnear⟩
  | @attach a s acts hphase _ step =>
    obtain ⟨hgoal, hnear⟩ := afterAttach_of_answered hm hphase step ha
    exact ⟨hgoal.trans hg, hnear⟩
  | @monitor w s sample acts hphase _ step =>
    obtain ⟨hgoal, hnear⟩ := afterMonitor_of_answered hm hphase step ha
    exact ⟨hgoal.trans hg, hnear⟩
  | @teardown t s acts hphase step =>
    obtain ⟨hgoal, hnear, -⟩ := afterTeardown_nearer before after hphase step
    exact ⟨hgoal.trans hg, hnear⟩

theorem Turn.nearer_initialized (h : m.Turn cs n) (hm : m.Sound) (hg : m.goal = .initialized)
    (ha : Answered linkRssi before cs after) :
    n.goal = .initialized ∧ n.toInitialized ≤ m.toInitialized - 1 := by
  cases h with
  | idle hturn hc =>
    have hphase := (not_idle hturn hc (by rw [hg]; rfl)).1
    refine ⟨hg, ?_⟩
    simp [toInitialized, hphase]
  | @leave s hs =>
    rw [turn?_of_initialized hg] at hs
    refine ⟨hg, ?_⟩
    cases hphase : m.phase with
    | initialized | initializing | disconnecting => simp [hphase] at hs
    | _ =>
      obtain rfl : Stage.initializing = s := by simpa [hphase] using hs
      simp [toInitialized, hphase, Phase.fresh]
  | @bringup b s acts hphase _ step =>
    obtain ⟨hgoal, -, hnear⟩ := afterBringup_of_answered hm hphase step ha
    exact ⟨hgoal.trans hg, hnear⟩
  | attach _ hgoal => simp [hg] at hgoal
  | monitor _ hgoal => simp [hg] at hgoal
  | @teardown t s acts hphase step =>
    obtain ⟨hgoal, -, hnear⟩ := afterTeardown_nearer before after hphase step
    exact ⟨hgoal.trans hg, hnear⟩

/-- So many ticks against the card of a bench. -/
def ticksOnBench (limit : Option Nat) : Nat → Machine → Bench → Machine × Bench
  | 0, m, b => (m, b)
  | k + 1, m, b =>
    ticksOnBench limit k (m.tick.onBench limit b).1 (m.tick.onBench limit b).2

/-- A measure that a tick against a healthy card lowers is lowered by so many ticks. -/
theorem ticksOnBench_lowers (measure : Machine → Bool → Nat) (limit : Option Nat) {g : Goal}
    (hlower : ∀ {m n acts linkRssi before after}, m.Sound → m.goal = g → m.tick.Runs acts n →
      Answered linkRssi before (calls acts) after →
      n.goal = g ∧ measure n after ≤ measure m before - 1)
    (k : Nat) (hm : m.Sound) (hg : m.goal = g) (hb : b.Healthy) :
    (ticksOnBench limit k m b).1.goal = g ∧
      measure (ticksOnBench limit k m b).1 (ticksOnBench limit k m b).2.card.connected ≤
        measure m b.card.connected - k := by
  induction k generalizing m b with
  | zero => exact ⟨hg, Nat.le_refl _⟩
  | succ k ih =>
    obtain ⟨hhealthy, -, acts, hruns, hanswered⟩ := Dialog.answered_onBench m.tick limit hb
    obtain ⟨hgoal, hnear⟩ := hlower hm hg hruns hanswered
    have hrun : (m.carryOut .tick).Runs acts (m.tick.onBench limit b).1 := hruns
    obtain ⟨hlast, hfar⟩ := ih (hm.carryOut hrun) hgoal hhealthy
    refine ⟨hlast, ?_⟩
    simp only [ticksOnBench]
    omega

theorem nearer_tick_connected (hm : m.Sound) (hg : m.goal = .connected)
    (h : m.tick.Runs acts n) (ha : Answered linkRssi before (calls acts) after) :
    n.goal = .connected ∧ n.toConnected after ≤ m.toConnected before - 1 := by
  have hnear := (turn_tick h).1.nearer_connected (sound_greeted hm) (by simpa using hg) ha
  rwa [toConnected_greeted] at hnear

theorem nearer_tick_initialized (hm : m.Sound) (hg : m.goal = .initialized)
    (h : m.tick.Runs acts n) (ha : Answered linkRssi before (calls acts) after) :
    n.goal = .initialized ∧ n.toInitialized ≤ m.toInitialized - 1 := by
  have hnear := (turn_tick h).1.nearer_initialized (sound_greeted hm) (by simpa using hg) ha
  rwa [toInitialized_greeted] at hnear

theorem goal_tick_of_descent (hg : m.goal.isUpward = false) (h : m.tick.Runs acts n) :
    n.goal = m.goal := by
  have hrun : (m.carryOut .tick).Runs acts n := h
  exact goal_of_quiet hg rfl hrun

/-- Against a healthy card a session reaches its goal from wherever its past has left it, and keeps
it: it is connected after 32 ticks and initialized after 28, and no tick changes the goal. -/
theorem converges (hm : m.Reachable) (hcues : b.card.cues = []) (hstanding : b.card.standing = [])
    (limit : Option Nat) (k : Nat) :
    (ticksOnBench limit k m b).1.goal = m.goal ∧
      (m.goal = .connected → 32 ≤ k → (ticksOnBench limit k m b).1.stage = .connected) ∧
      (m.goal = .initialized → 28 ≤ k → (ticksOnBench limit k m b).1.stage = .initialized) := by
  have hb : b.Healthy := ⟨hcues, hstanding⟩
  have hconnected := fun hg =>
    ticksOnBench_lowers toConnected limit nearer_tick_connected k hm.sound hg hb
  have hinitialized := fun hg =>
    ticksOnBench_lowers (fun m _ => m.toInitialized) limit nearer_tick_initialized k hm.sound hg hb
  refine ⟨?_, ?_, ?_⟩
  · cases hg : m.goal with
    | connected => exact (hconnected hg).1
    | initialized => exact (hinitialized hg).1
    | ready | disconnected =>
      exact (ticksOnBench_lowers (fun _ _ => 0) limit
        (fun _ hg h _ => ⟨(goal_tick_of_descent (by rw [hg]; rfl) h).trans hg, Nat.le_refl _⟩)
        k hm.sound hg hb).1
  · intro hg hk
    have hfar := m.toConnected_le b.card.connected
    have hnear := (hconnected hg).2
    exact stage_of_toConnected (Nat.le_zero.mp (Nat.le_trans hnear (by omega)))
  · intro hg hk
    have hfar := m.toInitialized_le
    have hnear := (hinitialized hg).2
    exact stage_of_toInitialized (Nat.le_zero.mp (Nat.le_trans hnear (by omega)))

/-- From a connection that the card knows nothing of. -/
theorem converges_ascent :
    (ticksOnBench none 32 ((start {}).rehearse (ascent 21)).2 {}).1.stage = .connected ∧
      (ticksOnBench none 28
        ((start {}).rehearse (ascent 21 ++ [(.aim .initialized, obligingCard)])).2 {}).1.stage =
          .initialized := by
  constructor
  · have hreachable : ((start {}).rehearse (ascent 21)).2.Reachable := ⟨{}, _, run_rehearse _ _⟩
    exact (converges hreachable rfl rfl none 32).2.1 (by decide +kernel) (Nat.le_refl _)
  · have hreachable :
        ((start {}).rehearse (ascent 21 ++ [(.aim .initialized, obligingCard)])).2.Reachable :=
      ⟨{}, _, run_rehearse _ _⟩
    exact (converges hreachable rfl rfl none 28).2.2 (by decide +kernel) (Nat.le_refl _)

end Machine

end Wimax
