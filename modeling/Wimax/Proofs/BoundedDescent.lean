import Wimax.Proofs.ReportHistory
import Wimax.Proofs.WholeTeardown

/-!
A session whose goal lies down the lifecycle gets there in a fixed number of ticks. Its depth, which
counts the commands of the teardown, grows by one with every tick until the goal is reached, and
nothing but a tick changes it.
-/

namespace Wimax

/-- How far a phase is down the way from the top of the lifecycle to its rest. -/
def Phase.depth : Phase → Nat
  | initializing _ | initialized | connecting _ | connected _ => 0
  | disconnecting t => t.cursor.place + 1
  | disconnected => 12
  | ready => 13

namespace Goal

/-- The depth at which a descent to the goal ends. -/
def bottom (g : Goal) : Nat := if g = .ready then 13 else 12

theorem bottom_of_ready {g : Goal} (h : g = .ready) : g.bottom = 13 := if_pos h

theorem bottom_of_ne {g : Goal} (h : g ≠ .ready) : g.bottom = 12 := if_neg h

theorem bottom_bounds (g : Goal) : 12 ≤ g.bottom ∧ g.bottom ≤ 13 := by
  unfold bottom
  split <;> omega

/-- The stages that a descent from the top has entered after some ticks. -/
def descent (g : Goal) (ticks : Nat) : List Stage :=
  (if 1 ≤ ticks then [.disconnecting] else []) ++ (if 12 ≤ ticks then [.disconnected] else []) ++
    if 13 ≤ ticks ∧ g = .ready then [.ready] else []

/-- The stage that a descent from the stage `s` has reached after some ticks. -/
def stageAfter (g : Goal) (ticks : Nat) (s : Stage) : Stage := (g.descent ticks).getLast?.getD s

theorem stageAfter_eq (g : Goal) (ticks : Nat) (s : Stage) :
    g.stageAfter ticks s =
      if ticks = 0 then s else if ticks < 12 then .disconnecting
      else if 13 ≤ ticks ∧ g = .ready then .ready else .disconnected := by
  unfold stageAfter descent
  split_ifs <;> first | rfl | omega

theorem descent_succ (g : Goal) (ticks : Nat) {s : Stage} (hs : s.isUpward = true) :
    g.descent (ticks + 1) = g.descent ticks ++
      if g.stageAfter (ticks + 1) s = g.stageAfter ticks s then []
      else [g.stageAfter (ticks + 1) s] := by
  have hne : s ≠ .disconnecting := by
    rintro rfl
    simp [Stage.isUpward] at hs
  rw [stageAfter_eq, stageAfter_eq]
  unfold descent
  grind

end Goal

/-- The operation neither sets a goal nor brings news of the card. -/
def Operation.isQuiet : Operation → Bool
  | tick | prefer _ | query _ => true
  | aim _ | notice _ => false

namespace Machine

variable {m n k : Machine} {op : Operation} {acts : List Act} {s : Stage}
  {steps first rest : List (Operation × List Act)} {cs : List (Request × Outcome)}

theorem depth_lt (p : Phase) : p.depth < 14 := by
  cases p with
  | disconnecting t =>
    have hlt := t.place_lt
    simp only [Phase.depth]
    omega
  | _ => simp [Phase.depth]

theorem stage_of_depth :
    (m.phase.depth = 0 ↔ m.stage.isUpward = true) ∧
      (0 < m.phase.depth ∧ m.phase.depth < 12 ↔ m.stage = .disconnecting) ∧
      (m.phase.depth = 12 ↔ m.stage = .disconnected) ∧
      (m.phase.depth = 13 ↔ m.stage = .ready) := by
  rw [stage]
  cases m.phase with
  | disconnecting t =>
    have hlt := t.place_lt
    simp [Phase.depth, Phase.stage, Stage.isUpward]
    omega
  | _ => simp [Phase.depth, Phase.stage, Stage.isUpward]

/-- Toward a goal down the lifecycle a stage on the way up is left at once, and at rest only the
goal to be ready leads on. -/
theorem turn?_of_descent (hg : m.goal.isUpward = false) :
    m.turn? =
      if m.phase.depth = 0 then some .disconnecting
      else if m.phase.depth = 12 ∧ m.goal = .ready then some .ready else none := by
  have hne : m.goal ≠ .connected := by
    intro he
    simp [he, Goal.isUpward] at hg
  cases hphase : m.phase with
  | disconnecting t =>
    have hlt := t.place_lt
    have hdepth : t.cursor.place + 1 ≠ 12 := by omega
    simp [turn?, hphase, Phase.depth, hdepth]
  | _ =>
    simp [turn?, hphase, hne, Phase.depth, Phase.stage, Goal.redirect?, hg, Stage.isUpward]

theorem Turn.depth_eq (h : m.Turn cs n) (hg : m.goal.isUpward = false) :
    n.goal = m.goal ∧
      n.phase.depth = max m.phase.depth (min m.goal.bottom (m.phase.depth + 1)) := by
  have hbottom := m.goal.bottom_bounds
  cases h with
  | idle hturn hc =>
    rw [turn?_of_descent hg] at hturn
    refine ⟨rfl, ?_⟩
    cases hphase : m.phase with
    | ready =>
      simp [Phase.depth]
      omega
    | disconnected =>
      have hgoal : m.goal ≠ .ready := by simpa [hphase, Phase.depth] using hturn
      simp [Phase.depth, Goal.bottom_of_ne hgoal]
    | disconnecting t => simp [hphase, Phase.command?_eq_none_iff] at hc
    | _ => simp [hphase, Phase.depth] at hturn
  | @leave s hs =>
    rw [turn?_of_descent hg] at hs
    refine ⟨rfl, ?_⟩
    split_ifs at hs with htop hlow
    · obtain rfl := Option.some.inj hs
      rw [htop, phase_entered]
      change 1 = _
      omega
    · obtain rfl := Option.some.inj hs
      rw [hlow.1, phase_entered, Goal.bottom_of_ready hlow.2]
      rfl
  | bringup _ hup => simp [hup] at hg
  | attach _ hup => simp [hup, Goal.isUpward] at hg
  | monitor _ hup => simp [hup, Goal.isUpward] at hg
  | @teardown t s acts hphase step =>
    obtain ⟨-, -, -, -, hend⟩ := Teardown.runs_step step
    have hdepth : m.phase.depth = t.cursor.place + 1 := by rw [hphase, Phase.depth]
    unfold afterTeardown
    rcases hend with ⟨hlt, hv, hplace⟩ | ⟨hlast, hv⟩
    · have hlt : t.cursor.place < 10 := Nat.lt_of_succ_lt_succ hlt
      have hnext : (Phase.disconnecting s.phase).depth = t.cursor.place + 2 := by
        rw [Phase.depth, hplace]
      simp only [hv, reduceCtorEq, ↓reduceIte, hnext, hdepth, true_and]
      omega
    · have hlast : t.cursor.place = 10 := Nat.succ.inj hlast
      simp only [hv, ↓reduceIte, goal_entered, phase_entered, hdepth, hlast, true_and]
      change 12 = _
      omega

theorem depth_tick (hg : m.goal.isUpward = false) (hrun : (m.carryOut .tick).Runs acts n) :
    n.goal = m.goal ∧
      n.phase.depth = max m.phase.depth (min m.goal.bottom (m.phase.depth + 1)) := by
  have hdepth := (turn_tick hrun).1.depth_eq (by simpa using hg)
  rwa [phase_greeted, goal_greeted] at hdepth

/-- The goal is the same after every part of the run. -/
def KeepsGoal (m : Machine) (steps : List (Operation × List Act)) : Prop :=
  ∀ first rest k, steps = first ++ rest → Run m first k → k.goal = m.goal

theorem KeepsGoal.before (h : m.KeepsGoal (first ++ rest)) : m.KeepsGoal first := by
  intro before after k he
  exact h before (after ++ rest) k (by rw [he, List.append_assoc])

theorem KeepsGoal.goal_eq (h : m.KeepsGoal steps) (run : Run m steps n) : n.goal = m.goal :=
  h steps [] n (by simp) run

theorem goal_of_quiet (hg : m.goal.isUpward = false) (hop : op.isQuiet = true)
    (hrun : (m.carryOut op).Runs acts n) : n.goal = m.goal := by
  cases op with
  | tick => exact (depth_tick hg hrun).1
  | query q =>
    obtain ⟨⟨k, result⟩, first, rest, rfl, hfirst, hrest⟩ := Dialog.runs_bind_iff.mp hrun
    obtain ⟨-, rfl⟩ := Dialog.runs_done_iff.mp hrest
    exact (runs_ask hfirst).2.1
  | prefer name =>
    obtain ⟨-, -, hn⟩ := runs_prefer hrun
    split_ifs at hn <;> simp [hn]
  | aim g => simp [Operation.isQuiet] at hop
  | notice notice => simp [Operation.isQuiet] at hop

theorem keepsGoal_of_quiet (hg : m.goal.isUpward = false)
    (h : ∀ step ∈ steps, step.1.isQuiet = true) : m.KeepsGoal steps := by
  intro first rest k he run
  have hfirst : ∀ step ∈ first, step.1.isQuiet = true := by
    intro step hstep
    exact h step (by simp [he, hstep])
  clear he
  induction run with
  | nil => rfl
  | @snoc first n k op acts prior last ih =>
    have hn := ih fun step hstep => hfirst step (by simp [hstep])
    have hop := hfirst (op, acts) (by simp)
    rw [goal_of_quiet (by rwa [hn]) hop last, hn]

theorem phase_of_descent (hg : m.goal.isUpward = false) (hop : op ≠ .tick)
    (hrun : (m.carryOut op).Runs acts n) : n.phase = m.phase := by
  cases carries_carryOut hrun with
  | tick => exact absurd rfl hop
  | giveUp hm => simp [hm.1, Goal.isUpward] at hg
  | store hn => rw [hn]
  | unmoved _ hn => exact hn.phase

theorem depth_run (hg : m.goal.isUpward = false) (run : Run m steps n) (hkeep : m.KeepsGoal steps) :
    n.phase.depth = max m.phase.depth (min m.goal.bottom (m.phase.depth + tickCount steps)) := by
  induction run with
  | nil =>
    rw [tickCount_nil]
    omega
  | @snoc steps n k op acts prior last ih =>
    have hn := ih hkeep.before
    have hgoal := hkeep.before.goal_eq prior
    by_cases hop : op = .tick
    · subst hop
      have hk := (depth_tick (by rwa [hgoal]) last).2
      rw [hgoal] at hk
      rw [tickCount_append, tickCount_tick]
      omega
    · rw [phase_of_descent (by rwa [hgoal]) hop last, hn, tickCount_append, tickCount_of_ne hop,
        Nat.add_zero]

theorem tells_of_ticks (hm : m.Tells ∨ m.Silent) (run : Run m steps n) (h : 0 < tickCount steps) :
    n.Tells := by
  induction run with
  | nil => simp at h
  | @snoc steps n k op acts prior last ih =>
    by_cases hop : op = .tick
    · subst hop
      have hn := (tells_greeted (tells_or_silent_run hm prior)).1
      exact ((turn_tick last).1.retells.accounts hn).1
    · rw [tickCount_append, tickCount_of_ne hop] at h
      exact (ih h).carryOut last

theorem changes_carryOut_of_descent (hg : m.goal.isUpward = false) (hm : m.Tells)
    (hrun : (m.carryOut op).Runs acts n) :
    (changes acts).map (·.state) = if n.stage = m.stage then [] else [n.stage.report] := by
  obtain ⟨-, -, later, hlater, hacc⟩ := accounts_carryOut (.inl hm) hrun
  have hsilent : m.greeting op = [] := if_neg fun h => hm.ne_unknown h.2
  rw [hsilent, List.nil_append] at hlater
  rw [hlater]
  split
  · next hs =>
    rcases hacc.stayed hs with rfl | ⟨rfl, hinit, -⟩
    · rfl
    · have hbottom := m.goal.bottom_bounds
      have htop := stage_of_depth.1.mpr (by rw [hinit]; rfl)
      have hdepth := (depth_tick hg hrun).2
      have hn := stage_of_depth.2.1.mp (by omega : 0 < n.phase.depth ∧ n.phase.depth < 12)
      rw [hs, hinit] at hn
      exact absurd hn Stage.noConfusion
  · next hs => exact hacc.moved hs

theorem tick_of_bottom (hg : m.goal.isUpward = false) (hm : m.Tells)
    (h : m.goal.bottom ≤ m.phase.depth) : m.carryOut .tick = .done m := by
  have htick : m.tick = m.tickPhase := by simp [tick, hm.ne_unknown]
  have hbottom := m.goal.bottom_bounds
  change m.tick = _
  rw [htick]
  cases hphase : m.phase with
  | ready =>
    simp [tickPhase, hphase, redirect, stage, Phase.stage, Goal.redirect?, hg, Stage.isUpward]
  | disconnected =>
    have hgoal : m.goal ≠ .ready := by
      intro he
      simp [hphase, Phase.depth, Goal.bottom_of_ready he] at h
    simp [tickPhase, hphase, redirect, stage, Phase.stage, Goal.redirect?, hg, Stage.isUpward, hgoal]
  | disconnecting t =>
    have hlt := t.place_lt
    rw [hphase, Phase.depth] at h
    omega
  | _ =>
    rw [hphase, Phase.depth] at h
    omega

theorem phase_of_still (hg : m.goal.isUpward = false) (run : Run m steps n)
    (hkeep : m.KeepsGoal steps) (h : tickCount steps = 0) : n.phase = m.phase := by
  induction run with
  | nil => rfl
  | @snoc steps n k op acts prior last ih =>
    rw [tickCount_append] at h
    have hop : op ≠ .tick := by
      rintro rfl
      simp at h
    have hgoal := hkeep.before.goal_eq prior
    rw [phase_of_descent (by rwa [hgoal]) hop last, ih hkeep.before (by omega)]

theorem stage_of_descent (hg : m.goal.isUpward = false) (htop : m.phase.depth = 0)
    (run : Run m steps n) (hkeep : m.KeepsGoal steps) :
    n.stage = m.goal.stageAfter (tickCount steps) m.stage := by
  have hdepth := depth_run hg run hkeep
  have hbottom := m.goal.bottom_bounds
  obtain ⟨-, hdown, hlow, hready⟩ := stage_of_depth (m := n)
  rw [Goal.stageAfter_eq]
  split_ifs with hzero hlast hrest
  · rw [stage, phase_of_still hg run hkeep hzero, stage]
  · exact hdown.mp (by omega)
  · have hr := Goal.bottom_of_ready hrest.2
    exact hready.mp (by omega)
  · by_cases hr : m.goal = .ready
    · have hticks : tickCount steps = 12 := by grind
      exact hlow.mp (by omega)
    · have hr := Goal.bottom_of_ne hr
      exact hlow.mp (by omega)

/-- From the top a descent shows each stage of the way down as it is entered. -/
theorem changes_of_descent (hg : m.goal.isUpward = false) (hm : m.Tells)
    (hup : m.stage.isUpward = true) (run : Run m steps n) (hkeep : m.KeepsGoal steps) :
    (changes (actsOf steps)).map (·.state) =
      (m.goal.descent (tickCount steps)).map Stage.report := by
  have htop := stage_of_depth.1.mpr hup
  induction run with
  | nil => rfl
  | @snoc steps n k op acts prior last ih =>
    have hgoal := hkeep.before.goal_eq prior
    have hshown := changes_carryOut_of_descent (by rwa [hgoal]) (hm.run prior) last
    have hn := stage_of_descent hg htop prior hkeep.before
    have hk := stage_of_descent hg htop (.snoc prior last) hkeep
    rw [actsOf_append, changes_append, List.map_append, ih hkeep.before]
    rw [tickCount_append] at hk ⊢
    by_cases hop : op = .tick
    · subst hop
      rw [tickCount_tick] at hk ⊢
      rw [m.goal.descent_succ _ hup, ← hn, ← hk, List.map_append]
      congr 1
      simpa [apply_ite] using hshown
    · rw [tickCount_of_ne hop, Nat.add_zero] at hk ⊢
      rw [if_pos (hk.trans hn.symm)] at hshown
      simpa using hshown

/-- While the goal is kept a descent reaches it in thirteen ticks at most, whatever the card
answers. From a stage on the way up it enters the stages of the way down one by one, and when it is
at its end a tick asks nothing, publishes nothing and changes nothing. -/
theorem descent_bounded (hm : m.Reachable) (hg : m.goal.isUpward = false) (run : Run m steps n)
    (hkeep : m.KeepsGoal steps) :
    (m.goal = .ready → 13 ≤ tickCount steps → n.stage = .ready) ∧
      (m.goal = .disconnected → 12 ≤ tickCount steps →
        n.stage = if m.stage = .ready then .ready else .disconnected) ∧
      (m.stage = .ready → n.stage = .ready) ∧
      (m.stage.isUpward = true →
        (changes (actsOf steps)).map (·.state) =
            (m.goal.descent (tickCount steps)).map Stage.report ∧
          n.stage = m.goal.stageAfter (tickCount steps) m.stage) ∧
      (13 ≤ tickCount steps → n.carryOut .tick = .done n) ∧
      ∀ op acts k, op.isQuiet = true → (n.carryOut op).Runs acts k → k.goal = m.goal := by
  have hdepth := depth_run hg run hkeep
  have hgoal := hkeep.goal_eq run
  have hbottom := m.goal.bottom_bounds
  have hlt := depth_lt m.phase
  obtain ⟨htop, -, -, hready⟩ := stage_of_depth (m := m)
  obtain ⟨-, -, hlow', hready'⟩ := stage_of_depth (m := n)
  have hstays : m.stage = .ready → n.stage = .ready := by
    intro hs
    have hrest := hready.mpr hs
    exact hready'.mp (by omega)
  refine ⟨?_, ?_, hstays, ?_, ?_, ?_⟩
  · intro hr hticks
    have hr := Goal.bottom_of_ready hr
    exact hready'.mp (by omega)
  · intro hd hticks
    split_ifs with hs
    · exact hstays hs
    · have hne : m.phase.depth ≠ 13 := fun h => hs (hready.mp h)
      have hd := Goal.bottom_of_ne (g := m.goal) (by simp [hd])
      exact hlow'.mp (by omega)
  · intro hup
    have htells : m.Tells := by
      rcases hm.tells with h | ⟨hs, -⟩
      · exact h
      · simp [hs, Stage.isUpward] at hup
    exact ⟨changes_of_descent hg htells hup run hkeep,
      stage_of_descent hg (htop.mpr hup) run hkeep⟩
  · intro hticks
    have htells := tells_of_ticks hm.tells run (by omega)
    exact tick_of_bottom (by rwa [hgoal]) htells (by rw [hgoal]; omega)
  · intro op acts k hop hrun
    rw [goal_of_quiet (by rwa [hgoal]) hop hrun, hgoal]

/-- A connected machine that has been asked to come to rest. -/
def recalled : Machine := ((start {}).rehearse (ascent 21 ++ [(.aim .ready, obligingCard)])).2

/-- Ticks against a card that answers nothing, among them a selection and a query. -/
def brokenDescent : Plan :=
  let card := fun _ => Outcome.fault "gone"
  List.replicate 6 (.tick, card) ++ [(.prefer "Rover", card), (.query .deviceInfo, card)] ++
    List.replicate 7 (.tick, card)

theorem descent_bounded_recalled :
    (recalled.rehearse brokenDescent).2.stage = .ready ∧
      (changes (actsOf (recalled.rehearse brokenDescent).1)).map (·.state) =
        [.disconnecting, .disconnected, .ready] := by
  have hreachable : recalled.Reachable := ⟨{}, _, run_rehearse _ _⟩
  have hquiet : ∀ step ∈ (recalled.rehearse brokenDescent).1, step.1.isQuiet = true := by
    decide +kernel
  have hdown : recalled.goal.isUpward = false := by decide +kernel
  obtain ⟨hready, -, -, hway, -⟩ := descent_bounded hreachable hdown
    (run_rehearse recalled brokenDescent) (keepsGoal_of_quiet hdown hquiet)
  refine ⟨hready (by decide +kernel) (by decide +kernel), ?_⟩
  exact (hway (by decide +kernel)).1.trans (by decide +kernel)

end Machine

end Wimax
