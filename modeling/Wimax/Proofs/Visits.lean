import Wimax.Proofs.Moves

/-!
Visits. A machine away from its first stage has entered the one it is in with a step of its run and
stayed there since. A visit begins at the start of its script, and only ticks move it on.
-/

namespace Wimax

namespace Machine

variable {m n k p : Machine} {op : Operation} {acts : List Act} {settings : Settings}
  {prior visit steps : List (Operation × List Act)} {cs : List (Request × Outcome)}

/-- A tick goes on with the visit or begins another one. -/
theorem Turn.phase (h : m.Turn cs n) : n.stage = m.stage ∨ n.phase = .fresh n.stage := by
  cases h with
  | idle => exact .inl rfl
  | leave => simp
  | @bringup b s acts hm =>
    have hstage : m.stage = .initializing := by rw [stage, hm]; rfl
    rw [stage_afterBringup, hstage]
    unfold afterBringup
    cases s.verdict <;> simp
  | @attach a s acts hm =>
    have hstage : m.stage = .connecting := by rw [stage, hm]; rfl
    rw [stage_afterAttach, hstage]
    unfold afterAttach
    cases s.verdict with
    | failed => cases s.message <;> simp
    | _ => simp
  | @monitor w s sample acts hm =>
    have hstage : m.stage = .connected := by rw [stage, hm]; rfl
    rw [stage_afterMonitor, hstage]
    unfold afterMonitor
    cases s.verdict <;> simp
  | @teardown t s acts hm =>
    have hstage : m.stage = .disconnecting := by rw [stage, hm]; rfl
    rw [stage_afterTeardown, hstage]
    unfold afterTeardown
    cases s.verdict <;> simp

theorem Turn.arrives (h : m.Turn cs n) (hs : m.stage ≠ n.stage) :
    (n.stage = .initialized → m.stage = .initializing ∧ m.goal.isUpward = true) ∧
      (n.stage = .connected → m.stage = .connecting ∧ m.goal = .connected) := by
  cases h with
  | idle => exact absurd rfl hs
  | leave hturn =>
    rw [stage_entered]
    constructor
    · rintro rfl
      simpa using turn?_mem hturn
    · rintro rfl
      simpa using turn?_mem hturn
  | @bringup b s acts hm hg =>
    have hstage : m.stage = .initializing := by rw [stage, hm]; rfl
    rw [stage_afterBringup]
    cases s.verdict <;> simp [hstage, hg]
  | @attach a s acts hm hg =>
    have hstage : m.stage = .connecting := by rw [stage, hm]; rfl
    rw [stage_afterAttach]
    cases s.verdict <;> simp [hstage, hg]
  | @monitor w s sample acts hm =>
    have hstage : m.stage = .connected := by rw [stage, hm]; rfl
    rw [stage_afterMonitor, hstage] at hs
    rw [stage_afterMonitor]
    split_ifs at hs ⊢ <;> simp at hs ⊢
  | @teardown t s acts hm =>
    rw [stage_afterTeardown]
    split <;> simp

theorem phase_of_entered (h : (k.carryOut op).Runs acts m) (hs : k.stage ≠ m.stage) :
    m.phase = .fresh m.stage := by
  cases carries_carryOut h with
  | tick hturn => exact hturn.phase.resolve_left (by simpa using hs.symm)
  | giveUp _ hm => simp [hm]
  | store hm => exact absurd (by rw [hm]; rfl) hs
  | unmoved _ hm => exact absurd hm.stage.symm hs

theorem eq_tick_of_entered (h : (k.carryOut op).Runs acts m) (hs : k.stage ≠ m.stage)
    (hm : m.stage ≠ .disconnecting) : op = .tick := by
  cases carries_carryOut h with
  | tick => rfl
  | giveUp _ he => exact absurd (by rw [he]; exact stage_entered _ _) hm
  | store he => exact absurd (by rw [he]; rfl) hs
  | unmoved _ he => exact absurd he.stage.symm hs

theorem phase_of_ne_tick (h : (m.carryOut op).Runs acts n) (hop : op ≠ .tick)
    (hs : n.stage = m.stage) : n.phase = m.phase := by
  cases carries_carryOut h with
  | tick => exact absurd rfl hop
  | giveUp hm hn =>
    rw [hn, stage_entered] at hs
    simp [← hs] at hm
  | store hn => rw [hn]
  | unmoved _ hn => exact hn.phase

/-- `p.Stays visit m` when the steps lead from `p` to `m` without leaving the stage. -/
inductive Stays (p : Machine) : List (Operation × List Act) → Machine → Prop
  | nil : p.Stays [] p
  | snoc {visit : List (Operation × List Act)} {n n' : Machine} {op : Operation}
      {acts : List Act} (prior : p.Stays visit n) (last : (n.carryOut op).Runs acts n')
      (hs : n'.stage = n.stage) : p.Stays (visit ++ [(op, acts)]) n'

theorem Stays.run (h : p.Stays visit m) : Run p visit m := by
  induction h with
  | nil => exact .nil
  | snoc _ last _ ih => exact .snoc ih last

theorem Stays.stage_eq (h : p.Stays visit m) : m.stage = p.stage := by
  induction h with
  | nil => rfl
  | snoc _ _ hs ih => exact hs.trans ih

/-- The last of the steps has led to `p` from another stage. -/
def Enters (settings : Settings) (steps : List (Operation × List Act)) (p : Machine) : Prop :=
  ∃ before op acts k, steps = before ++ [(op, acts)] ∧ Run (start settings) before k ∧
    (k.carryOut op).Runs acts p ∧ k.stage ≠ p.stage

theorem Enters.run (h : Enters settings steps p) : Run (start settings) steps p := by
  obtain ⟨before, op, acts, k, rfl, hbefore, hentry, -⟩ := h
  exact .snoc hbefore hentry

theorem Enters.phase (h : Enters settings steps p) : p.phase = .fresh p.stage := by
  obtain ⟨before, op, acts, k, -, -, hentry, hs⟩ := h
  exact phase_of_entered hentry hs

/-- Away from its first stage a machine is in a visit that it has entered. -/
theorem exists_visit (run : Run (start settings) steps m) (hm : m.stage ≠ .ready) :
    ∃ prior visit p, steps = prior ++ visit ∧ Enters settings prior p ∧ p.Stays visit m := by
  induction run with
  | nil => exact absurd rfl hm
  | @snoc steps k m op acts before last ih =>
    by_cases hs : m.stage = k.stage
    · obtain ⟨prior, visit, p, rfl, hp, hstays⟩ := ih (hs ▸ hm)
      exact ⟨prior, visit ++ [(op, acts)], p, by simp, hp, hstays.snoc last hs⟩
    · exact ⟨_, [], m, by simp, ⟨steps, op, acts, k, rfl, before, last, Ne.symm hs⟩, .nil⟩

end Machine

end Wimax
