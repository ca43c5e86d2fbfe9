import Wimax.Proofs.Moves

/-!
Which preference a connection was asked for under. A machine gets attached by a connect request
only, and asks for nothing while it stays so. A selection is lost on a connection just when it finds
the machine attached under another goal and the machine is kept attached from then on.
-/

namespace Wimax

def Asks (acts : List Act) : Prop := ∃ call ∈ calls acts, call.1.command = .connect

instance (acts : List Act) : Decidable (Asks acts) :=
  inferInstanceAs (Decidable (∃ call ∈ calls acts, call.1.command = .connect))

theorem asks_append {acts more : List Act} : Asks (acts ++ more) ↔ Asks acts ∨ Asks more := by
  simp only [Asks, calls_append, List.mem_append]
  constructor
  · rintro ⟨c, hc | hc, he⟩
    · exact .inl ⟨c, hc, he⟩
    · exact .inr ⟨c, hc, he⟩
  · rintro (⟨c, hc, he⟩ | ⟨c, hc, he⟩)
    · exact ⟨c, .inl hc, he⟩
    · exact ⟨c, .inr hc, he⟩

theorem not_asks_nil : ¬Asks [] := by simp [Asks]

namespace Machine

variable {m n k : Machine} {op : Operation} {acts : List Act}
  {steps : List (Operation × List Act)} {cs : List (Request × Outcome)}

/-- An attachment exists, or the request for it has been accepted. -/
def attached (m : Machine) : Prop :=
  match m.phase with
  | .connecting a => a.cursor.place ≠ 0
  | .connected _ => True
  | _ => False

theorem attached_of_stage (h : m.stage = .connected) : m.attached := by
  simp only [stage] at h
  cases hphase : m.phase <;> simp_all [Phase.stage, attached]

theorem Turn.not_asks (h : m.Turn cs n) (hm : m.attached) {r : Request} {o : Outcome}
    (hro : (r, o) ∈ cs) : r.command ≠ .connect := by
  cases h with
  | idle => simp at hro
  | leave => simp at hro
  | @bringup b s acts hphase hg step => simp [attached, hphase] at hm
  | @attach a s acts hphase hg step =>
    simp only [attached, hphase] at hm
    rcases (a.callsOnly_step _ _).calls step hro with ⟨-, hplace⟩ | hprobe
    · exact absurd hplace hm
    · rintro hr
      rw [hr] at hprobe
      exact absurd hprobe (by decide)
  | @monitor w s sample acts hphase hg step =>
    have hne : ∀ c ∈ Monitor.script, c ≠ .connect := by decide
    exact hne _ ((w.callsOnly_step _).calls step hro)
  | @teardown t s acts hphase step => simp [attached, hphase] at hm

theorem not_attached_entered {s : Stage} (hs : s ≠ .connected) (m : Machine) :
    ¬(m.entered s).attached := by
  cases s <;> simp_all [attached, Phase.fresh]

theorem Turn.goal_of_attached (h : m.Turn cs n) (hm : m.attached) (hn : n.attached) :
    m.goal = .connected := by
  cases h with
  | idle hturn hc =>
    cases hphase : m.phase with
    | connecting a =>
      obtain ⟨c, hpick, -⟩ := a.cursor.exists_pick (by simp [Attach.script])
      simp [hphase, Phase.command?, hpick] at hc
    | connected w =>
      obtain ⟨c, hpick, -⟩ := w.cursor.exists_pick (by simp [Monitor.script])
      simp [hphase, Phase.command?, hpick] at hc
    | _ => simp [attached, hphase] at hm
  | @leave s hs =>
    refine absurd hn (not_attached_entered ?_ m)
    rintro rfl
    simpa using turn?_mem hs
  | bringup hphase => simp [attached, hphase] at hm
  | attach hphase hg => exact hg
  | monitor hphase hg => exact hg
  | teardown hphase => simp [attached, hphase] at hm

theorem Turn.asks (h : m.Turn cs n) (hm : ¬m.attached) (hn : n.attached) :
    ∃ call ∈ cs, call.1.command = .connect := by
  cases h with
  | idle => exact absurd hn hm
  | @leave s hs =>
    refine absurd hn (not_attached_entered ?_ m)
    rintro rfl
    simpa using turn?_mem hs
  | @bringup b s acts hphase hg step =>
    refine absurd hn ?_
    unfold afterBringup
    cases hv : s.verdict <;> simp [attached, Phase.fresh]
  | @attach a s acts hphase hg step =>
    have hplace : a.cursor.place = 0 := by simpa [attached, hphase] using hm
    rcases Attach.runs_step_first hplace step with ⟨-, hv⟩ | ⟨args, o, rest, rfl, -⟩
    · refine absurd hn ?_
      rw [afterAttach, hv]
      exact not_attached_entered (by decide) _
    · exact ⟨_, List.mem_cons_self, rfl⟩
  | @monitor w s sample acts hphase hg step => simp [attached, hphase] at hm
  | @teardown t s acts hphase step =>
    refine absurd hn ?_
    unfold afterTeardown
    by_cases hv : s.verdict = .finished <;> simp [attached, hv, Phase.fresh]

theorem attached_of_phase (h : n.phase = m.phase) : n.attached ↔ m.attached := by
  simp only [attached, h]

theorem not_asks_carryOut (hm : m.attached) (h : (m.carryOut op).Runs acts n) : ¬Asks acts := by
  rintro ⟨⟨r, o⟩, hro, hr⟩
  cases carries_carryOut h with
  | tick hturn => exact hturn.not_asks ((attached_of_phase m.phase_greeted).mpr hm) hro hr
  | giveUp _ _ hcalls => simp [hcalls] at hro
  | store _ hcalls => simp [hcalls] at hro
  | unmoved _ _ _ hlink =>
    have hmoves := hlink r o hro
    rw [show r.command = .connect from hr] at hmoves
    exact absurd hmoves (by decide)

theorem asks_carryOut (hm : ¬m.attached) (hn : n.attached) (h : (m.carryOut op).Runs acts n) :
    Asks acts := by
  cases carries_carryOut h with
  | tick hturn =>
    exact hturn.asks (fun hg => hm ((attached_of_phase m.phase_greeted).mp hg)) hn
  | giveUp _ he =>
    rw [he] at hn
    exact absurd hn (not_attached_entered (by decide) _)
  | store he =>
    rw [he] at hn
    exact absurd ((attached_of_phase rfl).mp hn) hm
  | unmoved _ hun => exact absurd ((attached_of_phase hun.phase).mp hn) hm

theorem goal_of_attached (hm : m.attached) (hn : n.attached)
    (h : (m.carryOut .tick).Runs acts n) : m.goal = .connected := by
  have hg : m.greeted.attached := (attached_of_phase m.phase_greeted).mpr hm
  simpa using (turn_tick h).1.goal_of_attached hg hn

theorem asks_run (run : Run m steps n) (hm : ¬m.attached) (hn : n.attached) :
    Asks (actsOf steps) := by
  induction run with
  | nil => exact absurd hn hm
  | @snoc steps k n op acts prior last ih =>
    rw [actsOf_append, asks_append]
    by_cases hk : k.attached
    · exact .inl (ih hk)
    · refine .inr ?_
      simpa using asks_carryOut hk hn last

/-- The machine is attached before and after every step. -/
def StaysAttached (m : Machine) (steps : List (Operation × List Act)) (n : Machine) : Prop :=
  ∀ first rest k, steps = first ++ rest → Run m first k → Run k rest n → k.attached

theorem not_asks_run (run : Run m steps n) (h : m.StaysAttached steps n) :
    ¬Asks (actsOf steps) := by
  induction run with
  | nil => exact not_asks_nil
  | @snoc steps k n op acts prior last ih =>
    have hk : k.attached := h steps [(op, acts)] k rfl prior (.one last)
    rw [actsOf_append, asks_append]
    rintro (hasks | hasks)
    · refine ih (fun first rest k' he h₁ h₂ => ?_) hasks
      exact h first (rest ++ [(op, acts)]) k' (by simp [he]) h₁ (.snoc h₂ last)
    · exact not_asks_carryOut hk last (by simpa using hasks)

/-- On a connection the machine has asked for nothing just when it stayed attached. -/
theorem staysAttached_iff (run : Run m steps n) (hn : n.attached) :
    m.StaysAttached steps n ↔ ¬Asks (actsOf steps) := by
  constructor
  · exact not_asks_run run
  · rintro hasks first rest k rfl h₁ h₂
    by_contra hk
    rw [actsOf_append, asks_append] at hasks
    exact hasks (.inr (asks_run h₂ hk hn))

theorem attached_prefer {name : String} (hname : sameName m.preferred name = false)
    (h : (m.carryOut (.prefer name)).Runs acts n) :
    n.attached ↔ m.attached ∧ m.goal ≠ .connected := by
  obtain ⟨-, -, hn⟩ := runs_prefer h
  rw [if_neg (by simp [hname])] at hn
  split_ifs at hn with hm
  · rw [hn]
    refine iff_of_false (not_attached_entered (by decide) _) ?_
    rintro ⟨-, hg⟩
    exact hg hm.1
  · have hattached : n.attached ↔ m.attached := attached_of_phase (by rw [hn])
    rw [hattached]
    refine ⟨fun ha => ⟨ha, fun hg => hm ⟨hg, ?_⟩⟩, And.left⟩
    simp only [attached] at ha
    simp only [stage]
    cases hphase : m.phase <;> simp_all [Phase.stage]

/-- A connection was asked for after the last selection of another name, unless that found the
machine attached under another goal and the machine stayed attached from then on. In that case the
connection is the one that was asked for under the name before. -/
theorem asks_after_selection {settings : Settings} {name : String} {k₁ : Machine}
    {before after : List (Operation × List Act)} (prior : Run (start settings) before k)
    (hname : sameName k.preferred name = false)
    (change : (k.carryOut (.prefer name)).Runs acts k₁) (since : Run k₁ after m)
    (hm : m.stage = .connected) :
    (Asks (actsOf after) ↔
        ¬(k.attached ∧ k.goal ≠ .connected ∧ k₁.StaysAttached after m)) ∧
      (¬Asks (actsOf after) → Asks (actsOf before) ∧
        ∀ first acts rest n, after = first ++ (.tick, acts) :: rest → Run k₁ first n →
          Run n ((.tick, acts) :: rest) m → n.goal = .connected) := by
  have hstays := staysAttached_iff since (attached_of_stage hm)
  have hprefer := attached_prefer hname change
  have hfirst : k₁.StaysAttached after m → k.attached ∧ k.goal ≠ .connected := fun h =>
    hprefer.mp (h [] after k₁ rfl .nil since)
  -- Without a request since then the machine stayed attached, so the selection left it so.
  constructor
  · constructor
    · rintro hasks ⟨-, -, h⟩
      exact hstays.mp h hasks
    · intro h
      by_contra hasks
      have hs := hstays.mpr hasks
      exact h ⟨(hfirst hs).1, (hfirst hs).2, hs⟩
  · intro hasks
    have hs := hstays.mpr hasks
    refine ⟨asks_run prior (by simp [attached, start]) (hfirst hs).1, ?_⟩
    rintro first acts rest n he h₁ h₂
    obtain ⟨k', h₃, h₄⟩ := run_cons_iff.mp h₂
    have hk' : k'.attached := hs (first ++ [(.tick, acts)]) rest k' (by simp [he]) (.snoc h₁ h₃) h₄
    exact goal_of_attached (hs first _ n he h₁ h₂) hk' h₃

/-- A connection that another goal has come over. -/
def offGoal : Machine := ((start {}).rehearse (ascent 21 ++ [(.aim .disconnected, obligingCard)])).2

/-- The goal is put back before the next tick. -/
def reselection : Plan := [(.aim .connected, obligingCard), (.tick, obligingCard)]

theorem asks_after_selection_offGoal :
    ∃ acts k₁, (offGoal.carryOut (.prefer "Rover")).Runs acts k₁ ∧
      (k₁.rehearse reselection).2.stage = .connected ∧
      Asks (actsOf
        ((start {}).rehearse (ascent 21 ++ [(.aim .disconnected, obligingCard)])).1) := by
  have hruns := Dialog.runs_recorder (offGoal.carryOut (.prefer "Rover")) obligingCard
  have hstage : (((offGoal.carryOut (.prefer "Rover")).run (recorder obligingCard) []).1.rehearse
      reselection).2.stage = .connected := by decide +kernel
  refine ⟨_, _, hruns, hstage, ?_⟩
  exact ((asks_after_selection (run_rehearse _ _) (by decide +kernel) hruns (run_rehearse _ _)
    hstage).2 (by decide +kernel)).1

/-- A selection can be lost: after the next tick the machine keeps a connection that was asked for
under the name before. -/
theorem exists_lost_selection :
    ∃ before acts after k k₁ m, Run (start {}) before k ∧
      sameName k.preferred "Rover" = false ∧ (k.carryOut (.prefer "Rover")).Runs acts k₁ ∧
      Run k₁ after m ∧ after.map (·.1) = [.aim .connected, .tick] ∧ m.stage = .connected ∧
      ¬Asks (actsOf after) := by
  refine ⟨_, _, _, offGoal, _, _, run_rehearse _ _, ?_, Dialog.runs_recorder _ obligingCard,
    run_rehearse _ reselection, ?_, ?_, ?_⟩ <;> decide +kernel

end Machine

end Wimax
