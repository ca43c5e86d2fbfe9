import Wimax.Proofs.Steps
import Wimax.Run

/-!
What an operation does to a machine. A tick takes at most one step of its phase and then stays in
the visit or begins another one. A selection may end a visit, and no other operation does.
-/

namespace Wimax

/-- The command that the next step of the phase performs first. -/
def Phase.command? : Phase → Option Command
  | .initializing b => Bringup.script[b.cursor.place]?
  | .connecting a => Attach.script[a.cursor.place]?
  | .connected w => Monitor.script[w.cursor.place]?
  | .disconnecting t => Teardown.script[t.cursor.place]?
  | .ready | .initialized | .disconnected => none

theorem Phase.command?_eq_none_iff {p : Phase} :
    p.command? = none ↔ p = .ready ∨ p = .initialized ∨ p = .disconnected := by
  cases p with
  | ready | initialized | disconnected => simp [command?]
  | initializing b =>
    obtain ⟨c, hc, -⟩ := b.cursor.exists_pick (by simp [Bringup.script])
    simp [command?, hc]
  | connecting a =>
    obtain ⟨c, hc, -⟩ := a.cursor.exists_pick (by simp [Attach.script])
    simp [command?, hc]
  | connected w =>
    obtain ⟨c, hc, -⟩ := w.cursor.exists_pick (by simp [Monitor.script])
    simp [command?, hc]
  | disconnecting t =>
    obtain ⟨c, hc, -⟩ := t.cursor.exists_pick (by simp [Teardown.script])
    simp [command?, hc]

/-- The command makes or ends an attachment. -/
def Command.movesLink (c : Command) : Bool := c == .connect || c == .disconnect

namespace Machine

variable {m n : Machine} {op : Operation} {acts : List Act} {r : Report} {s : Stage}

/-- The machine at the beginning of a visit that has been reported. -/
def entered (m : Machine) (s : Stage) : Machine := { m with phase := .fresh s, shown := s.report }

@[simp]
theorem phase_entered (m : Machine) (s : Stage) : (m.entered s).phase = .fresh s := rfl

@[simp]
theorem stage_entered (m : Machine) (s : Stage) : (m.entered s).stage = s := Phase.stage_fresh s

@[simp]
theorem shown_entered (m : Machine) (s : Stage) : (m.entered s).shown = s.report := rfl

@[simp]
theorem driver_entered (m : Machine) (s : Stage) : (m.entered s).driver = m.driver := rfl

@[simp]
theorem goal_entered (m : Machine) (s : Stage) : (m.entered s).goal = m.goal := rfl

@[simp]
theorem preferred_entered (m : Machine) (s : Stage) : (m.entered s).preferred = m.preferred := rfl

theorem runs_announce (h : (m.announce r).Runs acts n) :
    n = { m with shown := r } ∧ calls acts = [] ∧ changes acts = m.shown.changesTo r := by
  unfold announce at h
  split at h
  · next hr =>
    obtain ⟨rfl, rfl⟩ := Dialog.runs_done_iff.mp h
    subst hr
    exact ⟨rfl, rfl, by simp⟩
  · next hr =>
    obtain ⟨rest, rfl, hrest⟩ := Dialog.runs_publish_iff.mp h
    obtain ⟨rfl, rfl⟩ := Dialog.runs_done_iff.mp hrest
    exact ⟨rfl, rfl, by simp [Report.changesTo_of_ne hr]⟩

theorem runs_moveTo (hs : m.stage ≠ s) (h : (m.moveTo s).Runs acts n) :
    n = m.entered s ∧ calls acts = [] ∧ changes acts = m.shown.changesTo s.report := by
  rw [moveTo, if_neg hs] at h
  exact runs_announce h

theorem runs_announceRssi {dbm : Int} (h : (m.announceRssi dbm).Runs acts n) :
    n = { m with shownRssi := some dbm } ∧ calls acts = [] ∧ changes acts = [] := by
  unfold announceRssi at h
  split at h
  · next hr =>
    obtain ⟨rfl, rfl⟩ := Dialog.runs_done_iff.mp h
    rw [← hr]
    exact ⟨rfl, rfl, rfl⟩
  · obtain ⟨rest, rfl, hrest⟩ := Dialog.runs_publish_iff.mp h
    obtain ⟨rfl, rfl⟩ := Dialog.runs_done_iff.mp hrest
    exact ⟨rfl, rfl, rfl⟩

theorem phase_of_ready (h : m.stage = .ready) : m.phase = .ready := by
  simp only [stage] at h
  cases hphase : m.phase <;> simp_all [Phase.stage]

theorem phase_of_disconnected (h : m.stage = .disconnected) : m.phase = .disconnected := by
  simp only [stage] at h
  cases hphase : m.phase <;> simp_all [Phase.stage]

/-- The stage that a tick enters without a step of the phase. -/
def turn? (m : Machine) : Option Stage :=
  match m.phase with
  | .disconnecting _ => none
  | .initialized => if m.goal = .connected then some .connecting else m.goal.redirect? .initialized
  | .connected _ => if m.goal = .connected then none else m.goal.redirect? .connected
  | phase => m.goal.redirect? phase.stage

theorem turn?_ne (h : m.turn? = some s) : m.stage ≠ s := by
  unfold turn? at h
  split at h
  · simp at h
  · next hm =>
    split at h
    · obtain rfl := Option.some.inj h
      simp [stage, hm, Phase.stage]
    · have := Goal.redirect?_ne h
      simpa [stage, hm, Phase.stage] using this.symm
  · next hm =>
    split at h
    · simp at h
    · have := Goal.redirect?_ne h
      simpa [stage, hm, Phase.stage] using this.symm
  · exact (Goal.redirect?_ne h).symm

theorem redirect?_mem {g : Goal} {s t : Stage} (h : g.redirect? s = some t) :
    (s = .disconnected ∧ t = .ready) ∨ t = .initializing ∨ t = .disconnecting := by
  revert h
  cases g <;> cases s <;> cases t <;> decide

theorem turn?_mem (h : m.turn? = some s) :
    (m.phase = .initialized ∧ s = .connecting) ∨ (m.phase = .disconnected ∧ s = .ready) ∨
      s = .initializing ∨ s = .disconnecting := by
  unfold turn? at h
  split at h
  · simp at h
  · next hphase =>
    split at h
    · exact .inl ⟨hphase, (Option.some.inj h).symm⟩
    · exact .inr ((redirect?_mem h).imp_left fun h => absurd h.1 (by decide))
  · split at h
    · simp at h
    · exact .inr ((redirect?_mem h).imp_left fun h => absurd h.1 (by decide))
  · exact .inr ((redirect?_mem h).imp_left fun h => ⟨phase_of_disconnected h.1, h.2⟩)

def afterBringup (m : Machine) (s : Step Bringup) : Machine :=
  let n :=
    { m with phase := .initializing s.phase, driver := s.driver, latestMessage := s.message }
  match s.verdict with
  | .underway => n
  | .scanning => { n with shown := .scanning }
  | .finished => n.entered .initialized
  | .failed => (n.giveUp s.message).entered .disconnecting

def afterAttach (m : Machine) (s : Step Attach) : Machine :=
  let n := { m with phase := .connecting s.phase, driver := s.driver }
  match s.verdict with
  | .underway => n
  | .scanning => n.entered .initializing
  | .finished => n.entered .connected
  | .failed =>
    match s.message with
    | some message =>
      ({ n with latestMessage := some message }.giveUp (some message)).entered .ready
    | none => n.entered .ready

def afterMonitor (m : Machine) (s : Step Monitor) (sample : Option Int) : Machine :=
  let n := { m with phase := .connected s.phase, driver := s.driver, latestMessage := s.message }
  match s.verdict with
  | .underway | .scanning => n
  | .finished => { n with shownRssi := sample.or n.shownRssi }
  | .failed => n.entered .connecting

def afterTeardown (m : Machine) (s : Step Teardown) : Machine :=
  let n := { m with phase := .disconnecting s.phase, driver := s.driver }
  if s.verdict = .finished then n.entered .disconnected else n

@[simp]
theorem driver_afterBringup (m : Machine) (s : Step Bringup) :
    (m.afterBringup s).driver = s.driver := by
  unfold afterBringup
  dsimp only
  split <;> rfl

@[simp]
theorem driver_afterAttach (m : Machine) (s : Step Attach) :
    (m.afterAttach s).driver = s.driver := by
  unfold afterAttach
  dsimp only
  split
  iterate 3 rfl
  split <;> rfl

@[simp]
theorem driver_afterMonitor (m : Machine) (s : Step Monitor) (sample : Option Int) :
    (m.afterMonitor s sample).driver = s.driver := by
  unfold afterMonitor
  dsimp only
  split <;> rfl

@[simp]
theorem driver_afterTeardown (m : Machine) (s : Step Teardown) :
    (m.afterTeardown s).driver = s.driver := by
  unfold afterTeardown
  dsimp only
  split <;> rfl

theorem stage_afterBringup (m : Machine) (s : Step Bringup) :
    (m.afterBringup s).stage =
      match s.verdict with
      | .underway | .scanning => .initializing
      | .finished => .initialized
      | .failed => .disconnecting := by
  unfold afterBringup
  dsimp only
  split <;> rfl

theorem stage_afterAttach (m : Machine) (s : Step Attach) :
    (m.afterAttach s).stage =
      match s.verdict with
      | .underway => .connecting
      | .scanning => .initializing
      | .finished => .connected
      | .failed => .ready := by
  unfold afterAttach
  dsimp only
  split
  iterate 3 rfl
  split <;> rfl

theorem stage_afterMonitor (m : Machine) (s : Step Monitor) (sample : Option Int) :
    (m.afterMonitor s sample).stage = if s.verdict = .failed then .connecting else .connected := by
  unfold afterMonitor
  dsimp only
  cases hv : s.verdict <;> rfl

theorem stage_afterTeardown (m : Machine) (s : Step Teardown) :
    (m.afterTeardown s).stage =
      if s.verdict = .finished then .disconnected else .disconnecting := by
  unfold afterTeardown
  dsimp only
  cases hv : s.verdict <;> rfl

/-- The ways the tick of a phase can go, with the calls they cost. -/
inductive Turn (m : Machine) : List (Request × Outcome) → Machine → Prop
  /-- There is nothing to do. -/
  | idle (hm : m.turn? = none) (hc : m.phase.command? = none) : m.Turn [] m
  /-- The stage does not lead to the goal, or needs no step to be left. -/
  | leave {s : Stage} (hs : m.turn? = some s) : m.Turn [] (m.entered s)
  | bringup {b : Bringup} {s : Step Bringup} {acts : List Act} (hm : m.phase = .initializing b)
      (hg : m.goal.isUpward = true)
      (step : (b.step m.driver m.settings.scanAllowance).Runs acts s) :
      m.Turn (calls acts) (m.afterBringup s)
  | attach {a : Attach} {s : Step Attach} {acts : List Act} (hm : m.phase = .connecting a)
      (hg : m.goal = .connected) (step : (a.step m.driver m.preferred).Runs acts s) :
      m.Turn (calls acts) (m.afterAttach s)
  | monitor {w : Monitor} {s : Step Monitor} {sample : Option Int} {acts : List Act}
      (hm : m.phase = .connected w) (hg : m.goal = .connected)
      (step : (w.step m.driver).Runs acts (s, sample)) :
      m.Turn (calls acts) (m.afterMonitor s sample)
  | teardown {t : Teardown} {s : Step Teardown} {acts : List Act} (hm : m.phase = .disconnecting t)
      (step : (t.step m.driver).Runs acts s) : m.Turn (calls acts) (m.afterTeardown s)

/-- A step that only calls, followed by changes without calls. -/
theorem turn_of_bind {σ : Type} {d : Dialog σ} {f : σ → Dialog Machine} {p : Command → Prop}
    {after : σ → Machine} (hd : d.CallsOnly p)
    (hturn : ∀ first s, d.Runs first s → m.Turn (calls first) (after s))
    (hf : ∀ s rest, (f s).Runs rest n →
      n = after s ∧ calls rest = [] ∧ changes rest = m.shown.changesTo n.shown)
    (h : (d >>= f).Runs acts n) :
    m.Turn (calls acts) n ∧ changes acts = m.shown.changesTo n.shown := by
  obtain ⟨s, first, rest, rfl, hfirst, hrest⟩ := Dialog.runs_bind_iff.mp h
  obtain ⟨hn, hcalls, hchanges⟩ := hf s rest hrest
  have hquiet : changes first = [] := hd.changes hfirst
  refine ⟨?_, by simp [hquiet, hchanges]⟩
  rw [calls_append, hcalls, List.append_nil, hn]
  exact hturn first s hfirst

theorem turn_tickBringup {b : Bringup} (hm : m.phase = .initializing b)
    (hg : m.goal.isUpward = true) (h : (m.tickBringup b).Runs acts n) :
    m.Turn (calls acts) n ∧ changes acts = m.shown.changesTo n.shown := by
  refine turn_of_bind (b.callsOnly_step _ _) (fun _ _ => .bringup hm hg) ?_ h
  intro s rest hrest
  cases hv : s.verdict with
  | underway =>
    simp only [hv, Dialog.pure_eq, Dialog.runs_done_iff] at hrest
    obtain ⟨rfl, rfl⟩ := hrest
    simp [afterBringup, hv]
  | scanning =>
    simp only [hv] at hrest
    obtain ⟨rfl, hcalls, hchanges⟩ := runs_announce hrest
    simpa [afterBringup, hv] using ⟨hcalls, hchanges⟩
  | finished =>
    simp only [hv] at hrest
    obtain ⟨rfl, hcalls, hchanges⟩ := runs_moveTo (by simp [stage, Phase.stage]) hrest
    simpa [afterBringup, hv] using ⟨hcalls, hchanges⟩
  | failed =>
    simp only [hv] at hrest
    obtain ⟨rfl, hcalls, hchanges⟩ :=
      @runs_moveTo _ n rest .disconnecting (by simp [giveUp, stage, Phase.stage]) hrest
    simpa [afterBringup, hv] using ⟨hcalls, hchanges⟩

theorem turn_tickAttach {a : Attach} (hm : m.phase = .connecting a) (hg : m.goal = .connected)
    (h : (m.tickAttach a).Runs acts n) :
    m.Turn (calls acts) n ∧ changes acts = m.shown.changesTo n.shown := by
  refine turn_of_bind (a.callsOnly_step _ _) (fun _ _ => .attach hm hg) ?_ h
  intro s rest hrest
  cases hv : s.verdict with
  | underway =>
    simp only [hv, Dialog.pure_eq, Dialog.runs_done_iff] at hrest
    obtain ⟨rfl, rfl⟩ := hrest
    simp [afterAttach, hv]
  | scanning =>
    simp only [hv] at hrest
    obtain ⟨rfl, hcalls, hchanges⟩ := runs_moveTo (by simp [stage, Phase.stage]) hrest
    simpa [afterAttach, hv] using ⟨hcalls, hchanges⟩
  | finished =>
    simp only [hv] at hrest
    obtain ⟨rfl, hcalls, hchanges⟩ := runs_moveTo (by simp [stage, Phase.stage]) hrest
    simpa [afterAttach, hv] using ⟨hcalls, hchanges⟩
  | failed =>
    cases hmsg : s.message with
    | none =>
      simp only [hv, hmsg] at hrest
      obtain ⟨rfl, hcalls, hchanges⟩ := runs_moveTo (by simp [stage, Phase.stage]) hrest
      simpa [afterAttach, hv, hmsg] using ⟨hcalls, hchanges⟩
    | some message =>
      simp only [hv, hmsg] at hrest
      obtain ⟨rfl, hcalls, hchanges⟩ :=
        runs_moveTo (by simp [giveUp, stage, Phase.stage]) hrest
      simpa [afterAttach, hv, hmsg, giveUp] using ⟨hcalls, hchanges⟩

theorem turn_tickMonitor {w : Monitor} (hm : m.phase = .connected w) (hg : m.goal = .connected)
    (h : (m.tickMonitor w).Runs acts n) :
    m.Turn (calls acts) n ∧ changes acts = m.shown.changesTo n.shown := by
  refine @turn_of_bind _ _ _ _ _ _ _ (fun p => m.afterMonitor p.1 p.2) (w.callsOnly_step _)
    (fun _ _ => .monitor hm hg) ?_ h
  rintro ⟨s, sample⟩ rest hrest
  cases hv : s.verdict with
  | underway =>
    simp only [hv, Dialog.pure_eq, Dialog.runs_done_iff] at hrest
    obtain ⟨rfl, rfl⟩ := hrest
    simp [afterMonitor, hv]
  | scanning =>
    simp only [hv, Dialog.pure_eq, Dialog.runs_done_iff] at hrest
    obtain ⟨rfl, rfl⟩ := hrest
    simp [afterMonitor, hv]
  | finished =>
    cases sample with
    | none =>
      simp only [hv, Dialog.pure_eq, Dialog.runs_done_iff] at hrest
      obtain ⟨rfl, rfl⟩ := hrest
      simp [afterMonitor, hv]
    | some dbm =>
      simp only [hv] at hrest
      obtain ⟨rfl, hcalls, hchanges⟩ := runs_announceRssi hrest
      simpa [afterMonitor, hv] using ⟨hcalls, hchanges⟩
  | failed =>
    simp only [hv] at hrest
    obtain ⟨rfl, hcalls, hchanges⟩ := runs_moveTo (by simp [stage, Phase.stage]) hrest
    simpa [afterMonitor, hv] using ⟨hcalls, hchanges⟩

theorem turn_tickTeardown {t : Teardown} (hm : m.phase = .disconnecting t)
    (h : (m.tickTeardown t).Runs acts n) :
    m.Turn (calls acts) n ∧ changes acts = m.shown.changesTo n.shown := by
  refine turn_of_bind (t.callsOnly_step _) (fun _ _ => .teardown hm) ?_ h
  intro s rest hrest
  by_cases hv : s.verdict = .finished
  · simp only [hv, ↓reduceIte] at hrest
    obtain ⟨rfl, hcalls, hchanges⟩ := runs_moveTo (by simp [stage, Phase.stage]) hrest
    simpa [afterTeardown, hv] using ⟨hcalls, hchanges⟩
  · simp only [hv, ↓reduceIte, Dialog.pure_eq, Dialog.runs_done_iff] at hrest
    obtain ⟨rfl, rfl⟩ := hrest
    simp [afterTeardown, hv]

theorem turn_redirect (hturn : m.turn? = m.goal.redirect? m.stage)
    (hidle : m.goal.redirect? m.stage = none → m.phase.command? = none)
    (h : m.redirect.Runs acts n) :
    m.Turn (calls acts) n ∧ changes acts = m.shown.changesTo n.shown := by
  unfold redirect at h
  split at h
  · next s hs =>
    rw [hs] at hturn
    obtain ⟨rfl, hcalls, hchanges⟩ := runs_moveTo (turn?_ne hturn) h
    exact ⟨hcalls ▸ .leave hturn, hchanges⟩
  · next hs =>
    rw [hs] at hturn
    obtain ⟨rfl, rfl⟩ := Dialog.runs_done_iff.mp h
    exact ⟨.idle hturn (hidle hs), by simp⟩

theorem redirect?_ne_none {g : Goal} {s : Stage} (hs : s.isUpward = true)
    (hg : g.isServedBy s = false) : g.redirect? s ≠ none := by
  revert hs hg
  cases g <;> cases s <;> decide

/-- The tick of a phase goes one of these ways, and observers hear of the report it ends with. -/
theorem turn_tickPhase (h : m.tickPhase.Runs acts n) :
    m.Turn (calls acts) n ∧ changes acts = m.shown.changesTo n.shown := by
  unfold tickPhase at h
  split at h
  · next hm => exact turn_redirect (by simp [turn?, stage, hm]) (by simp [hm, Phase.command?]) h
  · next hm => exact turn_redirect (by simp [turn?, stage, hm]) (by simp [hm, Phase.command?]) h
  · next hm =>
    split at h
    · next hg =>
      have hturn : m.turn? = some .connecting := by simp [turn?, hm, hg]
      obtain ⟨rfl, hcalls, hchanges⟩ := runs_moveTo (turn?_ne hturn) h
      exact ⟨hcalls ▸ .leave hturn, hchanges⟩
    · next hg =>
      exact turn_redirect (by simp [turn?, stage, Phase.stage, hm, hg])
        (by simp [hm, Phase.command?]) h
  · next b hm =>
    split at h
    · next hg => exact turn_tickBringup hm hg h
    · next hg =>
      have hstage : m.stage = .initializing := by simp [stage, hm, Phase.stage]
      refine turn_redirect (by simp [turn?, stage, hm]) (fun hnone => ?_) h
      rw [hstage] at hnone
      refine absurd hnone (redirect?_ne_none rfl ?_)
      revert hg
      cases m.goal <;> decide
  · next a hm =>
    split at h
    · next hg => exact turn_tickAttach hm hg h
    · next hg =>
      have hstage : m.stage = .connecting := by simp [stage, hm, Phase.stage]
      refine turn_redirect (by simp [turn?, stage, hm]) (fun hnone => ?_) h
      rw [hstage] at hnone
      refine absurd hnone (redirect?_ne_none rfl ?_)
      revert hg
      cases m.goal <;> decide
  · next w hm =>
    split at h
    · next hg => exact turn_tickMonitor hm hg h
    · next hg =>
      have hstage : m.stage = .connected := by simp [stage, hm, Phase.stage]
      refine turn_redirect (by simp [turn?, stage, Phase.stage, hm, hg]) (fun hnone => ?_) h
      rw [hstage] at hnone
      refine absurd hnone (redirect?_ne_none rfl ?_)
      cases m.goal <;> rfl
  · next t hm => exact turn_tickTeardown hm h

/-- The machine after the report that precedes its first step. -/
def greeted (m : Machine) : Machine :=
  if m.shown = .unknown then { m with shown := m.stage.report } else m

theorem greeted_eq (m : Machine) : m.greeted = { m with shown := m.greeted.shown } := by
  unfold greeted
  split <;> rfl

theorem greeted_of_ne (h : m.shown ≠ .unknown) : m.greeted = m := if_neg h

@[simp]
theorem phase_greeted (m : Machine) : m.greeted.phase = m.phase := by rw [greeted_eq]

@[simp]
theorem stage_greeted (m : Machine) : m.greeted.stage = m.stage := by rw [greeted_eq]; rfl

@[simp]
theorem settings_greeted (m : Machine) : m.greeted.settings = m.settings := by rw [greeted_eq]

@[simp]
theorem driver_greeted (m : Machine) : m.greeted.driver = m.driver := by rw [greeted_eq]

@[simp]
theorem goal_greeted (m : Machine) : m.greeted.goal = m.goal := by rw [greeted_eq]

@[simp]
theorem preferred_greeted (m : Machine) : m.greeted.preferred = m.preferred := by rw [greeted_eq]

@[simp]
theorem turn?_greeted (m : Machine) : m.greeted.turn? = m.turn? := by rw [greeted_eq]; rfl

theorem turn_tick (h : m.tick.Runs acts n) :
    m.greeted.Turn (calls acts) n ∧
      changes acts = m.shown.changesTo m.greeted.shown ++ m.greeted.shown.changesTo n.shown := by
  unfold tick at h
  dsimp only at h
  split at h
  · next hm =>
    have hg : m.greeted = { m with shown := m.stage.report } := if_pos hm
    obtain ⟨k, first, rest, rfl, hfirst, hrest⟩ := Dialog.runs_bind_iff.mp h
    obtain ⟨hk, hcalls, hchanges⟩ := runs_announce hfirst
    rw [hk, ← hg] at hrest
    obtain ⟨hturn, hlast⟩ := turn_tickPhase hrest
    rw [calls_append, hcalls, changes_append, hchanges, hlast]
    exact ⟨hturn, by rw [hg]⟩
  · next hm =>
    rw [Dialog.pure_eq, Dialog.done_bind] at h
    rw [greeted_of_ne hm, Report.changesTo_self]
    exact turn_tickPhase h

/-- Only the goal and the driver may differ, and no part of the driver was closed. -/
structure Unmoved (m n : Machine) : Prop where
  eq : n = { m with driver := n.driver, goal := n.goal }
  driver : m.driver.Keeps n.driver

theorem Unmoved.refl (m : Machine) : m.Unmoved m := ⟨rfl, .refl _⟩

theorem unmoved_aim (m : Machine) (g : Goal) : m.Unmoved (m.aim g) := ⟨rfl, .refl _⟩

theorem Unmoved.trans {k : Machine} (h₁ : m.Unmoved n) (h₂ : n.Unmoved k) : m.Unmoved k where
  eq := by rw [h₂.eq, h₁.eq]
  driver := h₁.driver.trans h₂.driver

theorem Unmoved.phase (h : m.Unmoved n) : n.phase = m.phase := by rw [h.eq]

theorem Unmoved.stage (h : m.Unmoved n) : n.stage = m.stage := by rw [h.eq]; rfl

theorem Unmoved.shown (h : m.Unmoved n) : n.shown = m.shown := by rw [h.eq]

theorem Unmoved.preferred (h : m.Unmoved n) : n.preferred = m.preferred := by rw [h.eq]

theorem runs_seekCard (h : m.seekCard.Runs acts n) :
    m.Unmoved n ∧ changes acts = [] ∧ ∀ r o, (r, o) ∈ calls acts → r.command.movesLink = false := by
  obtain ⟨⟨d, present⟩, first, rest, rfl, hfirst, hrest⟩ := Dialog.runs_bind_iff.mp h
  obtain ⟨rfl, rfl⟩ := Dialog.runs_done_iff.mp hrest
  have hd : m.Unmoved { m with driver := d } := ⟨rfl, (Driver.looked_cardPresent hfirst).keeps⟩
  have honly := Driver.callsOnly_cardPresent m.driver
  rw [List.append_nil]
  refine ⟨?_, honly.changes hfirst, ?_⟩
  · split_ifs
    · exact hd.trans (unmoved_aim _ _)
    · exact hd
    · exact hd.trans (unmoved_aim _ _)
  · intro r o hro
    rcases honly.calls hfirst hro with he | he <;> rw [he] <;> rfl

theorem unmoved_noteCard (m : Machine) (present : Bool) : m.Unmoved (m.noteCard present) := by
  have hd : m.Unmoved { m with driver :=
      { m.driver with record := { m.driver.record with present := some present } } } := by
    refine ⟨rfl, rfl, fun h => ⟨h.device, h.channel⟩, fun c hc h => ?_⟩
    cases c <;> first | exact h | exact absurd rfl hc
  unfold noteCard
  dsimp only
  split_ifs
  · exact hd.trans (unmoved_aim _ _)
  · exact hd
  · exact hd.trans (unmoved_aim _ _)

theorem runs_handle {notice : Notice} (h : (m.handle notice).Runs acts n) :
    m.Unmoved n ∧ changes acts = [] ∧ ∀ r o, (r, o) ∈ calls acts → r.command.movesLink = false := by
  cases notice with
  | insertRemove present =>
    obtain ⟨rfl, rfl⟩ := Dialog.runs_done_iff.mp h
    exact ⟨unmoved_noteCard m present, by simp⟩
  | power state =>
    obtain ⟨rfl, rfl⟩ := Dialog.runs_done_iff.mp h
    refine ⟨?_, by simp⟩
    split
    · exact unmoved_aim _ _
    · exact .refl m
  | connectResult code =>
    simp only [handle] at h
    split at h
    · exact runs_seekCard h
    · obtain ⟨rfl, rfl⟩ := Dialog.runs_done_iff.mp h
      exact ⟨.refl n, by simp⟩
  | disconnectResult code =>
    simp only [handle] at h
    split at h
    · exact runs_seekCard h
    · obtain ⟨rfl, rfl⟩ := Dialog.runs_done_iff.mp h
      exact ⟨.refl n, by simp⟩
  | wideScan networks =>
    obtain ⟨k, first, rest, rfl, hfirst, hrest⟩ := Dialog.runs_bind_iff.mp h
    obtain ⟨last, rfl, hlast⟩ := Dialog.runs_publish_iff.mp hrest
    obtain ⟨rfl, rfl⟩ := Dialog.runs_done_iff.mp hlast
    obtain ⟨hun, hchanges, hcalls⟩ := runs_seekCard hfirst
    refine ⟨hun, ?_, by simpa using hcalls⟩
    rw [changes_append, hchanges]
    rfl
  | provisioning stage kind =>
    obtain ⟨last, rfl, hlast⟩ := Dialog.runs_publish_iff.mp h
    obtain ⟨rfl, rfl⟩ := Dialog.runs_done_iff.mp hlast
    exact ⟨.refl n, rfl, by simp⟩
  | packageUpdate stage =>
    obtain ⟨last, rfl, hlast⟩ := Dialog.runs_publish_iff.mp h
    obtain ⟨rfl, rfl⟩ := Dialog.runs_done_iff.mp hlast
    exact ⟨.refl n, rfl, by simp⟩
  | statusChange status reason phase =>
    obtain ⟨rfl, rfl⟩ := Dialog.runs_done_iff.mp h
    exact ⟨.refl n, by simp⟩

theorem isHarmless_query (q : Query) : q.command.isHarmless = true := by
  cases q <;> rfl

theorem movesLink_query (q : Query) : q.command.movesLink = false := by
  cases q <;> rfl

theorem runs_ask {q : Query} {result : Except Fault Answer}
    (h : (m.ask q).Runs acts (n, result)) :
    m.Unmoved n ∧ n.goal = m.goal ∧ changes acts = [] ∧
      ∀ r o, (r, o) ∈ calls acts → r.command.movesLink = false := by
  unfold ask at h
  split at h
  · obtain ⟨rfl, he⟩ := Dialog.runs_done_iff.mp h
    obtain ⟨rfl, -⟩ := Prod.mk.inj he
    exact ⟨.refl n, rfl, by simp⟩
  · obtain ⟨⟨d, result⟩, first, rest, rfl, hfirst, hrest⟩ := Dialog.runs_bind_iff.mp h
    obtain ⟨rfl, he⟩ := Dialog.runs_done_iff.mp hrest
    obtain ⟨rfl, -⟩ := Prod.mk.inj he
    have honly := m.driver.callsOnly_perform q.command q.args
    rw [List.append_nil]
    refine ⟨⟨rfl, (Driver.served_perform hfirst).keeps (isHarmless_query q)⟩, rfl,
      honly.changes hfirst, fun r o hro => ?_⟩
    rw [honly.calls hfirst hro]
    exact movesLink_query q

theorem runs_ask_of_refused {q : Query} {result : Except Fault Answer}
    (hs : m.stage.takesQueries = false) (h : (m.ask q).Runs acts (n, result)) :
    n = m ∧ acts = [] := by
  have hrefusal : ∃ fault, q.refusal? m.stage = some fault := by
    unfold Query.refusal?
    split
    · rw [if_neg (by rintro he; simp [he, Stage.takesQueries] at hs)]
      exact ⟨_, rfl⟩
    · rw [if_neg (by simp [hs])]
      exact ⟨_, rfl⟩
  obtain ⟨fault, hfault⟩ := hrefusal
  rw [ask, hfault] at h
  obtain ⟨rfl, he⟩ := Dialog.runs_done_iff.mp h
  exact ⟨(Prod.mk.inj he).1, rfl⟩

theorem prefer_eq (m : Machine) (name : String) :
    m.prefer name =
      if sameName m.preferred name then .done m
      else if m.goal = .connected ∧ (m.stage = .connecting ∨ m.stage = .connected) then
        { m with preferred := name }.moveTo .disconnecting
      else .done { m with preferred := name } := rfl

/-- A selection stores another name, and gives up an attachment that serves the goal. -/
theorem runs_prefer {name : String} (h : (m.prefer name).Runs acts n) :
    calls acts = [] ∧ changes acts = m.shown.changesTo n.shown ∧
      if sameName m.preferred name then n = m
      else if m.goal = .connected ∧ (m.stage = .connecting ∨ m.stage = .connected) then
        n = { m with preferred := name }.entered .disconnecting
      else n = { m with preferred := name } := by
  rw [prefer_eq] at h
  split_ifs at h ⊢ with hsame hm
  · obtain ⟨rfl, rfl⟩ := Dialog.runs_done_iff.mp h
    exact ⟨rfl, by simp, rfl⟩
  · have hne : { m with preferred := name }.stage ≠ .disconnecting := by
      rintro he
      have he : m.stage = .disconnecting := he
      simp [he] at hm
    obtain ⟨rfl, hcalls, hchanges⟩ := runs_moveTo hne h
    exact ⟨hcalls, hchanges, rfl⟩
  · obtain ⟨rfl, rfl⟩ := Dialog.runs_done_iff.mp h
    exact ⟨rfl, by simp, rfl⟩

inductive Carries (m : Machine) (acts : List Act) (n : Machine) : Operation → Prop
  | tick (hturn : m.greeted.Turn (calls acts) n)
      (hchanges : changes acts =
        m.shown.changesTo m.greeted.shown ++ m.greeted.shown.changesTo n.shown) :
      m.Carries acts n .tick
  /-- A selection gives up an attachment that serves the goal. -/
  | giveUp {name : String}
      (hm : m.goal = .connected ∧ (m.stage = .connecting ∨ m.stage = .connected))
      (hn : n = { m with preferred := name }.entered .disconnecting) (hcalls : calls acts = [])
      (hchanges : changes acts = m.shown.changesTo n.shown) : m.Carries acts n (.prefer name)
  | store {name : String} (hn : n = { m with preferred := name }) (hcalls : calls acts = [])
      (hchanges : changes acts = []) : m.Carries acts n (.prefer name)
  | unmoved {op : Operation} (hop : op ≠ .tick) (hn : m.Unmoved n) (hchanges : changes acts = [])
      (hlink : ∀ r o, (r, o) ∈ calls acts → r.command.movesLink = false) : m.Carries acts n op

theorem carries_carryOut (h : (m.carryOut op).Runs acts n) :
    m.Carries acts n op := by
  cases op with
  | tick =>
    obtain ⟨hturn, hchanges⟩ := turn_tick h
    exact .tick hturn hchanges
  | aim g =>
    obtain ⟨rfl, rfl⟩ := Dialog.runs_done_iff.mp h
    exact .unmoved (by simp) (unmoved_aim m g) rfl (by simp)
  | prefer name =>
    obtain ⟨hcalls, hchanges, hn⟩ := runs_prefer h
    split_ifs at hn with hsame hm
    · subst hn
      exact .unmoved (by simp) (.refl n) (by simpa using hchanges) (by simp [hcalls])
    · exact .giveUp hm hn hcalls hchanges
    · exact .store hn hcalls (by simpa [hn] using hchanges)
  | notice notice =>
    obtain ⟨hn, hchanges, hlink⟩ := runs_handle h
    exact .unmoved (by simp) hn hchanges hlink
  | query q =>
    obtain ⟨⟨k, result⟩, first, rest, rfl, hfirst, hrest⟩ := Dialog.runs_bind_iff.mp h
    obtain ⟨rfl, rfl⟩ := Dialog.runs_done_iff.mp hrest
    obtain ⟨hn, -, hchanges, hlink⟩ := runs_ask hfirst
    rw [List.append_nil]
    exact .unmoved (by simp) hn hchanges hlink

theorem calls_handle {notice : Notice} (h : (m.handle notice).Runs acts n) :
    calls acts = [] ∨ ∃ first k, m.seekCard.Runs first k ∧ calls acts = calls first := by
  cases notice with
  | connectResult code =>
    simp only [handle] at h
    split at h
    · exact .inr ⟨acts, n, h, rfl⟩
    · obtain ⟨rfl, -⟩ := Dialog.runs_done_iff.mp h
      exact .inl rfl
  | disconnectResult code =>
    simp only [handle] at h
    split at h
    · exact .inr ⟨acts, n, h, rfl⟩
    · obtain ⟨rfl, -⟩ := Dialog.runs_done_iff.mp h
      exact .inl rfl
  | wideScan networks =>
    obtain ⟨k, first, rest, rfl, hfirst, hrest⟩ := Dialog.runs_bind_iff.mp h
    obtain ⟨last, rfl, hlast⟩ := Dialog.runs_publish_iff.mp hrest
    obtain ⟨rfl, rfl⟩ := Dialog.runs_done_iff.mp hlast
    exact .inr ⟨first, n, hfirst, by simp⟩
  | provisioning stage kind =>
    obtain ⟨last, rfl, hlast⟩ := Dialog.runs_publish_iff.mp h
    obtain ⟨rfl, -⟩ := Dialog.runs_done_iff.mp hlast
    exact .inl rfl
  | packageUpdate stage =>
    obtain ⟨last, rfl, hlast⟩ := Dialog.runs_publish_iff.mp h
    obtain ⟨rfl, -⟩ := Dialog.runs_done_iff.mp hlast
    exact .inl rfl
  | _ =>
    obtain ⟨rfl, -⟩ := Dialog.runs_done_iff.mp h
    exact .inl rfl

theorem calls_seekCard (h : m.seekCard.Runs acts n) :
    ∀ r o, (r, o) ∈ calls acts → Driver.looksForCard r.command := by
  obtain ⟨p, first, rest, rfl, hfirst, hrest⟩ := Dialog.runs_bind_iff.mp h
  obtain ⟨rfl, -⟩ := Dialog.runs_done_iff.mp hrest
  intro r o hro
  exact (Driver.callsOnly_cardPresent _).calls hfirst (by simpa using hro)

theorem looksForCard_of_ne_tick (hs : m.stage.takesQueries = false) (hop : op ≠ .tick)
    (h : (m.carryOut op).Runs acts n) :
    ∀ r o, (r, o) ∈ calls acts → Driver.looksForCard r.command := by
  cases op with
  | tick => exact absurd rfl hop
  | aim g =>
    obtain ⟨rfl, -⟩ := Dialog.runs_done_iff.mp h
    simp
  | prefer name => simp [(runs_prefer h).1]
  | notice notice =>
    rcases calls_handle h with hnone | ⟨first, k, hfirst, heq⟩
    · simp [hnone]
    · rw [heq]
      exact calls_seekCard hfirst
  | query q =>
    obtain ⟨⟨k, result⟩, first, rest, rfl, hfirst, hrest⟩ := Dialog.runs_bind_iff.mp h
    obtain ⟨rfl, -⟩ := Dialog.runs_done_iff.mp hrest
    obtain ⟨-, rfl⟩ := runs_ask_of_refused hs hfirst
    simp

theorem Turn.settings {cs : List (Request × Outcome)} (h : m.Turn cs n) :
    n.settings = m.settings := by
  cases h with
  | idle => rfl
  | leave => rfl
  | bringup =>
    unfold afterBringup
    dsimp only
    split <;> rfl
  | attach =>
    unfold afterAttach
    dsimp only
    split
    iterate 3 rfl
    split <;> rfl
  | monitor =>
    unfold afterMonitor
    dsimp only
    split <;> rfl
  | teardown =>
    unfold afterTeardown
    dsimp only
    split <;> rfl

theorem settings_carryOut (h : (m.carryOut op).Runs acts n) : n.settings = m.settings := by
  cases carries_carryOut h with
  | tick hturn => rw [hturn.settings, settings_greeted]
  | giveUp _ hn => rw [hn]; rfl
  | store hn => rw [hn]
  | unmoved _ hn => rw [hn.eq]

theorem Run.settings_eq {settings : Settings} {steps : List (Operation × List Act)}
    (run : Run (start settings) steps m) : m.settings = settings := by
  induction run with
  | nil => rfl
  | snoc prior last ih => rw [settings_carryOut last, ih]

end Machine

end Wimax
