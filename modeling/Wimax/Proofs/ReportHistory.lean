import Wimax.Proofs.Moves

/-!
The changes of the report that observers hear of. They form a path in a fixed graph that begins at
the unknown report, and they tell of every change of the stage exactly once.
-/

namespace Wimax

namespace Report

def successors : Report → List Report
  | unknown => [ready]
  | ready => [initializing]
  | initializing => [scanning, initialized, disconnecting]
  | scanning => [initialized, disconnecting]
  | initialized => [connecting, disconnecting]
  | connecting => [connected, initializing, ready, disconnecting]
  | connected => [connecting, initializing, disconnecting]
  | disconnecting => [disconnected]
  | disconnected => [ready, initializing]

theorem ne_of_mem_successors {r s : Report} (h : s ∈ r.successors) : s ≠ r := by
  revert h
  cases r <;> cases s <;> decide

theorem mem_successors_scanning {r : Report} (h : r ∈ initializing.successors)
    (hr : r ≠ scanning) : r ∈ scanning.successors := by
  revert h hr
  cases r <;> decide

/-- The changes lead from one report to another along the graph. -/
def Leads (r : Report) : List Change → Report → Prop
  | [], s => r = s
  | c :: cs, s => c.previous = r ∧ c.state ∈ r.successors ∧ c.state.Leads cs s

variable {r s t : Report} {cs ds : List Change}

theorem leads_append : r.Leads (cs ++ ds) t ↔ ∃ s, r.Leads cs s ∧ s.Leads ds t := by
  induction cs generalizing r with
  | nil => simp [Leads]
  | cons c cs ih => simp [Leads, ih, and_assoc]

theorem leads_changesTo (h : s = r ∨ s ∈ r.successors) : r.Leads (r.changesTo s) s := by
  by_cases hrs : r = s
  · subst hrs
    simp [Leads]
  · rw [changesTo_of_ne hrs]
    exact ⟨rfl, h.resolve_left (Ne.symm hrs), rfl⟩

/-- On the way out of a part of the graph its only gate is passed. -/
theorem Leads.through {route : List Report} (h : r.Leads cs t) (part : List Report)
    (gate : Report) (hpart : ∀ a ∈ part, ∀ b ∈ a.successors, b = gate ∨ b ∈ part)
    (hr : r ∈ part) (ht : t ∉ part)
    (hroute : ∀ rest, gate.Leads rest t → route.Sublist (rest.map (·.state))) :
    (gate :: route).Sublist (cs.map (·.state)) := by
  induction cs generalizing r with
  | nil =>
    obtain rfl : r = t := h
    exact absurd hr ht
  | cons c cs ih =>
    obtain ⟨-, hc, hrest⟩ := h
    rcases hpart r hr c.state hc with rfl | hc
    · exact (hroute cs hrest).cons_cons _
    · exact (ih hrest hc).cons _

theorem Leads.ascent (h : ready.Leads cs connected) :
    [initializing, initialized, connecting, connected].Sublist (cs.map (·.state)) := by
  -- Each part holds what can be shown before the next report of the ascent.
  refine h.through [ready] initializing (by decide) (by decide) (by decide) fun _ h => ?_
  refine h.through [ready, initializing, scanning, disconnecting, disconnected] initialized
    (by decide) (by decide) (by decide) fun _ h => ?_
  refine h.through [ready, initializing, scanning, initialized, disconnecting, disconnected]
    connecting (by decide) (by decide) (by decide) fun _ h => ?_
  exact h.through
    [ready, initializing, scanning, initialized, connecting, disconnecting, disconnected]
    connected (by decide) (by decide) (by decide) fun _ _ => List.nil_sublist _

end Report

/-- A change takes up where another one ended and goes along the graph. -/
def Change.Follows (d c : Change) : Prop :=
  d.previous = c.state ∧ d.state ≠ c.state ∧ d.state ∈ c.state.successors

theorem Report.Leads.isChain {r s : Report} {cs : List Change} (h : r.Leads cs s) :
    cs.IsChain fun c d => d.Follows c := by
  induction cs generalizing r with
  | nil => exact .nil
  | cons c cs ih =>
    obtain ⟨-, -, hrest⟩ := h
    cases cs with
    | nil => exact .singleton _
    | cons d cs =>
      have hd : d.Follows c := ⟨hrest.1, ne_of_mem_successors hrest.2.1, hrest.2.1⟩
      exact .cons_cons hd (ih hrest)

theorem Report.Leads.head? {s : Report} {cs : List Change} (h : unknown.Leads cs s) :
    ∀ c ∈ cs.head?, c = ⟨unknown, ready⟩ := by
  intro c hc
  cases cs with
  | nil => simp at hc
  | cons d cs =>
    obtain rfl : d = c := by simpa using hc
    obtain ⟨hprevious, hstate, -⟩ := h
    obtain ⟨previous, state⟩ := d
    obtain rfl : previous = unknown := hprevious
    obtain rfl : state = ready := List.mem_singleton.mp hstate
    rfl

theorem Report.Leads.getLast? {r s : Report} {cs : List Change} (h : r.Leads cs s) :
    (cs.getLast?.map (·.state)).getD r = s := by
  induction cs generalizing r with
  | nil => exact h
  | cons c cs ih =>
    have hrest := ih h.2.2
    cases cs with
    | nil => exact hrest
    | cons d cs =>
      rw [List.getLast?_cons_cons]
      rw [List.getLast?_eq_some_getLast (List.cons_ne_nil d cs)] at hrest ⊢
      exact hrest

theorem Report.Leads.between {r s p q : Report} {before between after : List Change}
    (h : r.Leads (before ++ ⟨p, ready⟩ :: (between ++ ⟨q, connected⟩ :: after)) s) :
    [initializing, initialized, connecting].Sublist (between.map (·.state)) := by
  obtain ⟨_, -, -, -, hrest⟩ := leads_append.mp h
  obtain ⟨t, hbetween, rfl, hmem, -⟩ := leads_append.mp hrest
  have hup : ready.Leads (between ++ [⟨q, connected⟩]) connected :=
    leads_append.mpr ⟨q, hbetween, rfl, hmem, rfl⟩
  have hsub := hup.ascent
  rw [List.map_append] at hsub
  exact (List.append_sublist_append_right [connected]).mp hsub

namespace Machine

variable {m n : Machine} {op : Operation} {acts : List Act} {s : Stage}
  {cs : List (Request × Outcome)} {steps : List (Operation × List Act)}

/-- The report shows the stage, or that the radio is sought. -/
def Tells (m : Machine) : Prop :=
  m.shown = m.stage.report ∨ (m.stage = .initializing ∧ m.shown = .scanning)

/-- Nothing was shown yet, and nothing has happened yet. -/
def Silent (m : Machine) : Prop := m.stage = .ready ∧ m.shown = .unknown

/-- What an operation does to the report: nothing, or it shows that the radio is sought or which
stage was entered. -/
inductive Retells (m : Machine) (op : Operation) (n : Machine) : Prop
  | same (hs : n.stage = m.stage) (hr : n.shown = m.shown)
  | scanning (hop : op = .tick) (hm : m.stage = .initializing) (hs : n.stage = m.stage)
      (hr : n.shown = .scanning)
  | stage (hs : n.stage.report ∈ m.stage.report.successors) (hr : n.shown = n.stage.report)

theorem redirect?_mem_successors {g : Goal} {s t : Stage} (h : g.redirect? s = some t)
    (hs : s ≠ .disconnecting) : t.report ∈ s.report.successors := by
  revert h hs
  cases g <;> cases s <;> cases t <;> decide

theorem turn?_mem_successors (h : m.turn? = some s) :
    s.report ∈ m.stage.report.successors := by
  unfold turn? at h
  split at h
  · simp at h
  · next hm =>
    simp only [stage, hm, Phase.stage]
    split at h
    · obtain rfl := Option.some.inj h
      decide
    · exact redirect?_mem_successors h (by decide)
  · next hm =>
    simp only [stage, hm, Phase.stage]
    split at h
    · simp at h
    · exact redirect?_mem_successors h (by decide)
  · next hd _ _ =>
    refine redirect?_mem_successors h fun hs => ?_
    simp only [stage] at hs
    cases hm : m.phase <;> simp_all [Phase.stage]

theorem Turn.retells (h : m.Turn cs n) : m.Retells .tick n := by
  cases h with
  | idle hm => exact .same rfl rfl
  | @leave s hs => exact .stage (by simpa using turn?_mem_successors hs) (by simp)
  | @bringup b s acts hm hg step =>
    have hstage : m.stage = .initializing := by simp [Machine.stage, hm, Phase.stage]
    unfold afterBringup
    dsimp only
    split
    · exact .same hstage.symm rfl
    · exact .scanning rfl hstage hstage.symm rfl
    all_goals exact .stage (by simp [hstage]; decide) rfl
  | @attach a s acts hm hg step =>
    have hstage : m.stage = .connecting := by simp [Machine.stage, hm, Phase.stage]
    unfold afterAttach
    dsimp only
    split
    · exact .same hstage.symm rfl
    · exact .stage (by simp [hstage]; decide) rfl
    · exact .stage (by simp [hstage]; decide) rfl
    · split <;> exact .stage (by simp [hstage]; decide) rfl
  | @monitor w s sample acts hm hg step =>
    have hstage : m.stage = .connected := by simp [Machine.stage, hm, Phase.stage]
    unfold afterMonitor
    dsimp only
    split
    iterate 3 exact .same hstage.symm rfl
    exact .stage (by simp [hstage]; decide) rfl
  | @teardown t s acts hm step =>
    have hstage : m.stage = .disconnecting := by simp [Machine.stage, hm, Phase.stage]
    unfold afterTeardown
    dsimp only
    split
    · exact .stage (by simp [hstage]; decide) rfl
    · exact .same hstage.symm rfl

theorem retells_of_ne_tick (hop : op ≠ .tick) (h : (m.carryOut op).Runs acts n) :
    changes acts = m.shown.changesTo n.shown ∧ m.Retells op n ∧
      (m.stage = .ready → n.stage = m.stage ∧ n.shown = m.shown) := by
  cases carries_carryOut h with
  | tick => exact absurd rfl hop
  | giveUp hm hn _ hchanges =>
    have hmem : Report.disconnecting ∈ m.stage.report.successors := by
      rcases hm.2 with hs | hs <;> rw [hs] <;> decide
    subst hn
    exact ⟨hchanges, .stage hmem rfl, fun hr => by simp [hr] at hm⟩
  | store hn _ hchanges =>
    subst hn
    exact ⟨by simp [hchanges], .same rfl rfl, fun _ => ⟨rfl, rfl⟩⟩
  | unmoved _ hun hchanges =>
    refine ⟨?_, .same hun.stage hun.shown, fun _ => ⟨hun.stage, hun.shown⟩⟩
    rw [hchanges, hun.shown, Report.changesTo_self]

/-- The changes tell what has become of the stage: one of a new stage, and otherwise none but that
the tick of an initialization seeks the radio. -/
structure Accounts (m : Machine) (op : Operation) (n : Machine) (cs : List Change) : Prop where
  moved : n.stage ≠ m.stage → cs.map (·.state) = [n.stage.report]
  stayed : n.stage = m.stage →
    cs = [] ∨ op = .tick ∧ m.stage = .initializing ∧ cs.map (·.state) = [.scanning]

theorem accounts_nil (h : n.stage = m.stage) : m.Accounts op n [] :=
  ⟨fun hne => absurd h hne, fun _ => .inl rfl⟩

theorem Retells.accounts (h : m.Retells op n) (hm : m.Tells) :
    n.Tells ∧ m.shown.Leads (m.shown.changesTo n.shown) n.shown ∧
      m.Accounts op n (m.shown.changesTo n.shown) := by
  cases h with
  | same hs hr =>
    refine ⟨by rwa [Tells, hs, hr], Report.leads_changesTo (.inl hr), ?_⟩
    rw [hr, Report.changesTo_self]
    exact accounts_nil hs
  | scanning hop hstage hs hr =>
    rcases hm with hm | ⟨-, hm⟩
    · rw [hstage] at hm
      have hmem : n.shown ∈ m.shown.successors := by
        rw [hm, hr]
        decide
      refine ⟨.inr ⟨hs.trans hstage, hr⟩, Report.leads_changesTo (.inr hmem), ?_⟩
      rw [hm, hr]
      exact ⟨fun hne => absurd hs hne, fun _ => .inr ⟨hop, hstage, rfl⟩⟩
    · have he : n.shown = m.shown := hr.trans hm.symm
      refine ⟨.inr ⟨hs.trans hstage, hr⟩, Report.leads_changesTo (.inl he), ?_⟩
      rw [he, Report.changesTo_self]
      exact accounts_nil hs
  | stage hs hr =>
    have hne : n.stage ≠ m.stage := fun he => Report.ne_of_mem_successors hs (by rw [he])
    have hmem : n.shown ∈ m.shown.successors := by
      rw [hr]
      rcases hm with hm | ⟨hstage, hm⟩
      · rwa [hm]
      · rw [hstage] at hs
        rw [hm]
        exact Report.mem_successors_scanning hs n.stage.report_ne_scanning
    refine ⟨.inl hr, Report.leads_changesTo (.inr hmem), fun _ => ?_, fun he => absurd he hne⟩
    rw [Report.changesTo_of_ne (Report.ne_of_mem_successors hmem).symm, hr]
    rfl

theorem Tells.ne_unknown (h : m.Tells) : m.shown ≠ .unknown := by
  rcases h with h | ⟨-, h⟩
  · rw [h]
    cases m.stage <;> decide
  · rw [h]
    decide

/-- The first report, which precedes the first step. -/
def greeting (m : Machine) (op : Operation) : List Change :=
  if op = .tick ∧ m.shown = .unknown then [⟨.unknown, .ready⟩] else []

/-- From the first tick on the report tells the stage. -/
theorem tells_greeted (hm : m.Tells ∨ m.Silent) :
    m.greeted.Tells ∧ m.shown.Leads (m.greeting .tick) m.greeted.shown ∧
      m.shown.changesTo m.greeted.shown = m.greeting .tick := by
  rcases hm with hm | ⟨hstage, hshown⟩
  · rw [greeted_of_ne hm.ne_unknown, greeting, if_neg (fun h => hm.ne_unknown h.2)]
    exact ⟨hm, rfl, by simp⟩
  · have hg : m.greeted = { m with shown := .ready } := by rw [greeted, if_pos hshown, hstage]; rfl
    rw [greeting, if_pos ⟨rfl, hshown⟩, hg, hshown]
    exact ⟨.inl (by change _ = m.stage.report; rw [hstage]; rfl), ⟨rfl, by decide, rfl⟩, rfl⟩

theorem accounts_carryOut (hm : m.Tells ∨ m.Silent) (h : (m.carryOut op).Runs acts n) :
    (n.Tells ∨ n.Silent) ∧ m.shown.Leads (changes acts) n.shown ∧
      ∃ later, changes acts = m.greeting op ++ later ∧ m.Accounts op n later := by
  by_cases hop : op = .tick
  · subst hop
    obtain ⟨hturn, hchanges⟩ := turn_tick h
    obtain ⟨htells, hfirst, hgreeting⟩ := tells_greeted hm
    obtain ⟨hn, hleads, hacc⟩ := hturn.retells.accounts htells
    rw [hgreeting] at hchanges
    refine ⟨.inl hn, ?_, _, hchanges, ?_, ?_⟩
    · rw [hchanges]
      exact Report.leads_append.mpr ⟨_, hfirst, hleads⟩
    · simpa using hacc.moved
    · simpa using hacc.stayed
  · obtain ⟨hchanges, hretells, hready⟩ := retells_of_ne_tick hop h
    have hgreeting : m.greeting op = [] := if_neg fun h => hop h.1
    rw [hgreeting, hchanges]
    rcases hm with hm | ⟨hstage, hshown⟩
    · obtain ⟨hn, hleads, hacc⟩ := hretells.accounts hm
      exact ⟨.inl hn, hleads, _, rfl, hacc⟩
    · obtain ⟨hs, hr⟩ := hready hstage
      refine ⟨.inr ⟨hs.trans hstage, hr.trans hshown⟩, Report.leads_changesTo (.inl hr), [], ?_,
        accounts_nil hs⟩
      rw [hr, Report.changesTo_self, List.nil_append]

theorem Tells.carryOut (hm : m.Tells) (hrun : (m.carryOut op).Runs acts n) : n.Tells := by
  by_cases hop : op = .tick
  · subst hop
    have hturn := (turn_tick hrun).1
    rw [greeted_of_ne hm.ne_unknown] at hturn
    exact (hturn.retells.accounts hm).1
  · have hretells := (retells_of_ne_tick hop hrun).2.1
    exact (hretells.accounts hm).1

theorem Tells.run (hm : m.Tells) (run : Run m steps n) : n.Tells := by
  induction run with
  | nil => exact hm
  | snoc prior last ih => exact ih.carryOut last

theorem tells_or_silent_run (hm : m.Tells ∨ m.Silent) (run : Run m steps n) :
    n.Tells ∨ n.Silent := by
  induction run with
  | nil => exact hm
  | snoc prior last ih => exact (accounts_carryOut ih last).1

theorem tells_run {settings : Settings} {steps : List (Operation × List Act)}
    (run : Run (start settings) steps m) :
    (m.Tells ∨ m.Silent) ∧ Report.unknown.Leads (changes (actsOf steps)) m.shown := by
  induction run with
  | nil => exact ⟨.inr ⟨rfl, rfl⟩, rfl⟩
  | snoc prior last ih =>
    obtain ⟨hm, hleads⟩ := ih
    obtain ⟨hn, hlast, -⟩ := accounts_carryOut hm last
    refine ⟨hn, ?_⟩
    simp only [actsOf_append, actsOf_cons, actsOf_nil, List.append_nil, changes_append]
    exact Report.leads_append.mpr ⟨_, hleads, hlast⟩

theorem Reachable.tells (h : m.Reachable) : m.Tells ∨ m.Silent := by
  obtain ⟨settings, steps, run⟩ := h
  exact (tells_run run).1

/-- The changes that observers hear of are the history of the machine: they begin with the report
that it is ready, take each other up along the graph, account for every step, and show the whole
way up between a report that it is ready and one that it is connected. -/
theorem report_history {settings : Settings} {steps : List (Operation × List Act)}
    (run : Run (start settings) steps m) :
    (∀ c ∈ (changes (actsOf steps)).head?, c = ⟨.unknown, .ready⟩) ∧
      (changes (actsOf steps)).IsChain (fun c d => d.Follows c) ∧
      ((changes (actsOf steps)).getLast?.map (·.state)).getD .unknown = m.shown ∧
      (∀ op acts n, (m.carryOut op).Runs acts n →
        ∃ later, changes acts = m.greeting op ++ later ∧ m.Accounts op n later) ∧
      ∀ before between after p q,
        changes (actsOf steps) = before ++ ⟨p, .ready⟩ :: (between ++ ⟨q, .connected⟩ :: after) →
        [.initializing, .initialized, .connecting].Sublist (between.map (·.state)) := by
  obtain ⟨hm, hleads⟩ := tells_run run
  generalize changes (actsOf steps) = history at hleads ⊢
  refine ⟨hleads.head?, hleads.isChain, hleads.getLast?, fun op acts n h => ?_, ?_⟩
  · exact (accounts_carryOut hm h).2.2
  · rintro before between after p q rfl
    exact hleads.between

theorem report_history_ascent :
    (changes (actsOf ((start {}).rehearse (ascent 21)).1)).map (·.state) =
        [.ready, .initializing, .initialized, .connecting, .connected] ∧
      (changes (actsOf ((start {}).rehearse (ascent 21)).1)).IsChain fun c d => d.Follows c :=
  ⟨by decide +kernel, (report_history (run_rehearse (start {}) (ascent 21))).2.1⟩

end Machine

end Wimax
