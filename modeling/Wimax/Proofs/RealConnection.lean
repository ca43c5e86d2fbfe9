import Wimax.Proofs.OpenDriver
import Wimax.Proofs.ReportHistory
import Wimax.Proofs.Visits

/-!
What stands behind a connection that is reported. While a machine is connecting, the place of its
script tells what the card has answered since the visit began: a request accepted, then a radio that
has settled. The link is probed in the tick that reports the connection.
-/

namespace Wimax

/-- A connect request was accepted. -/
def Accepts (acts : List Act) : Prop :=
  ∃ args reply, (⟨.connect, args⟩, .reply reply) ∈ calls acts ∧ reply.response.attaches

/-- The radio was found ready or with its data path up, and past its ranging. -/
def FindsSettled (acts : List Act) : Prop :=
  ∃ status phase,
    (⟨.deviceStatus, .nothing⟩, .reply ⟨.success, .radio status phase⟩) ∈ calls acts ∧
      (status = .dataConnected ∨ status = .ready) ∧ phase ≠ some .ranging

namespace Attach

variable {a : Attach} {d : Driver} {preferred : String} {acts : List Act} {s : Step Attach}

theorem verdict_loseCard {r : Response} (h : (a.loseCard d r).Runs acts s) :
    s.verdict = .failed := by
  obtain ⟨message, -, hs⟩ := runs_loseCard h
  rw [hs]
  rfl

theorem verdict_afterStatus (hplace : a.cursor.position = some 1) :
    (a.afterStatus d).verdict = .failed ∨
      (a.afterStatus d).verdict = .underway ∧ (a.afterStatus d).phase.cursor.place = 1 ∨
      (a.afterStatus d).verdict = .underway ∧ (a.afterStatus d).phase.cursor.place = 2 ∧
        (d.record.status = some .dataConnected ∨ d.record.status = some .ready) ∧
        d.record.phase ≠ some .ranging := by
  have hstay : (a.stay d).phase.cursor.place = 1 := by simp [stay, Cursor.place, hplace, script]
  have hforward : (a.forward d).phase.cursor.place = 2 := by
    simp [forward, Cursor.forward, Cursor.nextPlace, hplace, script, Cursor.place]
  unfold afterStatus
  split
  · next hs =>
    split
    · exact .inr (.inl ⟨rfl, hstay⟩)
    · next hp => exact .inr (.inr ⟨rfl, hforward, .inl hs, hp⟩)
  · next hs =>
    split
    · exact .inr (.inl ⟨rfl, hstay⟩)
    · next hp => exact .inr (.inr ⟨rfl, hforward, .inr hs, hp⟩)
  · exact .inl rfl
  · split
    · exact .inl rfl
    · exact .inr (.inl ⟨rfl, hstay⟩)
  · exact .inr (.inl ⟨rfl, hstay⟩)

/-- The probe of the radio reaches the card, and what it finds is what the card has answered. -/
theorem findsSettled_of_attempt {d₁ : Driver} (hopen : d.record.apiOpen = true)
    (h : (d.attempt .deviceStatus .nothing).Runs acts (d₁, .success))
    (hs : d₁.record.status = some .dataConnected ∨ d₁.record.status = some .ready)
    (hp : d₁.record.phase ≠ some .ranging) : FindsSettled acts := by
  obtain ⟨o, rfl, rfl, ho⟩ := Driver.runs_attempt_of_alwaysAsks rfl (fun _ => hopen) h
  obtain ⟨reply, rfl⟩ := Outcome.exists_reply (o := o) (by simp [← ho])
  obtain ⟨status, hstatus, hsettled⟩ :
      ∃ status, reply.successPayload.status? = some status ∧
        (status = .dataConnected ∨ status = .ready) := by
    rcases hs with hs | hs
    · exact ⟨_, hs, .inl rfl⟩
    · exact ⟨_, hs, .inr rfl⟩
  refine ⟨status, reply.successPayload.phase?, ?_, hsettled, hp⟩
  rw [← Reply.eq_of_status? hstatus]
  exact List.mem_singleton.mpr rfl

/-- The link is up, or its figures show that it is coming up. -/
def ShowsLink (reply : Reply) : Prop :=
  reply.response = .success ∨
    reply.response = .linkNotConnected ∧ reply.payload.link?.isSome = true

/-- How a step may go on. Only an accepted request and a settled radio let it move on, and an
attachment ends with an answer to the probe of the link, which is what the record holds. -/
def Goes (a : Attach) (acts : List Act) (s : Step Attach) : Prop :=
  match s.verdict with
  | .underway =>
    s.phase.cursor.place = a.cursor.place ∨
      (a.cursor.place = 0 ∧ s.phase.cursor.place = 1 ∧ Accepts acts) ∨
      (a.cursor.place = 1 ∧ s.phase.cursor.place = 2 ∧ FindsSettled acts)
  | .finished =>
    2 ≤ a.cursor.place ∧ ∃ reply o,
      acts = [.call ⟨.linkStatus, .nothing⟩ (.reply reply), .call ⟨.ipInterface, .nothing⟩ o] ∧
        ShowsLink reply ∧ s.driver.record.link = reply.payload.link?
  | .scanning | .failed => True

theorem goes_of_failed (hv : s.verdict = .failed) : a.Goes acts s := by simp [Goes, hv]

theorem goes_request (hplace : a.cursor.place = 0) (h : (a.step d preferred).Runs acts s) :
    a.Goes acts s := by
  rcases runs_step_first hplace h with ⟨-, hscan⟩ | ⟨args, o, rest, rfl, hend⟩
  · simp [Goes, hscan]
  rcases hend with ⟨ho, rfl, hv, hnext⟩ | ⟨-, hfail, -⟩ | ⟨-, -, hv, hstay⟩
  · have hanswer : o.response ≠ .failed := by
      rcases ho with ho | ho <;> simp [ho]
    obtain ⟨reply, rfl⟩ := Outcome.exists_reply hanswer
    simp only [Goes, hv]
    exact .inr (.inl ⟨hplace, hnext, args, reply, List.mem_singleton.mpr rfl, ho⟩)
  · exact goes_of_failed hfail
  · simp only [Goes, hv]
    exact .inl (hstay.trans hplace.symm)

theorem goes_checkRadio (hplace : a.cursor.place = 1) (hopen : d.record.apiOpen = true)
    (h : (checkRadio ⟨a.cursor.placed⟩ d).Runs acts s) : a.Goes acts s := by
  obtain ⟨d₁, r, first, rest, rfl, h₁, h₂⟩ := runs_checkRadio h
  rcases h₂ with ⟨-, hlose⟩ | ⟨rfl, rfl, rfl⟩ | ⟨-, -, rfl⟩
  · exact goes_of_failed (verdict_loseCard hlose)
  · rw [List.append_nil]
    rcases verdict_afterStatus (d := d₁) (a := ⟨a.cursor.placed⟩) (by simp [hplace]) with
      hfail | ⟨hv, hstay⟩ | ⟨hv, hforward, hs, hp⟩
    · exact goes_of_failed hfail
    · simp only [Goes, hv]
      exact .inl (hstay.trans hplace.symm)
    · simp only [Goes, hv]
      exact .inr (.inr ⟨hplace, hforward, findsSettled_of_attempt hopen h₁ hs hp⟩)
  · exact .inl (Cursor.place_placed _)

theorem goes_checkLink (hplace : 2 ≤ a.cursor.place)
    (h : (checkLink ⟨a.cursor.placed⟩ d).Runs acts s) : a.Goes acts s := by
  obtain ⟨d₁, r, first, rest, rfl, h₁, h₂⟩ := runs_checkLink h
  rcases h₂ with ⟨hr, hfinish⟩ | ⟨-, -, rfl⟩ | ⟨-, hlose⟩ | ⟨-, -, rfl⟩
  · obtain ⟨o, rfl, rfl, rfl⟩ := Driver.runs_attempt_of_alwaysAsks rfl (absurd · (by decide)) h₁
    obtain ⟨⟨r', h₃⟩, hs⟩ := runs_finish hfinish
    obtain ⟨o', rfl, hd, -⟩ := Driver.runs_attempt_of_alwaysAsks rfl (absurd · (by decide)) h₃
    have hanswer : o.response ≠ .failed := by
      rcases hr with hr | ⟨hr, -⟩ <;> simp [hr]
    obtain ⟨reply, rfl⟩ := Outcome.exists_reply hanswer
    have hkeeps : s.driver.record.link = reply.payload.link? := by
      rw [hd]
      cases o' <;> rfl
    have hv : s.verdict = .finished := by
      rw [hs]
      rfl
    simp only [Goes, hv]
    exact ⟨hplace, reply, o', rfl, hr, hkeeps⟩
  · trivial
  · exact goes_of_failed (verdict_loseCard hlose)
  · exact .inl (Cursor.place_placed _)

theorem goes_step (hopen : d.record.apiOpen = true) (h : (a.step d preferred).Runs acts s) :
    a.Goes acts s := by
  rcases runs_step h with ⟨hplace, -⟩ | ⟨hplace, hradio⟩ | ⟨hplace, hlink⟩
  · exact goes_request hplace h
  · exact goes_checkRadio hplace hopen hradio
  · exact goes_checkLink hplace hlink

/-- What the card has answered since the visit began, by the place of the script. -/
def Evidence (visit : List (Operation × List Act)) : Nat → Prop
  | 0 => True
  | 1 => ∃ a₁, [(.tick, a₁)].Sublist visit ∧ Accepts a₁
  | 2 => ∃ a₁ a₂, [(.tick, a₁), (.tick, a₂)].Sublist visit ∧ Accepts a₁ ∧ FindsSettled a₂
  | _ => False

section Evidence

variable {visit : List (Operation × List Act)} {i : Nat}

theorem Evidence.le_two (h : Evidence visit i) : i ≤ 2 := by
  obtain _ | _ | _ | i := i
  · omega
  · omega
  · omega
  · exact h.elim

theorem Evidence.append (h : Evidence visit i) (more : List (Operation × List Act)) :
    Evidence (visit ++ more) i := by
  obtain _ | _ | _ | i := i
  · trivial
  · obtain ⟨a₁, hsub, ha₁⟩ := h
    exact ⟨a₁, hsub.trans (List.sublist_append_left visit more), ha₁⟩
  · obtain ⟨a₁, a₂, hsub, ha⟩ := h
    exact ⟨a₁, a₂, hsub.trans (List.sublist_append_left visit more), ha⟩
  · exact h

theorem evidence_accepts (h : Accepts acts) : Evidence (visit ++ [(.tick, acts)]) 1 :=
  ⟨acts, List.sublist_append_right visit _, h⟩

theorem Evidence.settles (h : Evidence visit 1) (ha : FindsSettled acts) :
    Evidence (visit ++ [(.tick, acts)]) 2 := by
  obtain ⟨a₁, hsub, ha₁⟩ := h
  exact ⟨a₁, acts, hsub.append (List.Sublist.refl [(Operation.tick, acts)]), ha₁, ha⟩

end Evidence

end Attach

theorem accepts_congr {acts more : List Act} (h : calls acts = calls more) :
    Accepts acts ↔ Accepts more := by simp only [Accepts, h]

theorem findsSettled_congr {acts more : List Act} (h : calls acts = calls more) :
    FindsSettled acts ↔ FindsSettled more := by simp only [FindsSettled, h]

namespace Machine

variable {m n p : Machine} {op : Operation} {acts : List Act} {settings : Settings}
  {steps visit : List (Operation × List Act)} {cs : List (Request × Outcome)} {a : Attach}

theorem Turn.attach_inv (h : m.Turn cs n) (hm : m.phase = .connecting a) :
    (n.stage = .initializing ∨ n.stage = .disconnecting) ∨
      m.goal = .connected ∧ ∃ s acts, (a.step m.driver m.preferred).Runs acts s ∧
        cs = calls acts ∧ n = m.afterAttach s := by
  cases h with
  | idle hturn hc => simp [hm, Phase.command?_eq_none_iff] at hc
  | leave hs =>
    rcases turn?_mem hs with ⟨hphase, -⟩ | ⟨hphase, -⟩ | rfl | rfl
    · simp [hm] at hphase
    · simp [hm] at hphase
    · exact .inl (.inl (stage_entered _ _))
    · exact .inl (.inr (stage_entered _ _))
  | bringup hb => simp [hm] at hb
  | @attach a' s acts ha hg step =>
    obtain rfl : a = a' := by simpa [hm] using ha
    exact .inr ⟨hg, s, acts, step, rfl, rfl⟩
  | monitor hw => simp [hm] at hw
  | teardown ht => simp [hm] at ht

/-- The machine is connecting, with the evidence of its place. -/
def Attaching (visit : List (Operation × List Act)) (m : Machine) : Prop :=
  ∃ a, m.phase = .connecting a ∧ Attach.Evidence visit a.cursor.place

theorem attaching_of_entered (hp : p.phase = .fresh p.stage) (hs : p.stage = .connecting) :
    p.Attaching [] := by
  rw [hs] at hp
  exact ⟨{}, hp, trivial⟩

theorem Attaching.carryOut (hm : m.Attaching visit) (hsound : m.Sound)
    (last : (m.carryOut op).Runs acts n) (hs : n.stage = m.stage) :
    n.Attaching (visit ++ [(op, acts)]) := by
  obtain ⟨a, hphase, hevidence⟩ := hm
  by_cases hop : op = .tick
  · subst hop
    have hstage : m.stage = .connecting := by rw [stage, hphase]; rfl
    rw [hstage] at hs
    have hopen := (hsound.isOpen (.inr (.inl hstage))).1
    rcases (turn_tick last).1.attach_inv (by rwa [phase_greeted]) with
      (hleft | hleft) | ⟨-, s, first, step, hcalls, rfl⟩
    · simp [hs] at hleft
    · simp [hs] at hleft
    rw [driver_greeted, preferred_greeted] at step
    have hv : s.verdict = .underway := by
      rw [stage_afterAttach] at hs
      cases hv : s.verdict <;> simp [hv] at hs
      rfl
    refine ⟨s.phase, by simp [afterAttach, hv], ?_⟩
    have hgoes := Attach.goes_step hopen step
    simp only [Attach.Goes, hv] at hgoes
    rcases hgoes with hplace | ⟨-, hplace, ha⟩ | ⟨hone, hplace, ha⟩
    · rw [hplace]
      exact hevidence.append _
    · rw [hplace]
      exact Attach.evidence_accepts ((accepts_congr hcalls).mpr ha)
    · rw [hplace]
      rw [hone] at hevidence
      exact hevidence.settles ((findsSettled_congr hcalls).mpr ha)
  · exact ⟨a, (phase_of_ne_tick last hop hs).trans hphase, hevidence.append _⟩

theorem Attaching.stays (hp : p.Attaching []) (hsound : p.Sound) (h : p.Stays visit m) :
    m.Attaching visit ∧ m.Sound := by
  induction h with
  | nil => exact ⟨hp, hsound⟩
  | snoc _ last hs ih => exact ⟨ih.1.carryOut ih.2 last hs, ih.2.carryOut last⟩

theorem attach_of_connected (last : (m.carryOut op).Runs acts n) (hm : m.stage ≠ .connected)
    (hn : n.stage = .connected) : op = .tick ∧ m.stage = .connecting ∧ m.goal = .connected := by
  obtain rfl := eq_tick_of_entered last (by rwa [hn]) (by simp [hn])
  simpa using ((turn_tick last).1.arrives (by simpa [hn])).2 hn

/-- The tick that ends an attachment reports the connection with the base station of the record. -/
theorem acts_of_connected (hphase : m.phase = .connecting a) (hgoal : m.goal = .connected)
    (hshown : m.shown = .connecting) (last : m.tick.Runs acts n) (hn : n.stage = .connected) :
    ∃ s first, (a.step m.driver m.preferred).Runs first s ∧ s.verdict = .finished ∧
      acts = first ++ [.publish (.state .connected .connecting
        (s.driver.record.link.map (·.bsid.text)))] := by
  have htick : m.tick = m.tickAttach a := by simp [tick, tickPhase, hshown, hphase, hgoal]
  rw [htick] at last
  obtain ⟨s, first, rest, rfl, step, hrest⟩ := Dialog.runs_bind_iff.mp last
  refine ⟨s, first, step, ?_⟩
  cases hv : s.verdict with
  | underway =>
    simp only [hv, Dialog.pure_eq, Dialog.runs_done_iff] at hrest
    obtain ⟨-, rfl⟩ := hrest
    simp [stage, Phase.stage] at hn
  | scanning =>
    simp only [hv] at hrest
    obtain ⟨rfl, -, -⟩ := runs_moveTo (by simp [stage, Phase.stage]) hrest
    simp at hn
  | finished =>
    refine ⟨rfl, ?_⟩
    simp only [hv, moveTo, announce, stage, Phase.stage, hshown, Stage.report] at hrest
    obtain ⟨later, rfl, hdone⟩ := Dialog.runs_publish_iff.mp hrest
    obtain ⟨rfl, -⟩ := Dialog.runs_done_iff.mp hdone
    rfl
  | failed =>
    cases hmsg : s.message <;> simp only [hv, hmsg] at hrest
    · obtain ⟨rfl, -, -⟩ := runs_moveTo (by simp [stage, Phase.stage]) hrest
      simp at hn
    · obtain ⟨rfl, -, -⟩ := runs_moveTo (by simp [giveUp, stage, Phase.stage]) hrest
      simp at hn

theorem connected_of_publish {previous : Report} {bsid : Option String}
    (run : Run (start settings) steps m) (last : (m.carryOut op).Runs acts n)
    (h : .publish (.state .connected previous bsid) ∈ acts) :
    m.stage ≠ .connected ∧ n.stage = .connected := by
  have hmem : (⟨previous, .connected⟩ : Change) ∈ changes acts :=
    List.mem_filterMap.mpr ⟨_, h, rfl⟩
  obtain ⟨later, hchanges, hacc⟩ := (accounts_carryOut (tells_run run).1 last).2.2
  have hlater : (⟨previous, .connected⟩ : Change) ∈ later := by
    rw [hchanges, List.mem_append, greeting] at hmem
    refine hmem.resolve_left fun hgreeting => ?_
    split at hgreeting <;> simp at hgreeting
  have hstate : Report.connected ∈ later.map (·.state) := List.mem_map_of_mem hlater
  by_cases hs : n.stage = m.stage
  · rcases hacc.stayed hs with rfl | ⟨-, -, hscan⟩
    · simp at hlater
    · simp [hscan] at hstate
  · rw [hacc.moved hs, List.mem_singleton] at hstate
    have hn : n.stage = .connected := Stage.report_injective hstate.symm
    exact ⟨fun hm => hs (hn.trans hm.symm), hn⟩

/-- A connection is reported exactly when it is entered, which is in a tick that finds the machine
connecting under the goal to be connected. In the same visit a connect request was accepted in one
tick, then the radio was found settled in another one, and now the link is up. The report carries
the base station of that last answer. -/
theorem connected_in_earnest (run : Run (start settings) steps m)
    (last : (m.carryOut op).Runs acts n) :
    (∀ previous bsid, .publish (.state .connected previous bsid) ∈ acts →
        m.stage ≠ .connected ∧ n.stage = .connected) ∧
      (m.stage ≠ .connected → n.stage = .connected →
        op = .tick ∧ m.stage = .connecting ∧ m.goal = .connected ∧
          ∃ prior visit p a₁ a₂ reply o, steps = prior ++ visit ∧ Enters settings prior p ∧
            p.Stays visit m ∧ [(.tick, a₁), (.tick, a₂)].Sublist visit ∧ Accepts a₁ ∧
            FindsSettled a₂ ∧ Attach.ShowsLink reply ∧
            acts = [.call ⟨.linkStatus, .nothing⟩ (.reply reply),
              .call ⟨.ipInterface, .nothing⟩ o,
              .publish (.state .connected .connecting
                (reply.payload.link?.map (·.bsid.text)))]) := by
  refine ⟨fun _ _ h => connected_of_publish run last h, fun hm hn => ?_⟩
  obtain ⟨rfl, hstage, hgoal⟩ := attach_of_connected last hm hn
  obtain ⟨prior, visit, p, rfl, hp, hstays⟩ := exists_visit run (by simp [hstage])
  have hentered : p.Attaching [] :=
    attaching_of_entered hp.phase (hstays.stage_eq.symm.trans hstage)
  obtain ⟨⟨a, hphase, hevidence⟩, -⟩ := hentered.stays (sound_run hp.run) hstays
  have hshown : m.shown = .connecting := by
    rcases (tells_run run).1 with (hshown | ⟨hinit, -⟩) | ⟨hready, -⟩
    · rw [hshown, hstage]
      rfl
    · simp [hstage] at hinit
    · simp [hstage] at hready
  obtain ⟨s, first, step, hv, rfl⟩ := acts_of_connected hphase hgoal hshown last hn
  have hgoes := Attach.goes_step ((sound_run run).isOpen (.inr (.inl hstage))).1 step
  simp only [Attach.Goes, hv] at hgoes
  obtain ⟨hplace, reply, o, rfl, hlink, hrecord⟩ := hgoes
  have htwo : a.cursor.place = 2 := by
    have := hevidence.le_two
    omega
  rw [htwo] at hevidence
  obtain ⟨a₁, a₂, hsub, ha₁, ha₂⟩ := hevidence
  refine ⟨rfl, hstage, hgoal, prior, visit, p, a₁, a₂, reply, o, rfl, hp, hstays, hsub, ha₁, ha₂,
    hlink, ?_⟩
  rw [hrecord]
  rfl

/-- A card whose link is coming up: it reports the link down, but with figures. -/
def comingUpCard (r : Request) : Outcome :=
  match r.command with
  | .linkStatus =>
    .reply ⟨.linkNotConnected, .link ⟨2600, 80, 30, 0, ⟨#v[0, 26, 43, 60, 77, 94]⟩⟩⟩
  | _ => obligingCard r

/-- A session that is about to probe its link. -/
def aboutToProbe : Machine := ((start {}).rehearse (ascent 20)).2

theorem connected_in_earnest_comingUp :
    ∃ acts n a₁ a₂, (aboutToProbe.carryOut .tick).Runs acts n ∧ n.stage = .connected ∧
      .publish (.state .connected .connecting (some "00:1A:2B:3C:4D:5E")) ∈ acts ∧
      [(.tick, a₁), (.tick, a₂)].Sublist ((start {}).rehearse (ascent 20)).1 ∧
      Accepts a₁ ∧ FindsSettled a₂ := by
  have hruns := Dialog.runs_recorder (aboutToProbe.carryOut .tick) comingUpCard
  have hbefore : aboutToProbe.stage ≠ .connected := by decide +kernel
  have hafter : ((aboutToProbe.carryOut .tick).run (recorder comingUpCard) []).1.stage =
      .connected := by decide +kernel
  obtain ⟨-, hentry⟩ := connected_in_earnest (run_rehearse (start {}) (ascent 20)) hruns
  obtain ⟨-, -, -, prior, visit, p, a₁, a₂, reply, o, hsteps, -, -, hsub, ha₁, ha₂, -⟩ :=
    hentry hbefore hafter
  refine ⟨_, _, a₁, a₂, hruns, hafter, by decide +kernel, ?_, ha₁, ha₂⟩
  rw [hsteps]
  exact hsub.trans (List.sublist_append_right prior visit)

end Machine

end Wimax
