import Wimax.Proofs.News
import Wimax.Proofs.Notices
import Wimax.Proofs.OpenDriver
import Wimax.Proofs.ReportHistory
import Wimax.Proofs.Visits

/-!
The watch over a connection. All through a visit its ticks send one probe each, in rounds of radio
probes that end with a link probe. Which probe comes next, how long the pause before it is and
whether the visit goes on can be read off the probes so far.
-/

namespace Wimax

/-- The radio status that an answer with success has brought. -/
def Outcome.status? : Outcome → Option RadioStatus
  | reply answer => answer.successPayload.status?
  | fault _ | timedOut => none

/-- A round of the monitor whose radio probe was repeated so many times. -/
def monitorRound (repeats : Nat) : List Command :=
  List.replicate (repeats + 1) .deviceStatus ++ [.linkStatus]

/-- Whole rounds, and the radio probes of another one. -/
def InRounds (probes : List Command) : Prop :=
  ∃ (rounds : List Nat) (more : Nat),
    probes = rounds.flatMap monitorRound ++ List.replicate more .deviceStatus

section Rounds

variable {probes : List Command}

theorem inRounds_nil : InRounds [] := ⟨[], 0, rfl⟩

theorem InRounds.snoc_deviceStatus (h : InRounds probes) :
    InRounds (probes ++ [.deviceStatus]) := by
  obtain ⟨rounds, more, rfl⟩ := h
  exact ⟨rounds, more + 1, by rw [List.replicate_succ', List.append_assoc]⟩

theorem InRounds.snoc_linkStatus (h : InRounds probes)
    (hlast : probes.getLast? = some .deviceStatus) : InRounds (probes ++ [.linkStatus]) := by
  obtain ⟨rounds, more, rfl⟩ := h
  cases more with
  | zero =>
    rcases rounds.eq_nil_or_concat with rfl | ⟨rounds, repeats, rfl⟩
    · simp at hlast
    · simp [monitorRound] at hlast
  | succ repeats =>
    exact ⟨rounds ++ [repeats], 0, by simp [monitorRound]⟩

end Rounds

/-- The probe that comes next: the link is probed once the radio has been found connected. -/
def nextProbe (cs : List (Request × Outcome)) : Command :=
  match cs.getLast? with
  | some (r, o) =>
    if r.command = .deviceStatus ∧ o.status? = some .dataConnected then .linkStatus
    else .deviceStatus
  | none => .deviceStatus

section NextProbe

variable {cs : List (Request × Outcome)}

theorem nextProbe_snoc (r : Request) (o : Outcome) :
    nextProbe (cs ++ [(r, o)]) =
      if r.command = .deviceStatus ∧ o.status? = some .dataConnected then .linkStatus
      else .deviceStatus := by
  simp [nextProbe]

theorem nextProbe_cases (cs : List (Request × Outcome)) :
    nextProbe cs = .deviceStatus ∨
      nextProbe cs = .linkStatus ∧ (cs.map (·.1.command)).getLast? = some .deviceStatus := by
  unfold nextProbe
  rw [List.getLast?_map]
  split
  · next hlast =>
    rw [hlast]
    split_ifs with h
    · exact .inr ⟨rfl, by simp [h.1]⟩
    · exact .inl rfl
  · exact .inl rfl

theorem InRounds.snoc_nextProbe (h : InRounds (cs.map (·.1.command))) :
    InRounds (cs.map (·.1.command) ++ [nextProbe cs]) := by
  rcases nextProbe_cases cs with hnext | ⟨hnext, hlast⟩
  · rw [hnext]
    exact h.snoc_deviceStatus
  · rw [hnext]
    exact h.snoc_linkStatus hlast

end NextProbe

namespace Monitor

variable {w : Monitor} {d : Driver} {acts : List Act} {s : Step Monitor} {sample : Option Int}
  {c : Command} {o : Outcome} {cs : List (Request × Outcome)}

/-- How a probe is judged by the end of its call. -/
def judge (c : Command) (o : Outcome) : Verdict :=
  if c = .deviceStatus then
    match o.status? with
    | some .dataConnected => .underway
    | some status => if status.isUnsettled then .scanning else .failed
    | none => .failed
  else .finished

theorem judge_eq_underway_iff :
    judge c o = .underway ↔ c = .deviceStatus ∧ o.status? = some .dataConnected := by
  unfold judge
  split_ifs with hc
  · cases o.status? with
    | none => simp
    | some status => cases status <;> simp [hc, RadioStatus.isUnsettled]
  · simp [hc]

theorem judge_eq_scanning_iff :
    judge c o = .scanning ↔
      c = .deviceStatus ∧ (o.status? = some .scanning ∨ o.status? = some .connecting) := by
  unfold judge
  split_ifs with hc
  · cases o.status? with
    | none => simp
    | some status => cases status <;> simp [hc, RadioStatus.isUnsettled]
  · simp [hc]

theorem judge_eq_failed_iff :
    judge c o = .failed ↔ c = .deviceStatus ∧
      ∀ status ∈ [RadioStatus.dataConnected, .scanning, .connecting], o.status? ≠ some status := by
  unfold judge
  split_ifs with hc
  · cases o.status? with
    | none => simp [hc]
    | some status => cases status <;> simp [hc, RadioStatus.isUnsettled]
  · simp [hc]

theorem status_afterCall (d : Driver) (h : o.response = .success) :
    (d.afterCall .deviceStatus o).record.status = o.status? := by
  obtain ⟨reply, rfl⟩ := Outcome.exists_reply (o := o) (by simp [h])
  rfl

theorem status?_of_ne_success (h : o.response ≠ .success) : o.status? = none := by
  cases o with
  | reply reply => simp [Outcome.status?, Reply.successPayload_of_ne h, Payload.status?]
  | _ => rfl

theorem afterStatus_afterCall (w : Monitor) (d : Driver) (o : Outcome) :
    w.afterStatus (d.afterCall .deviceStatus o) o.response =
      ⟨⟨if judge .deviceStatus o = .underway then w.cursor.forward.2 else w.cursor, false⟩,
        d.afterCall .deviceStatus o, judge .deviceStatus o,
        if judge .deviceStatus o = .scanning then some .scanning else none⟩ := by
  unfold afterStatus judge
  by_cases h : o.response = .success
  · rw [status_afterCall d h, if_pos h, if_pos rfl]
    cases o.status? with
    | none => rfl
    | some status => cases status <;> rfl
  · rw [status?_of_ne_success h, if_neg h]
    rfl

theorem runs_probe (hapi : d.record.apiOpen = true) (h : (w.step d).Runs acts (s, sample)) :
    ∃ c o, script[w.cursor.place]? = some c ∧ calls acts = [(⟨c, .nothing⟩, o)] ∧
      s.verdict = judge c o ∧
      s.message = (if judge c o = .scanning then some .scanning else none) ∧
      (s.phase.roundComplete = true ↔ c = .linkStatus) ∧
      s.phase.cursor.place = if judge c o = .underway then 1 else 0 := by
  obtain ⟨c, d₁, r, hc, h₁, hend⟩ := runs_step h
  have hlt := w.place_lt
  obtain hplace | hplace : w.cursor.place = 0 ∨ w.cursor.place = 1 := by omega
  · obtain rfl : Command.deviceStatus = c := by
      rw [hplace] at hc
      exact Option.some.inj hc
    obtain ⟨o, rfl, rfl, rfl⟩ := Driver.runs_attempt_of_alwaysAsks rfl (fun _ => hapi) h₁
    obtain ⟨-, -, rfl⟩ := hend.resolve_right (by simp)
    refine ⟨.deviceStatus, o, hc, rfl, ?_⟩
    rw [afterStatus_afterCall]
    refine ⟨rfl, rfl, by simp, ?_⟩
    dsimp only
    split_ifs
    · rw [Cursor.forward_placed, hplace]
      rfl
    · rw [Cursor.place_placed, hplace]
  · obtain rfl : Command.linkStatus = c := by
      rw [hplace] at hc
      exact Option.some.inj hc
    obtain ⟨o, rfl, rfl, rfl⟩ := Driver.runs_attempt_of_alwaysAsks rfl (fun _ => hapi) h₁
    obtain ⟨-, -, rfl⟩ := hend.resolve_left (by simp)
    refine ⟨.linkStatus, o, hc, rfl, rfl, rfl, by simp [endRound], ?_⟩
    simp only [endRound, Cursor.forward_placed, hplace]
    rfl

/-- The monitor stands where the calls of its visit have brought it. -/
structure Follows (w : Monitor) (cs : List (Request × Outcome)) : Prop where
  next : script[w.cursor.place]? = some (nextProbe cs)
  round : w.roundComplete = true ↔ (cs.map (·.1.command)).getLast? = some .linkStatus
  rounds : InRounds (cs.map (·.1.command))

theorem follows_nil : ({} : Monitor).Follows [] where
  next := rfl
  round := by simp
  rounds := inRounds_nil

theorem Follows.step (h : w.Follows cs) (hapi : d.record.apiOpen = true)
    (hstep : (w.step d).Runs acts (s, sample)) :
    ∃ o, calls acts = [(⟨nextProbe cs, .nothing⟩, o)] ∧ s.verdict = judge (nextProbe cs) o ∧
      s.message = (if judge (nextProbe cs) o = .scanning then some .scanning else none) ∧
      s.phase.Follows (cs ++ calls acts) := by
  obtain ⟨c, o, hc, hcalls, hv, hmessage, hround, hplace⟩ := runs_probe hapi hstep
  obtain rfl : c = nextProbe cs := Option.some.inj (hc.symm.trans h.next)
  refine ⟨o, hcalls, hv, hmessage, ?_, ?_, ?_⟩
  · rw [hplace, hcalls, nextProbe_snoc, if_congr judge_eq_underway_iff.symm rfl rfl]
    split_ifs <;> rfl
  · rw [hround, hcalls]
    simp
  · rw [hcalls, List.map_append]
    exact h.rounds.snoc_nextProbe

end Monitor

namespace Machine

variable {m n p : Machine} {w : Monitor} {op : Operation} {acts : List Act} {settings : Settings}
  {prior visit steps : List (Operation × List Act)} {cs : List (Request × Outcome)}

/-- The calls that the ticks among the steps have made. -/
def tickCalls (steps : List (Operation × List Act)) : List (Request × Outcome) :=
  calls (actsOf (steps.filter (·.1 = .tick)))

theorem tickCalls_snoc_tick :
    tickCalls (steps ++ [(.tick, acts)]) = tickCalls steps ++ calls acts := by
  simp [tickCalls]

theorem tickCalls_snoc_of_ne (hop : op ≠ .tick) :
    tickCalls (steps ++ [(op, acts)]) = tickCalls steps := by
  simp [tickCalls, hop]

/-- The commands that the ticks among the steps have sent. -/
def probesOf (steps : List (Operation × List Act)) : List Command :=
  (tickCalls steps).map (·.1.command)

theorem roundComplete_of_connected (h : m.phase = .connected w) :
    m.roundComplete = w.roundComplete := by
  simp only [roundComplete, h]

theorem roundComplete_of_stage (h : m.stage ≠ .connected) : m.roundComplete = false := by
  unfold roundComplete
  split
  · next w hw => exact absurd (by rw [stage, hw]; rfl) h
  · rfl

theorem Turn.monitor_inv (h : m.Turn cs n) (hm : m.phase = .connected w) :
    (m.goal ≠ .connected ∧ n.stage ≠ .connected) ∨
      (m.goal = .connected ∧ ∃ s sample acts, (w.step m.driver).Runs acts (s, sample) ∧
        cs = calls acts ∧ n = m.afterMonitor s sample) := by
  cases h with
  | idle _ hc => simp [hm, Phase.command?_eq_none_iff] at hc
  | @leave s hs =>
    have hne := turn?_ne hs
    rw [stage, hm] at hne
    refine .inl ⟨fun hg => ?_, by rw [stage_entered]; exact hne.symm⟩
    simp [(turn?_monitor hm).mpr hg] at hs
  | bringup hb => simp [hm] at hb
  | attach ha => simp [hm] at ha
  | teardown ht => simp [hm] at ht
  | @monitor w' s sample acts hw hg step =>
    obtain rfl : w = w' := Phase.connected.inj (hm.symm.trans hw)
    exact .inr ⟨hg, s, sample, acts, step, rfl, rfl⟩

/-- A tick sends the next probe. It leaves the visit if that has failed, and else the monitor
watches on. -/
theorem tick_of_follows (hm : m.Sound) (hphase : m.phase = .connected w) (h : w.Follows cs)
    (hg : m.goal = .connected) (last : m.tick.Runs acts n) :
    ∃ o, calls acts = [(⟨nextProbe cs, .nothing⟩, o)] ∧
      (if Monitor.judge (nextProbe cs) o = .failed then n.stage = .connecting
        else ∃ w', n.phase = .connected w' ∧ w'.Follows (cs ++ calls acts)) ∧
      (Monitor.judge (nextProbe cs) o = .scanning → n.latestMessage = some .scanning ∧
        n.shown = m.greeted.shown ∧ n.shownRssi = m.greeted.shownRssi) := by
  obtain ⟨hno, -⟩ | ⟨-, s, sample, first, step, hcalls, rfl⟩ :=
    (turn_tick last).1.monitor_inv (by rw [phase_greeted, hphase])
  · exact absurd (by simpa using hg) hno
  rw [driver_greeted] at step
  have hapi := (hm.isOpen (.inr (.inr (by rw [stage, hphase]; rfl)))).1
  obtain ⟨o, hprobe, hv, hmessage, hfollows⟩ := h.step hapi step
  rw [hcalls]
  refine ⟨o, hprobe, ?_, fun hbusy => ?_⟩
  · rw [← hv]
    split_ifs with hfailed
    · rw [stage_afterMonitor, if_pos hfailed]
    · refine ⟨s.phase, ?_, hfollows⟩
      unfold afterMonitor
      cases hv : s.verdict with
      | failed => exact absurd hv hfailed
      | _ => rfl
  · rw [if_pos hbusy] at hmessage
    rw [hbusy] at hv
    simp [afterMonitor, hv, hmessage]

theorem published_map_publish (es : List Event) : published (es.map .publish) = es := by
  induction es with
  | nil => rfl
  | cons e es ih => rw [List.map_cons, published_publish, ih]

theorem published_tick (h : m.tick.Runs acts n) :
    published acts = m.news m.greeted ++ m.greeted.news n := by
  obtain ⟨first, hfirst, rfl⟩ := runs_tick h
  simp only [published_append, published_map_publish,
    m.greeted.callsOnly_advance.published hfirst, List.nil_append]

theorem published_tick_eq_nil (h : m.tick.Runs acts n) (hm : m.shown ≠ .unknown)
    (hshown : n.shown = m.shown) (hrssi : n.shownRssi = m.shownRssi) : published acts = [] := by
  rw [published_tick h, greeted_of_ne hm]
  simp [news, hshown, hrssi]

/-- All through a visit the monitor follows the calls of its ticks. -/
theorem follows_stays (hp : p.phase = .connected {}) (hsound : p.Sound)
    (h : p.Stays visit m) :
    m.Sound ∧ ∃ w, m.phase = .connected w ∧ w.Follows (tickCalls visit) ∧
      ∀ acts, (.tick, acts) ∈ visit → ∃ c o, calls acts = [(⟨c, .nothing⟩, o)] := by
  induction h with
  | nil => exact ⟨hsound, {}, hp, Monitor.follows_nil, by simp⟩
  | @snoc visit n n' op acts prior last hs ih =>
    obtain ⟨hn, w, hphase, hw, hone⟩ := ih
    refine ⟨hn.carryOut last, ?_⟩
    by_cases hop : op = .tick
    · subst hop
      have hstage : n.stage = .connected := by rw [stage, hphase]; rfl
      have hg : n.goal = .connected := by
        rcases (turn_tick last).1.monitor_inv (by rw [phase_greeted, hphase]) with
          ⟨-, hleft⟩ | ⟨hg, -⟩
        · exact absurd (hs.trans hstage) hleft
        · simpa using hg
      obtain ⟨o, hcalls, hend, -⟩ := tick_of_follows hn hphase hw hg last
      rw [tickCalls_snoc_tick]
      split_ifs at hend
      · simp [hs, hstage] at hend
      · obtain ⟨w', hphase', hw'⟩ := hend
        refine ⟨w', hphase', hw', fun acts' hacts' => ?_⟩
        rcases List.mem_append.mp hacts' with hold | hnew
        · exact hone acts' hold
        · obtain rfl : acts' = acts := by simpa using hnew
          exact ⟨_, o, hcalls⟩
    · rw [tickCalls_snoc_of_ne hop, phase_of_ne_tick last hop hs]
      exact ⟨w, hphase, hw, fun acts' hacts' => hone acts' (by simpa [Ne.symm hop] using hacts')⟩

/-- The watch over a connection cycles. All through a visit every tick sends one probe, and the
probes come in rounds of radio probes that end with a link probe. A tick that the goal lets go on
sends the next probe of the round; it leaves the visit just if that is a radio probe that was not
answered with success and a status of a radio that is connected or busy. A busy radio is probed
again and only told to callers. The pause is that between rounds if the last tick of the visit has
probed the link, and in all other cases, in and outside the visit, that between ticks. -/
theorem monitor_rounds (run : Run (start settings) steps m) :
    (m.stage ≠ .connected → m.pause = settings.tickPause) ∧
      (m.stage = .connected →
        ∃ prior visit p, steps = prior ++ visit ∧ Enters settings prior p ∧ p.Stays visit m) ∧
      ∀ prior visit p, Enters settings prior p → p.stage = .connected → p.Stays visit m →
        (∀ acts, (.tick, acts) ∈ visit → ∃ c o, calls acts = [(⟨c, .nothing⟩, o)]) ∧
        InRounds (probesOf visit) ∧
        m.pause = (if (probesOf visit).getLast? = some .linkStatus then settings.roundPause
          else settings.tickPause) ∧
        ∀ acts n, m.goal = .connected → (m.carryOut .tick).Runs acts n →
          ∃ o, calls acts = [(⟨nextProbe (tickCalls visit), .nothing⟩, o)] ∧
            InRounds (probesOf (visit ++ [(.tick, acts)])) ∧
            (n.stage ≠ .connected ↔ nextProbe (tickCalls visit) = .deviceStatus ∧
              ∀ status ∈ [RadioStatus.dataConnected, .scanning, .connecting],
                o.status? ≠ some status) ∧
            (n.stage ≠ .connected → n.stage = .connecting) ∧
            (nextProbe (tickCalls visit) = .deviceStatus →
              o.status? = some .scanning ∨ o.status? = some .connecting →
              nextProbe (tickCalls (visit ++ [(.tick, acts)])) = .deviceStatus ∧
                n.latestMessage = some .scanning ∧ published acts = []) := by
  have hsettings : m.settings = settings := run.settings_eq
  refine ⟨fun hs => ?_, fun hs => exists_visit run (by rw [hs]; decide), ?_⟩
  · rw [Machine.pause, roundComplete_of_stage hs, hsettings]
    rfl
  intro prior visit p entry hp stays
  have hphase : p.phase = .connected {} := by
    rw [entry.phase, hp]
    rfl
  have hconnected : m.stage = .connected := stays.stage_eq.trans hp
  have hshown : m.shown ≠ .unknown := by
    rcases (Reachable.tells ⟨settings, _, run⟩ : m.Tells ∨ m.Silent) with htells | ⟨hready, -⟩
    · exact htells.ne_unknown
    · simp [hconnected] at hready
  obtain ⟨hm, w, hw, hfollows, hone⟩ := follows_stays hphase (sound_run entry.run) stays
  refine ⟨hone, hfollows.rounds, ?_, fun acts n hg last => ?_⟩
  · rw [Machine.pause, roundComplete_of_connected hw, hsettings]
    exact if_congr hfollows.round rfl rfl
  obtain ⟨o, hcalls, hend, hbusy⟩ := tick_of_follows hm hw hfollows hg last
  refine ⟨o, hcalls, ?_, ?_, ?_, fun hradio hstatus => ?_⟩
  · rw [probesOf, tickCalls_snoc_tick, hcalls, List.map_append]
    exact hfollows.rounds.snoc_nextProbe
  · rw [← Monitor.judge_eq_failed_iff]
    split_ifs at hend with hfailed
    · simp [hend, hfailed]
    · obtain ⟨w', hw', -⟩ := hend
      simp [stage, hw', Phase.stage, hfailed]
  · intro hleft
    split_ifs at hend
    · exact hend
    · obtain ⟨w', hw', -⟩ := hend
      simp [stage, hw', Phase.stage] at hleft
  · obtain ⟨hlatest, hsame, hrssi⟩ := hbusy (Monitor.judge_eq_scanning_iff.mpr ⟨hradio, hstatus⟩)
    rw [greeted_of_ne hshown] at hsame hrssi
    refine ⟨?_, hlatest, published_tick_eq_nil last hshown hsame hrssi⟩
    rw [tickCalls_snoc_tick, hcalls, nextProbe_snoc, if_neg]
    rintro ⟨-, hdata⟩
    simp [hdata] at hstatus

/-- A card whose radio is negotiating. -/
def negotiatingCard (r : Request) : Outcome :=
  if r.command = .deviceStatus then .reply (.reading (.radio .connecting none))
  else obligingCard r

/-- A connected machine that has made a round of its monitor. -/
def watching : Machine := ((start {}).rehearse (ascent 23)).2

theorem monitor_rounds_negotiating :
    ∃ (prior visit : List (Operation × List Act)) (p n : Machine) (acts : List Act),
      Enters {} prior p ∧ p.Stays visit watching ∧
        (probesOf visit).getLast? = some .linkStatus ∧ (watching.carryOut .tick).Runs acts n ∧
        n.stage = .connected ∧ n.latestMessage = some .scanning ∧ published acts = [] := by
  have hstage : watching.stage = .connected := by decide +kernel
  obtain ⟨-, hvisit, hall⟩ := monitor_rounds (run_rehearse (start {}) (ascent 23))
  obtain ⟨prior, visit, p, -, entry, stays⟩ := hvisit hstage
  obtain ⟨-, -, hpause, htick⟩ :=
    hall prior visit p entry (stays.stage_eq.symm.trans hstage) stays
  have hlast : (probesOf visit).getLast? = some .linkStatus := by
    by_contra hno
    rw [if_neg hno] at hpause
    exact absurd hpause (by decide +kernel)
  have hruns := Dialog.runs_recorder (watching.carryOut .tick) negotiatingCard
  obtain ⟨o, hcalls, -, -, -, hbusy⟩ := htick _ _ (by decide +kernel) hruns
  have hprobe : calls ((watching.carryOut .tick).run (recorder negotiatingCard) []).2 =
      [(⟨.deviceStatus, .nothing⟩, .reply (.reading (.radio .connecting none)))] := by
    decide +kernel
  obtain ⟨hnext, rfl⟩ : Command.deviceStatus = nextProbe (tickCalls visit) ∧ _ = o := by
    simpa using hprobe.symm.trans hcalls
  obtain ⟨-, hlatest, hquiet⟩ := hbusy hnext.symm (.inr rfl)
  exact ⟨prior, visit, p, _, _, entry, stays, hlast, hruns, by decide +kernel, hlatest, hquiet⟩

end Machine

end Wimax
