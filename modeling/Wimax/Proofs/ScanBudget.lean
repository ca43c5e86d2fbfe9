import Mathlib.Data.List.DropRight
import Wimax.Proofs.CompleteBringup
import Wimax.Proofs.GivingUp

/-!
The allowance for idle scans. Within a visit the counter of an initialization is the number of
network lists asked for in vain since the last useful one, so the visit is given up for want of a
network on exactly the tick on which the allowance is used up.
-/

namespace Wimax

/-- The outcome of a network list that shows a network. -/
def Outcome.showsNetwork : Outcome → Bool
  | .reply answer => !answer.networks.isEmpty
  | .fault _ | .timedOut => false

/-- The outcome of a network list asked for in vain: it failed, or it shows no network. -/
def Outcome.isIdle (o : Outcome) : Bool :=
  o.response == .failed || (o.response == .success && !o.showsNetwork)

theorem Outcome.response_of_showsNetwork {o : Outcome} (h : o.showsNetwork = true) :
    o.response = .success := by
  cases o with
  | reply answer =>
    have hne : answer.networks ≠ [] := by simpa [showsNetwork] using h
    rw [Reply.eq_of_networks_ne_nil hne]
    rfl
  | _ => simp [showsNetwork] at h

/-- The network lists asked for in vain since the last one that showed a network. -/
def idleStreak (cs : List (Request × Outcome)) : Nat :=
  (cs.rtakeWhile fun call =>
      !(call.1.command == .networkList && call.2.showsNetwork)).countP fun call =>
    call.1.command == .networkList && call.2.isIdle

section IdleStreak

variable {cs ds : List (Request × Outcome)} {call : Request × Outcome}

theorem idleStreak_snoc_of_ne (h : call.1.command ≠ .networkList) :
    idleStreak (cs ++ [call]) = idleStreak cs := by
  simp [idleStreak, h]

theorem idleStreak_append_of_ne (h : ∀ call ∈ ds, call.1.command ≠ .networkList) :
    idleStreak (cs ++ ds) = idleStreak cs := by
  induction ds using List.reverseRecOn with
  | nil => rw [List.append_nil]
  | append_singleton ds call ih =>
    rw [← List.append_assoc, idleStreak_snoc_of_ne (h call (by simp)),
      ih fun c hc => h c (by simp [hc])]

theorem idleStreak_snoc (h : call.1.command = .networkList) :
    idleStreak (cs ++ [call]) =
      if call.2.showsNetwork then 0
      else if call.2.isIdle then idleStreak cs + 1 else idleStreak cs := by
  by_cases hshows : call.2.showsNetwork = true
  · simp [idleStreak, h, hshows]
  · by_cases hidle : call.2.isIdle = true <;> simp [idleStreak, h, hshows, hidle]

end IdleStreak

namespace Bringup

variable {b : Bringup} {d : Driver} {c : Command} {budget : Nat} {r : Response} {acts : List Act}
  {s : Step Bringup} {cs : List (Request × Outcome)}

theorem countIdleScan_of_lt (h : b.idleScans + 1 < budget) :
    b.countIdleScan d budget = scan { b with idleScans := b.idleScans + 1 } d :=
  if_neg (Nat.not_le.mpr h)

theorem countIdleScan_of_le (h : budget ≤ b.idleScans + 1) :
    b.countIdleScan d budget = abandon { b with idleScans := 0 } d .noNetwork :=
  if_pos h

/-- The step leaves the counter alone and does not speak of a network. -/
structure Uncounted (b : Bringup) (s : Step Bringup) : Prop where
  idleScans : s.phase.idleScans = b.idleScans
  message : s.message ≠ some .noNetwork

theorem uncounted_forward (b : Bringup) (d : Driver) : b.Uncounted (b.forward d) :=
  ⟨rfl, nofun⟩

theorem uncounted_abandon {message : Message} (h : message ≠ .noNetwork) :
    b.Uncounted (b.abandon d message) := ⟨rfl, fun he => h (Option.some.inj he)⟩

theorem uncounted_afterStatus (b : Bringup) (d : Driver) : b.Uncounted (b.afterStatus d) := by
  unfold afterStatus
  split
  iterate 3 exact uncounted_forward b d
  · split
    · split <;> exact ⟨rfl, nofun⟩
    · split
      · exact uncounted_forward b d
      · exact ⟨rfl, nofun⟩
  · exact ⟨rfl, nofun⟩

theorem uncounted_afterSuccess (hc : c ≠ .networkList) :
    b.Uncounted (b.afterSuccess d c budget) := by
  unfold afterSuccess
  split
  · split
    · exact uncounted_forward b d
    · exact uncounted_abandon nofun
  · exact absurd rfl hc
  · exact uncounted_afterStatus b d
  · exact uncounted_forward b d

theorem uncounted_afterFailure (hc : c ≠ .networkList) :
    b.Uncounted (b.afterFailure d c budget) := by
  unfold afterFailure
  split
  · exact absurd rfl hc
  · exact uncounted_abandon nofun
  · exact uncounted_abandon nofun

/-- Only a network list that succeeds or fails is counted. Another refusal of it is not. -/
theorem uncounted_afterResponse (hc : c = .networkList → r ≠ .success ∧ r ≠ .failed)
    (h : (b.afterResponse d c budget r).Runs acts s) : b.Uncounted s := by
  unfold afterResponse at h
  split at h
  · next hr =>
    obtain ⟨rfl, rfl⟩ := Dialog.runs_done_iff.mp h
    exact uncounted_afterSuccess fun he => (hc he).1 hr
  split at h
  · obtain ⟨rfl, rfl⟩ := Dialog.runs_done_iff.mp h
    exact uncounted_forward b d
  split at h
  · next hl =>
    obtain ⟨⟨d', message⟩, first, rest, rfl, hloss, hrest⟩ := Dialog.runs_bind_iff.mp h
    obtain ⟨rfl, rfl⟩ := Dialog.runs_done_iff.mp hrest
    refine uncounted_abandon ?_
    rw [Driver.runs_lossMessage hl .apiOpen hloss, Message.ofFailure, if_pos hl]
    split <;> exact nofun
  split at h
  · next hr =>
    obtain ⟨rfl, rfl⟩ := Dialog.runs_done_iff.mp h
    exact uncounted_afterFailure fun he => (hc he).2 hr
  · obtain ⟨rfl, rfl⟩ := Dialog.runs_done_iff.mp h
    exact ⟨rfl, nofun⟩

theorem runs_afterResponse_networkList {o : Outcome}
    (h : (b.afterResponse (d.afterCall .networkList o) .networkList budget o.response).Runs
      acts s) :
    if o.showsNetwork then s = forward { b with idleScans := 0 } (d.afterCall .networkList o)
    else if o.isIdle then s = b.countIdleScan (d.afterCall .networkList o) budget
    else b.Uncounted s := by
  by_cases hr : o.response = .success
  · obtain ⟨answer, rfl⟩ := Outcome.exists_reply (o := o) (by simp [hr])
    rw [hr] at h
    obtain ⟨-, rfl⟩ := runs_afterResponse_success h
    have hnetworks : (d.afterCall .networkList (.reply answer)).record.networks =
        answer.networks := rfl
    simp only [afterSuccess, hnetworks, Outcome.showsNetwork, Outcome.isIdle, hr]
    cases answer.networks.isEmpty <;> rfl
  · have hshows : o.showsNetwork = false := by
      by_contra hshows
      exact hr (Outcome.response_of_showsNetwork (by simpa using hshows))
    by_cases hfailed : o.response = .failed
    · obtain ⟨-, rfl⟩ : acts = [] ∧ s = b.afterFailure _ .networkList budget := by
        simpa [afterResponse, hfailed, Response.meansCardLost] using h
      simp [hshows, Outcome.isIdle, hfailed, afterFailure]
    · have huncounted := uncounted_afterResponse (fun _ => ⟨hr, hfailed⟩) h
      simpa [hshows, Outcome.isIdle, hr, hfailed] using huncounted

theorem runs_step_networkList (hplace : b.cursor.place = 14) (h : (b.step d budget).Runs acts s) :
    ∃ o rest, calls acts = (⟨.networkList, .nothing⟩, o) :: rest ∧
      (∀ call ∈ rest, call.1.command ≠ .networkList) ∧
      if o.showsNetwork then
        s = forward ⟨b.cursor.placed, 0⟩ (d.afterCall .networkList o)
      else if o.isIdle then
        s = countIdleScan ⟨b.cursor.placed, b.idleScans⟩ (d.afterCall .networkList o) budget
      else b.Uncounted s := by
  obtain ⟨c, d₁, r, first, rest, hc, rfl, h₁, h₂⟩ := runs_step h
  obtain rfl : Command.networkList = c := by
    rw [hplace] at hc
    exact Option.some.inj hc
  obtain ⟨o, rfl, rfl, rfl⟩ :=
    Driver.runs_attempt_of_alwaysAsks rfl (fun h => absurd h (by decide)) h₁
  refine ⟨o, calls rest, by simp [Driver.callArgs, Driver.sentArgs?], ?_, ?_⟩
  · intro call hcall
    rcases (callsOnly_afterResponse _ _ _ _ _).calls h₂ hcall with he | he <;> simp [he]
  · have hend := runs_afterResponse_networkList h₂
    split_ifs at hend ⊢
    · exact hend
    · exact hend
    · exact ⟨hend.idleScans, hend.message⟩

/-- The step is an idle scan, which counts. -/
def Idles (b : Bringup) (budget : Nat) (s : Step Bringup) : Prop :=
  b.cursor.place = 14 ∧ ∃ d, s = Bringup.countIdleScan { b with cursor := b.cursor.placed } d budget

/-- The counter follows the calls. A step that counts adds one to what the calls before it amount
to, and any other one adds nothing. -/
theorem counts_step (hcs : idleStreak cs = b.idleScans) (h : (b.step d budget).Runs acts s) :
    (idleStreak (cs ++ calls acts) = b.idleScans + 1 ∧ b.Idles budget s) ∨
      (idleStreak (cs ++ calls acts) = s.phase.idleScans ∧ s.phase.idleScans ≤ b.idleScans ∧
        s.message ≠ some .noNetwork) := by
  by_cases hplace : b.cursor.place = 14
  · obtain ⟨o, rest, hcalls, hrest, hend⟩ := runs_step_networkList hplace h
    rw [hcalls, List.append_cons, idleStreak_append_of_ne hrest, idleStreak_snoc rfl, hcs]
    split_ifs at hend ⊢ with hshows hidle
    · rw [hend]
      exact .inr ⟨rfl, Nat.zero_le _, nofun⟩
    · exact .inl ⟨rfl, hplace, _, hend⟩
    · exact .inr ⟨hend.idleScans.symm, hend.idleScans.le, hend.message⟩
  · have hne : ∀ call ∈ calls acts, call.1.command ≠ .networkList := fun _ hcall =>
      ne_networkList_of_step hplace h hcall
    obtain ⟨c, d₁, r, first, rest, hc, rfl, h₁, h₂⟩ := runs_step h
    have huncounted := uncounted_afterResponse
      (by rintro rfl; exact absurd (place_of_networkList hc) hplace) h₂
    rw [idleStreak_append_of_ne hne, hcs]
    exact .inr ⟨huncounted.idleScans.symm, huncounted.idleScans.le, huncounted.message⟩

theorem count_networkList_step (h : (b.step d budget).Runs acts s) :
    (calls acts).countP (·.1.command = .networkList) = if b.cursor.place = 14 then 1 else 0 := by
  split_ifs with hplace
  · obtain ⟨o, rest, hcalls, hrest, -⟩ := runs_step_networkList hplace h
    have hnone : rest.countP (·.1.command = .networkList) = 0 := by
      simpa [List.countP_eq_zero] using hrest
    simp [hcalls, hnone]
  · simpa [List.countP_eq_zero] using fun _ _ hcall => ne_networkList_of_step hplace h hcall

end Bringup

namespace Machine

variable {m n p : Machine} {op : Operation} {acts : List Act} {settings : Settings} {b : Bringup}
  {prior visit : List (Operation × List Act)} {cs : List (Request × Outcome)}

/-- The machine is initializing, and its counter shows what the calls of the visit amount to and has
not used up the allowance. -/
structure Counted (m : Machine) (cs : List (Request × Outcome)) (b : Bringup) : Prop where
  phase : m.phase = .initializing b
  count : b.idleScans = idleStreak cs
  lt : b.idleScans < max 1 m.settings.scanAllowance

theorem Counted.stage_eq (h : m.Counted cs b) : m.stage = .initializing := by
  rw [stage, h.phase]
  rfl

theorem Counted.networkList_iff (h : m.Counted cs b) :
    m.phase.command? = some .networkList ↔ b.cursor.place = 14 := by
  rw [h.phase]
  constructor
  · exact Bringup.place_of_networkList
  · intro hplace
    simp only [Phase.command?, hplace]
    rfl

/-- The tick was an idle scan: it goes on scanning, or gives up if the allowance is used up. -/
structure IdleTick (m n : Machine) (cs : List (Request × Outcome)) : Prop where
  goal : m.goal ≠ .ready
  goesOn : idleStreak cs < max 1 m.settings.scanAllowance →
    (∃ b, n.Counted cs b) ∧ n.phase.command? = some .networkList ∧
      n.latestMessage = some .scanning ∧ n.shown = .scanning
  givesUp : ¬idleStreak cs < max 1 m.settings.scanAllowance →
    n.GivenUp .noNetwork ∧ n.stage = .disconnecting

@[simp]
theorem latestMessage_afterBringup (m : Machine) (s : Step Bringup) :
    (m.afterBringup s).latestMessage = s.message := by
  unfold afterBringup
  cases s.verdict <;> rfl

theorem Counted.idleTick (h : m.Counted cs b) (hplace : b.cursor.place = 14)
    (hup : m.goal.isUpward = true) (d : Driver) {ds : List (Request × Outcome)}
    (hcount : idleStreak ds = b.idleScans + 1) :
    m.IdleTick (m.greeted.afterBringup (Bringup.countIdleScan { b with cursor := b.cursor.placed } d
      m.settings.scanAllowance)) ds where
  goal hgoal := by simp [hgoal, Goal.isUpward] at hup
  goesOn hleft := by
    rw [Bringup.countIdleScan_of_lt (by change b.idleScans + 1 < _; omega)]
    refine ⟨⟨⟨b.cursor.placed, b.idleScans + 1⟩, rfl, hcount.symm, ?_⟩, ?_, rfl, rfl⟩
    · change b.idleScans + 1 < max 1 m.greeted.settings.scanAllowance
      rwa [settings_greeted, ← hcount]
    · change Bringup.script[b.cursor.placed.place]? = _
      rw [Cursor.place_placed, hplace]
      rfl
  givesUp hspent := by
    have hlt := h.lt
    rw [Bringup.countIdleScan_of_le (by change _ ≤ b.idleScans + 1; omega)]
    exact ⟨⟨rfl, rfl, rfl⟩, stage_entered _ _⟩

theorem Counted.tick (h : m.Counted cs b) (last : (m.carryOut .tick).Runs acts n) :
    (idleStreak (cs ++ calls acts) = idleStreak cs + 1 ∧ m.IdleTick n (cs ++ calls acts)) ∨
      (idleStreak (cs ++ calls acts) ≤ idleStreak cs ∧
        (m.goal ≠ .ready → ¬n.GivenUp .noNetwork) ∧
        (n.stage = .initializing → ∃ b, n.Counted (cs ++ calls acts) b)) := by
  have hlt := h.lt
  have hsettings := settings_carryOut last
  rcases (turn_tick last).1.bringup_inv (by rw [phase_greeted, h.phase]) with
    ⟨-, hcalls, rfl⟩ | ⟨hup, s, first, step, hcalls, rfl⟩
  · rw [hcalls, List.append_nil]
    refine .inr ⟨le_rfl, fun hgoal hgiven => hgoal ?_, fun hs => ?_⟩
    · simpa using hgiven.goal
    · simp at hs
  rw [driver_greeted, settings_greeted] at step
  rw [goal_greeted] at hup
  rw [hcalls]
  rcases Bringup.counts_step h.count.symm step with
    ⟨hcount, hplace, d, rfl⟩ | ⟨hcount, hle, hmessage⟩
  · exact .inl ⟨by rw [hcount, h.count], h.idleTick hplace hup d hcount⟩
  · rw [hcount, ← h.count]
    refine .inr ⟨hle, fun _ hgiven => hmessage ?_, fun hs => ⟨s.phase, ?_, hcount.symm, ?_⟩⟩
    · simpa using hgiven.latest
    · rw [stage_afterBringup] at hs
      unfold afterBringup
      cases hv : s.verdict <;> simp [hv] at hs ⊢
    · rw [hsettings]
      omega

theorem Counted.ne_tick (h : m.Counted cs b) (hop : op ≠ .tick)
    (last : (m.carryOut op).Runs acts n) :
    (∀ call ∈ calls acts, call.1.command ≠ .networkList) ∧
      (n.stage = .initializing → n.Counted (cs ++ calls acts) b) := by
  have hqueries : m.stage.takesQueries = false := by rw [h.stage_eq]; rfl
  have hne := ne_networkList_of_ne_tick hqueries hop last
  refine ⟨hne, fun hs => ⟨?_, ?_, ?_⟩⟩
  · rw [phase_of_ne_tick last hop (hs.trans h.stage_eq.symm), h.phase]
  · rw [idleStreak_append_of_ne hne, h.count]
  · rw [settings_carryOut last]
    exact h.lt

/-- An operation is an idle scan, or it adds nothing and gives nothing up for want of a network. -/
theorem Counted.carryOut (h : m.Counted cs b) (last : (m.carryOut op).Runs acts n) :
    (op = .tick ∧ idleStreak (cs ++ calls acts) = idleStreak cs + 1 ∧
        m.IdleTick n (cs ++ calls acts)) ∨
      (idleStreak (cs ++ calls acts) ≤ idleStreak cs ∧
        (op = .tick → m.goal ≠ .ready → ¬n.GivenUp .noNetwork) ∧
        (n.stage = .initializing → ∃ b, n.Counted (cs ++ calls acts) b)) := by
  by_cases hop : op = .tick
  · subst hop
    rcases h.tick last with ⟨hadds, hidle⟩ | ⟨hle, hnot, hstays⟩
    · exact .inl ⟨rfl, hadds, hidle⟩
    · exact .inr ⟨hle, fun _ => hnot, hstays⟩
  · obtain ⟨hne, hstays⟩ := h.ne_tick hop last
    exact .inr ⟨(idleStreak_append_of_ne hne).le, fun ht => absurd ht hop,
      fun hs => ⟨b, hstays hs⟩⟩

/-- The idle scans at the end of the steps that count. -/
def idleScansOf (steps : List (Operation × List Act)) : Nat :=
  idleStreak (calls (actsOf steps))

theorem idleScansOf_snoc :
    idleScansOf (visit ++ [(op, acts)]) = idleStreak (calls (actsOf visit) ++ calls acts) := by
  rw [idleScansOf, actsOf_append, calls_append, actsOf_cons, actsOf_nil, List.append_nil]

/-- All through a visit the counter shows what the calls of the visit amount to. -/
theorem counted_stays (hp : p.phase = .initializing {}) (h : p.Stays visit m) :
    ∃ b, m.Counted (calls (actsOf visit)) b := by
  induction h with
  | nil => exact ⟨{}, hp, rfl, by change 0 < _; omega⟩
  | @snoc visit n n' op acts prior last hs ih =>
    obtain ⟨b, hb⟩ := ih
    rw [hb.stage_eq] at hs
    rw [actsOf_append, calls_append, actsOf_cons, actsOf_nil, List.append_nil]
    rcases hb.carryOut last with ⟨-, -, hidle⟩ | ⟨-, -, hstays⟩
    · refine (hidle.goesOn ?_).1
      by_contra hspent
      have hleft := (hidle.givesUp hspent).2
      simp [hs] at hleft
    · exact hstays hs

theorem Counted.count_networkList (h : m.Counted cs b) (last : (m.carryOut op).Runs acts n) :
    (calls acts).countP (·.1.command = .networkList) =
      if op = .tick ∧ m.goal.isUpward = true ∧ m.phase.command? = some .networkList then 1
      else 0 := by
  by_cases hop : op = .tick
  · subst hop
    rcases (turn_tick last).1.bringup_inv (by rw [phase_greeted, h.phase]) with
      ⟨hdown, hcalls, -⟩ | ⟨hup, s, first, step, hcalls, -⟩
    · rw [goal_greeted] at hdown
      simp [hcalls, hdown]
    · rw [goal_greeted] at hup
      simp only [hcalls, Bringup.count_networkList_step step, hup, h.networkList_iff, true_and]
  · have hne := (h.ne_tick hop last).1
    rw [if_neg fun hat => hop hat.1]
    simpa [List.countP_eq_zero] using hne

theorem givenUp_text_iff :
    (∃ message, n.GivenUp message ∧ message.text = "No WiMax network found.") ↔
      n.GivenUp .noNetwork := by
  constructor
  · rintro ⟨message, hgiven, htext⟩
    cases message <;> first | exact hgiven | exact absurd htext (by decide)
  · exact fun hgiven => ⟨_, hgiven, rfl⟩

/-- The scan budget is exact. All through a visit the counter is the number of network lists asked
for in vain since the last useful one of the visit, and is below the allowance, or zero if there is
none. Only ticks at the place of the network list ask for it. The tick on which the number reaches
the allowance gives up for want of a network, and no other tick does. Every earlier tick that adds
to it stays at its place and is reported as scanning. -/
theorem scan_budget (entry : Enters settings prior p) (hp : p.stage = .initializing)
    (stays : p.Stays visit m) (last : (m.carryOut op).Runs acts n) :
    (∃ b, m.phase = .initializing b ∧ b.idleScans = idleScansOf visit ∧
        b.idleScans < max 1 settings.scanAllowance ∧
        (settings.scanAllowance < UInt32.size → b.idleScans + 1 < UInt32.size)) ∧
      ((calls acts).countP (·.1.command = .networkList) =
        if op = .tick ∧ m.goal.isUpward = true ∧ m.phase.command? = some .networkList then 1
        else 0) ∧
      (op = .tick →
        ((m.goal ≠ .ready ∧ ∃ message, n.GivenUp message ∧
            message.text = "No WiMax network found.") ↔
          idleScansOf visit < idleScansOf (visit ++ [(op, acts)]) ∧
            idleScansOf (visit ++ [(op, acts)]) = max 1 settings.scanAllowance)) ∧
      (idleScansOf visit < idleScansOf (visit ++ [(op, acts)]) →
        idleScansOf (visit ++ [(op, acts)]) < max 1 settings.scanAllowance →
        n.stage = .initializing ∧ n.phase.command? = some .networkList ∧
          n.latestMessage = some .scanning ∧ n.shown = .scanning) ∧
      idleScansOf (visit ++ [(op, acts)]) ≤ max 1 settings.scanAllowance := by
  have hphase : p.phase = .initializing {} := by
    rw [entry.phase, hp]
    rfl
  obtain ⟨b, hb⟩ := counted_stays hphase stays
  have hsettings : m.settings = settings := (entry.run.append stays.run).settings_eq
  have hlt := hb.lt
  rw [hsettings] at hlt
  have hcount := hb.count
  rw [idleScansOf_snoc, idleScansOf, givenUp_text_iff]
  have hsize : 1 < UInt32.size := by decide
  refine ⟨⟨b, hb.phase, hcount, hlt, fun _ => by omega⟩, hb.count_networkList last, ?_⟩
  rcases hb.carryOut last with ⟨-, hadds, hidle⟩ | ⟨hle, hnot, -⟩
  · have hgoesOn := hidle.goesOn
    rw [hsettings] at hgoesOn
    refine ⟨fun _ => ⟨fun ⟨_, hgiven⟩ => ⟨by omega, ?_⟩, fun ⟨_, hspent⟩ => ⟨hidle.goal, ?_⟩⟩,
      fun _ hleft => ?_, by omega⟩
    · by_contra hleft
      have hscanning := (hgoesOn (by omega)).2.2.1
      simp [hgiven.latest] at hscanning
    · exact (hidle.givesUp (by rw [hsettings]; omega)).1
    · obtain ⟨⟨b', hb'⟩, hplace, hlatest, hshown⟩ := hgoesOn hleft
      exact ⟨hb'.stage_eq, hplace, hlatest, hshown⟩
  · exact ⟨fun hop => iff_of_false (fun hgiven => hnot hop hgiven.1 hgiven.2) (by omega),
      fun hmore => absurd hmore (by omega), by omega⟩

/-- A card that cannot list the networks. -/
def blindCard (r : Request) : Outcome :=
  if r.command = .networkList then .timedOut else obligingCard r

/-- A card that sees no network. -/
def emptyCard (r : Request) : Outcome :=
  if r.command = .networkList then .reply ⟨.success, .networks []⟩ else obligingCard r

/-- The way up to the second idle scan of the two that are allowed for. -/
def oneScanLeft : Plan :=
  ascent 15 ++ [(.tick, blindCard)]

theorem scan_budget_oneScanLeft :
    ∃ (prior visit : List (Operation × List Act)) (p n : Machine) (acts : List Act),
      Enters { scanAllowance := 2 } prior p ∧
        p.Stays visit ((start { scanAllowance := 2 }).rehearse oneScanLeft).2 ∧
        (((start { scanAllowance := 2 }).rehearse oneScanLeft).2.carryOut .tick).Runs acts n ∧
        n.GivenUp .noNetwork ∧ idleScansOf (visit ++ [(.tick, acts)]) = 2 := by
  have hruns := Dialog.runs_recorder
    (((start { scanAllowance := 2 }).rehearse oneScanLeft).2.carryOut .tick) emptyCard
  have hstage : ((start { scanAllowance := 2 }).rehearse oneScanLeft).2.stage = .initializing := by
    decide +kernel
  obtain ⟨prior, visit, p, -, hp, hstays⟩ :=
    exists_visit (run_rehearse (start { scanAllowance := 2 }) oneScanLeft) (by rw [hstage]; decide)
  have hgiven : ((((start { scanAllowance := 2 }).rehearse oneScanLeft).2.carryOut .tick).run
      (recorder emptyCard) []).1.GivenUp .noNetwork :=
    ⟨by decide +kernel, by decide +kernel, by decide +kernel⟩
  obtain ⟨-, -, hgivesUp, -⟩ :=
    scan_budget hp (hstays.stage_eq.symm.trans hstage) hstays hruns
  have hspent := ((hgivesUp rfl).mp ⟨by decide +kernel, _, hgiven, rfl⟩).2
  exact ⟨prior, visit, p, _, _, hp, hstays, hruns, hgiven, hspent⟩

end Machine

end Wimax
