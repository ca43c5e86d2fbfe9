import Wimax.Proofs.OpenDriver
import Wimax.Proofs.Visits

/-!
A teardown runs to its end. Each of its ticks performs the next command, whatever the card answers
and whatever is asked of the machine meanwhile, and of the commands those reach the card that find
something to undo.
-/

namespace Wimax

def requests (acts : List Act) : List Request := (calls acts).map (·.1)

@[simp]
theorem requests_nil : requests [] = [] := rfl

@[simp]
theorem requests_append (acts more : List Act) :
    requests (acts ++ more) = requests acts ++ requests more := by simp [requests]

theorem mem_requests {acts : List Act} {r : Request} :
    r ∈ requests acts ↔ ∃ o, (r, o) ∈ calls acts := by simp [requests]

def tickCount (steps : List (Operation × List Act)) : Nat := steps.countP (·.1 == .tick)

section TickCount

variable {first rest : List (Operation × List Act)} {op : Operation} {acts : List Act}

@[simp]
theorem tickCount_nil : tickCount [] = 0 := rfl

@[simp]
theorem tickCount_append : tickCount (first ++ rest) = tickCount first + tickCount rest := by
  simp [tickCount]

@[simp]
theorem tickCount_tick : tickCount [(.tick, acts)] = 1 := rfl

theorem tickCount_of_ne (hop : op ≠ .tick) : tickCount [(op, acts)] = 0 := by
  simp [tickCount, hop]

end TickCount

namespace Teardown

theorem mem_script {c : Command} :
    c ∈ script ↔ (∃ ch, c = .unsubscribe ch) ∨ c = .disconnect ∨ c = .deviceClose ∨
      c = .apiClose := by
  simp [script, Channel.mem_all, eq_comm]

theorem ne_of_mem_drop {i : Nat} {c c' : Command} (hc : script[i]? = some c)
    (h : c' ∈ script.drop (i + 1)) : c ≠ c' := by
  have hnodup : script.Nodup := by decide
  rw [← List.take_append_drop (i + 1) script, List.nodup_append] at hnodup
  have hmem : c ∈ script.take (i + 1) := by
    apply List.mem_of_getElem? (i := i)
    rwa [List.getElem?_take_of_lt (by omega)]
  exact hnodup.2.2 c hmem c' h

theorem place_of_closes {i : Nat} {c : Command} (hc : script[i]? = some c) :
    (c = .deviceClose → i = 9) ∧ (c = .apiClose → i = 10) := by
  have hlt : i < 11 := (List.getElem?_eq_some_iff.mp hc).1
  have hplace : ∀ i < 11, (script[i]? = some .deviceClose → i = 9) ∧
      (script[i]? = some .apiClose → i = 10) := by decide
  obtain ⟨hdevice, hapi⟩ := hplace i hlt
  constructor
  · rintro rfl
    exact hdevice hc
  · rintro rfl
    exact hapi hc

theorem mem_drop_of_mem_drop_succ {i : Nat} {c : Command} (h : c ∈ script.drop (i + 1)) :
    c ∈ script.drop i := by
  rw [← List.drop_drop] at h
  exact List.mem_of_mem_drop h

end Teardown

namespace Driver

variable {d d' : Driver} {c : Command} {r : Response} {acts : List Act} {ch : Channel}

/-- A command of a teardown finds something to undo, so that it is sent to the card. -/
def mustSend (d : Driver) : Command → Bool
  | .unsubscribe ch => d.settings.notices && d.record.subscriptions.has ch
  | .deviceClose | .apiClose => d.record.apiOpen
  | _ => true

theorem isNone_settled? (hc : c ∈ Teardown.script) :
    (d.settled? c .nothing).isNone = d.mustSend c := by
  rcases Teardown.mem_script.mp hc with ⟨ch, rfl⟩ | rfl | rfl | rfl
  · cases hch : d.record.subscriptions.has ch <;> cases hn : d.settings.notices <;>
      simp [settled?, mustSend, hch, hn]
  · rfl
  all_goals
    cases ha : d.record.apiOpen <;>
      simp [settled?, mustSend, localResponse?, Command.isReserved, Command.needsOpenApi,
        sentArgs?, ha]

theorem callArgs_of_mem_script (hc : c ∈ Teardown.script) : d.callArgs c .nothing = .nothing := by
  rcases Teardown.mem_script.mp hc with ⟨ch, rfl⟩ | rfl | rfl | rfl <;> rfl

theorem requests_attempt (hc : c ∈ Teardown.script)
    (h : (d.attempt c .nothing).Runs acts (d', r)) :
    requests acts = if d.mustSend c then [⟨c, .nothing⟩] else [] := by
  have hsettled := isNone_settled? (d := d) hc
  rcases runs_attempt h with ⟨hs, rfl⟩ | ⟨o, hs, rfl, -, -⟩
  · rw [hs] at hsettled
    simp [← hsettled]
  · rw [hs] at hsettled
    simp [← hsettled, requests, callArgs_of_mem_script hc]

theorem Served.has_eq (h : d.Served c d') (hun : c ≠ .unsubscribe ch) (hclose : c ≠ .apiClose)
    (hsub : c ≠ .subscribe ch) :
    d'.record.subscriptions.has ch = d.record.subscriptions.has ch := by
  rcases h with rfl | ⟨o, rfl⟩
  · rfl
  · rw [Bool.eq_iff_iff, record_afterCall, Record.has_afterCall]
    simp [hun, hclose, hsub]

theorem Keeps.has_eq (h : d.Keeps d') (ch : Channel) :
    d'.record.subscriptions.has ch = d.record.subscriptions.has ch := by
  cases hch : d.record.subscriptions.has ch with
  | true => exact h.shows (.subscribe ch) (by simp) hch
  | false => exact h.shows (.unsubscribe ch) (by simp) hch

end Driver

namespace Machine

variable {m n k : Machine} {op : Operation} {acts : List Act} {i : Nat}
  {steps : List (Operation × List Act)} {cs : List (Request × Outcome)} {t : Teardown}

theorem Turn.teardown_inv (h : m.Turn cs n) (hm : m.phase = .disconnecting t) :
    ∃ s acts, (t.step m.driver).Runs acts s ∧ cs = calls acts ∧ n = m.afterTeardown s := by
  cases h with
  | idle hturn hc => simp [hm, Phase.command?_eq_none_iff] at hc
  | leave hs => simp [turn?, hm] at hs
  | bringup hb => simp [hm] at hb
  | attach ha => simp [hm] at ha
  | monitor hw => simp [hm] at hw
  | @teardown t' s acts ht step =>
    obtain rfl : t = t' := by simpa [hm] using ht
    exact ⟨s, acts, step, rfl, rfl⟩

/-- The machine is in the teardown that began at `m`, before its command number `i`. -/
structure InTeardown (m n : Machine) (i : Nat) : Prop where
  place : ∃ t, n.phase = .disconnecting t ∧ t.cursor.place = i
  settings : n.driver.settings = m.driver.settings
  channels : ∀ ch, .unsubscribe ch ∈ Teardown.script.drop i →
    n.driver.record.subscriptions.has ch = m.driver.record.subscriptions.has ch
  sound : n.Sound

theorem InTeardown.stage_eq (h : m.InTeardown n i) : n.stage = .disconnecting := by
  obtain ⟨t, hphase, -⟩ := h.place
  rw [stage, hphase]
  rfl

theorem InTeardown.ne_tick (h : m.InTeardown n i) (hop : op ≠ .tick)
    (hrun : (n.carryOut op).Runs acts k) : m.InTeardown k i := by
  have hstage := h.stage_eq
  have hsound := h.sound.carryOut hrun
  cases carries_carryOut hrun with
  | tick => exact absurd rfl hop
  | giveUp hn => simp [hstage] at hn
  | store hk =>
    rw [hk] at hsound ⊢
    exact ⟨h.place, h.settings, h.channels, hsound⟩
  | unmoved _ hk =>
    refine ⟨?_, ?_, ?_, hsound⟩
    · rw [hk.phase]
      exact h.place
    · rw [hk.driver.settings]
      exact h.settings
    · intro ch hch
      rw [hk.driver.has_eq ch]
      exact h.channels ch hch

/-- Whether the teardown that began at `m` sends a command when it comes to it at `n`: it cancels
the subscriptions it found and closes what is open. -/
def teardownSends (m n : Machine) : Command → Bool
  | .unsubscribe ch => m.driver.mustSend (.unsubscribe ch)
  | c => n.driver.mustSend c

theorem InTeardown.mustSend_eq (h : m.InTeardown n i) {c : Command}
    (hc : Teardown.script[i]? = some c) : n.driver.mustSend c = m.teardownSends n c := by
  cases c with
  | unsubscribe ch =>
    have hmem : .unsubscribe ch ∈ Teardown.script.drop i := by
      apply List.mem_of_getElem? (i := 0)
      simpa using hc
    simp only [teardownSends, Driver.mustSend, h.settings, h.channels ch hmem]
  | _ => rfl

theorem InTeardown.tick (h : m.InTeardown n i) (hrun : (n.carryOut .tick).Runs acts k) :
    ∃ c first r, Teardown.script[i]? = some c ∧
      (n.driver.attempt c .nothing).Runs first (k.driver, r) ∧ requests acts = requests first ∧
      ((i < 10 ∧ m.InTeardown k (i + 1)) ∨ (i = 10 ∧ k.stage = .disconnected)) := by
  obtain ⟨t, hphase, rfl⟩ := h.place
  have hsound := h.sound.carryOut hrun
  obtain ⟨s, first, step, hcalls, rfl⟩ :=
    (turn_tick hrun).1.teardown_inv (by rwa [phase_greeted])
  rw [driver_greeted] at step
  obtain ⟨c, r, hc, hattempt, hend⟩ := Teardown.runs_step step
  rw [driver_afterTeardown]
  refine ⟨c, first, r, hc, hattempt, by simp only [requests, hcalls], ?_⟩
  have hserved := Driver.served_attempt hattempt
  rcases hend with ⟨hlt, hv, hplace⟩ | ⟨hlast, hv⟩
  · have hlt : t.cursor.place < 10 := Nat.lt_of_succ_lt_succ hlt
    refine .inl ⟨hlt, ⟨s.phase, ?_, hplace⟩, ?_, ?_, hsound⟩
    · simp [afterTeardown, hv]
    · rw [driver_afterTeardown, hserved.settings]
      exact h.settings
    · intro ch hch
      have hne := Teardown.ne_of_mem_drop hc hch
      have hclose : c ≠ .apiClose := by
        intro he
        have hlast := (Teardown.place_of_closes hc).2 he
        omega
      have hsub := (Teardown.opens_of_mem c (List.mem_of_getElem? hc)).2 ch ch.mem_all
      rw [driver_afterTeardown, hserved.has_eq hne hclose hsub]
      exact h.channels ch (Teardown.mem_drop_of_mem_drop_succ hch)
  · exact .inr ⟨Nat.succ.inj hlast, by simp [afterTeardown, hv]⟩

theorem InTeardown.run {p : Machine} (hp : m.InTeardown p i) (run : Run p steps n)
    (h : i + tickCount steps ≤ 10) : m.InTeardown n (i + tickCount steps) := by
  induction run with
  | nil => exact hp
  | @snoc steps n k op acts prior last ih =>
    rw [tickCount_append] at h ⊢
    have hn := ih (by omega)
    by_cases hop : op = .tick
    · subst hop
      rw [tickCount_tick] at h ⊢
      obtain ⟨-, -, -, -, -, -, ⟨-, hk⟩ | ⟨hten, -⟩⟩ := hn.tick last
      · exact hk
      · omega
    · rw [tickCount_of_ne hop]
      exact hn.ne_tick hop last

/-- The requests of a run that belong to a teardown. -/
def teardownRequests (steps : List (Operation × List Act)) : List Request :=
  (requests (actsOf steps)).filter (·.command ∈ Teardown.script)

theorem teardownRequests_append (first rest : List (Operation × List Act)) :
    teardownRequests (first ++ rest) = teardownRequests first ++ teardownRequests rest := by
  simp [teardownRequests]

theorem not_mem_script_of_looksForCard {c : Command} (h : Driver.looksForCard c) :
    c ∉ Teardown.script := by
  rcases h with rfl | rfl <;> decide

theorem InTeardown.not_mem_script (h : m.InTeardown n i) (hop : op ≠ .tick)
    (hrun : (n.carryOut op).Runs acts k) {r : Request} (hr : r ∈ requests acts) :
    r.command ∉ Teardown.script := by
  have hs : n.stage.takesQueries = false := by rw [h.stage_eq]; rfl
  obtain ⟨o, hro⟩ := mem_requests.mp hr
  exact not_mem_script_of_looksForCard (looksForCard_of_ne_tick hs hop hrun r o hro)

theorem InTeardown.teardownRequests_ne_tick (h : m.InTeardown n i) (hop : op ≠ .tick)
    (hrun : (n.carryOut op).Runs acts k) : teardownRequests [(op, acts)] = [] := by
  apply List.filter_eq_nil_iff.mpr
  intro r hr
  simpa using h.not_mem_script hop hrun (by simpa using hr)

theorem InTeardown.teardownRequests_still {p : Machine} (hp : m.InTeardown p i)
    (run : Run p steps n) (hi : i ≤ 10) (h : tickCount steps = 0) :
    teardownRequests steps = [] := by
  induction run with
  | nil => rfl
  | @snoc steps n k op acts prior last ih =>
    rw [tickCount_append] at h
    have hn := hp.run prior (by omega)
    have hop : op ≠ .tick := by
      rintro rfl
      simp at h
    rw [teardownRequests_append, ih (by omega), hn.teardownRequests_ne_tick hop last]
    rfl

theorem InTeardown.teardownRequests_tick (h : m.InTeardown n i)
    (hrun : (n.carryOut .tick).Runs acts k) :
    ∃ c, Teardown.script[i]? = some c ∧ teardownRequests [(.tick, acts)] = requests acts ∧
      requests acts = if m.teardownSends n c then [⟨c, .nothing⟩] else [] := by
  obtain ⟨c, first, r, hc, hattempt, heq, -⟩ := h.tick hrun
  have hmem := List.mem_of_getElem? hc
  have hsent := Driver.requests_attempt hmem hattempt
  rw [h.mustSend_eq hc, ← heq] at hsent
  refine ⟨c, hc, ?_, hsent⟩
  have hall : requests (actsOf [(.tick, acts)]) = requests acts := by simp
  rw [teardownRequests, hall, hsent]
  apply List.filter_eq_self.mpr
  intro r hr
  split at hr
  · obtain rfl := List.mem_singleton.mp hr
    simpa using hmem
  · simp at hr

/-- Up to the detachment it is settled at the beginning which commands are sent. -/
theorem teardownSends_of_lt {c : Command} (hc : Teardown.script[i]? = some c) (hi : i < 9) :
    m.teardownSends n c = m.teardownSends m c := by
  obtain ⟨hdevice, hapi⟩ := Teardown.place_of_closes hc
  cases c with
  | deviceClose => exact absurd (hdevice rfl) (by omega)
  | apiClose => exact absurd (hapi rfl) (by omega)
  | _ => rfl

theorem teardownRequests_run (hm : m.InTeardown m 0) (run : Run m steps n)
    (h : tickCount steps ≤ 9) :
    teardownRequests steps =
      ((Teardown.script.take (tickCount steps)).filter (m.teardownSends m)).map (⟨·, .nothing⟩) := by
  induction run with
  | nil => rfl
  | @snoc steps n k op acts prior last ih =>
    rw [tickCount_append] at h ⊢
    have hn := hm.run prior (by omega)
    rw [Nat.zero_add] at hn
    rw [teardownRequests_append, ih (by omega)]
    by_cases hop : op = .tick
    · subst hop
      rw [tickCount_tick] at h ⊢
      obtain ⟨c, hc, htick, hsent⟩ := hn.teardownRequests_tick last
      rw [htick, hsent, teardownSends_of_lt hc (by omega), List.take_add_one, hc,
        List.filter_append, List.map_append]
      cases hs : m.teardownSends m c <;> simp [hs]
    · rw [hn.teardownRequests_ne_tick hop last, tickCount_of_ne hop, List.append_nil, Nat.add_zero]

theorem filter_teardownSends (m : Machine) :
    (Teardown.script.take 9).filter (m.teardownSends m) =
      (if m.driver.settings.notices then m.driver.record.subscriptions.toList.map .unsubscribe
        else []) ++ [.disconnect] := by
  have htake : Teardown.script.take 9 = Channel.all.map .unsubscribe ++ [.disconnect] := rfl
  rw [htake, List.filter_append, List.filter_map]
  congr 1
  cases hn : m.driver.settings.notices with
  | true =>
    simp only [↓reduceIte, Subscriptions.toList]
    congr 2
    funext ch
    simp [teardownSends, Driver.mustSend, hn]
  | false =>
    have hnone : m.teardownSends m ∘ Command.unsubscribe = fun _ => false := by
      funext ch
      simp [teardownSends, Driver.mustSend, hn]
    simp [hnone]

/-- The machine has entered a teardown with the last operation of a run. -/
def BeginsTeardown (m : Machine) : Prop :=
  ∃ (k : Machine) (op : Operation) (acts : List Act), k.Reachable ∧ k.stage ≠ .disconnecting ∧
    (k.carryOut op).Runs acts m ∧ m.stage = .disconnecting

theorem phase_of_begins (hk : k.stage ≠ .disconnecting) (hrun : (k.carryOut op).Runs acts m)
    (hm : m.stage = .disconnecting) : m.phase = .disconnecting {} := by
  rw [phase_of_entered hrun (by rwa [hm]), hm]
  rfl

theorem BeginsTeardown.inTeardown (h : m.BeginsTeardown) : m.InTeardown m 0 := by
  obtain ⟨k, op, acts, hk, hstage, hrun, hm⟩ := h
  exact ⟨⟨{}, phase_of_begins hstage hrun hm, rfl⟩, rfl, fun _ _ => rfl, (hk.step hrun).sound⟩

/-- Only the last command of a teardown ends it, and then no channel is open; nothing is when the
interface was closed with success. -/
theorem InTeardown.closed_tick (h : m.InTeardown n 10) (hrun : (n.carryOut .tick).Runs acts k)
    {first : List Act} {r : Response}
    (hattempt : (n.driver.attempt .apiClose .nothing).Runs first (k.driver, r)) :
    (∀ ch, k.driver.record.subscriptions.has ch = false) ∧
      (r = .success → k.driver.record.apiOpen = false ∧ k.driver.record.deviceOpen = false) := by
  obtain ⟨-, -, -, -, -, -, ⟨hten, -⟩ | ⟨-, hstage⟩⟩ := h.tick hrun
  · omega
  have hshows := (h.sound.carryOut hrun).shows
  rw [phase_of_disconnected hstage] at hshows
  constructor
  · intro ch
    exact hshows (.unsubscribe ch) (List.mem_map_of_mem ch.mem_all)
  · rintro rfl
    have hclosed := Driver.shows_attempt h.sound.coherent hattempt
    exact ⟨hclosed.api, hclosed.device⟩

/-- The requests of a teardown whose last two commands are performed at `p` and at `q`. -/
theorem teardownRequests_whole {p p' q : Machine} {first mid : List (Operation × List Act)}
    {a b : List Act} (hm : m.InTeardown m 0) (hfirst : Run m first p) (hnine : tickCount first = 9)
    (hp : (p.carryOut .tick).Runs a p') (hmid : Run p' mid q) (hzero : tickCount mid = 0)
    (hq : (q.carryOut .tick).Runs b n) :
    teardownRequests (first ++ (.tick, a) :: (mid ++ [(.tick, b)])) =
      ((if m.driver.settings.notices then
          m.driver.record.subscriptions.toList.map Command.unsubscribe else []) ++
        [Command.disconnect] ++
        (if p.driver.record.apiOpen then [Command.deviceClose] else []) ++
        (if q.driver.record.apiOpen then [Command.apiClose] else [])).map (⟨·, .nothing⟩) := by
  have hpt : m.InTeardown p 9 := by simpa [hnine] using hm.run hfirst (by omega)
  have hp' : m.InTeardown p' 10 := hpt.run (.one hp) (Nat.le_refl _)
  have hqt : m.InTeardown q 10 := by simpa [hzero] using hp'.run hmid (by omega)
  have hstill := hp'.teardownRequests_still hmid (Nat.le_refl _) hzero
  obtain ⟨c, hc, hdevice, hsentDevice⟩ := hpt.teardownRequests_tick hp
  obtain rfl : Command.deviceClose = c := Option.some.inj hc
  obtain ⟨c, hc, hapi, hsentApi⟩ := hqt.teardownRequests_tick hq
  obtain rfl : Command.apiClose = c := Option.some.inj hc
  have hsplit : first ++ (.tick, a) :: (mid ++ [(.tick, b)]) =
      first ++ [(.tick, a)] ++ mid ++ [(.tick, b)] := by simp
  rw [hsplit, teardownRequests_append, teardownRequests_append, teardownRequests_append, hstill,
    teardownRequests_run hm hfirst (by omega), hnine, filter_teardownSends, hdevice, hapi,
    hsentDevice, hsentApi, List.append_nil]
  have hdeviceClose : m.teardownSends p .deviceClose = p.driver.record.apiOpen := rfl
  have hapiClose : m.teardownSends q .apiClose = q.driver.record.apiOpen := rfl
  rw [hdeviceClose, hapiClose]
  cases p.driver.record.apiOpen <;> cases q.driver.record.apiOpen <;> simp

/-- From its beginning on a teardown takes eleven ticks whatever happens between them. Each of them
performs the next command of the script, and together they send the cancellations of the channels
that were open at the beginning, the request to disconnect, and the closings of what is open when
they come to it. -/
theorem teardown_runs_whole (hm : m.BeginsTeardown) :
    (∀ steps n, Run m steps n → tickCount steps ≤ 10 →
      n.stage = .disconnecting ∧
      (∀ op acts k, op ≠ .tick → (n.carryOut op).Runs acts k →
        k.stage = .disconnecting ∧ ∀ r ∈ requests acts, r.command ∉ Teardown.script) ∧
      ∀ acts k, (n.carryOut .tick).Runs acts k →
        k.stage = (if tickCount steps < 10 then .disconnecting else .disconnected) ∧
        ∃ c first r, Teardown.script[tickCount steps]? = some c ∧
          (n.driver.attempt c .nothing).Runs first (k.driver, r) ∧
          requests acts = requests first ∧
          requests acts = (if m.teardownSends n c then [⟨c, .nothing⟩] else []) ∧
          (c = .apiClose → (∀ ch, k.driver.record.subscriptions.has ch = false) ∧
            (r = .success →
              k.driver.record.apiOpen = false ∧ k.driver.record.deviceOpen = false))) ∧
    ∀ first p a p' mid q b n, Run m first p → tickCount first = 9 →
      (p.carryOut .tick).Runs a p' → Run p' mid q → tickCount mid = 0 →
      (q.carryOut .tick).Runs b n →
      teardownRequests (first ++ (.tick, a) :: (mid ++ [(.tick, b)])) =
        ((if m.driver.settings.notices then
            m.driver.record.subscriptions.toList.map Command.unsubscribe else []) ++
          [Command.disconnect] ++
          (if p.driver.record.apiOpen then [Command.deviceClose] else []) ++
          (if q.driver.record.apiOpen then [Command.apiClose] else [])).map (⟨·, .nothing⟩) := by
  have hbegin := hm.inTeardown
  constructor
  · intro steps n run hticks
    have hn := hbegin.run run (by omega)
    rw [Nat.zero_add] at hn
    refine ⟨hn.stage_eq, ?_, ?_⟩
    · intro op acts k hop hrun
      exact ⟨(hn.ne_tick hop hrun).stage_eq, fun r hr => hn.not_mem_script hop hrun hr⟩
    · intro acts k hrun
      obtain ⟨c, first, r, hc, hattempt, heq, hend⟩ := hn.tick hrun
      have hsent := Driver.requests_attempt (List.mem_of_getElem? hc) hattempt
      rw [hn.mustSend_eq hc, ← heq] at hsent
      refine ⟨?_, c, first, r, hc, hattempt, heq, hsent, ?_⟩
      · rcases hend with ⟨hlt, hk⟩ | ⟨hten, hk⟩
        · rw [if_pos hlt, hk.stage_eq]
        · rw [if_neg (by omega), hk]
      · rintro rfl
        rw [(Teardown.place_of_closes hc).2 rfl] at hn
        exact hn.closed_tick hrun hattempt
  · intro first p a p' mid q b n hfirst hnine hp hmid hzero hq
    exact teardownRequests_whole hbegin hfirst hnine hp hmid hzero hq

/-- A connection that is given up for another network. -/
def reselected : Machine × List Act :=
  (((start {}).rehearse (ascent 21)).2.carryOut (.prefer "Rover")).run (recorder obligingCard) []

theorem begins_reselected : reselected.1.BeginsTeardown := by
  have hreachable : ((start {}).rehearse (ascent 21)).2.Reachable := ⟨{}, _, run_rehearse _ _⟩
  refine ⟨_, .prefer "Rover", reselected.2, hreachable, ?_, Dialog.runs_recorder _ obligingCard, ?_⟩
  · decide +kernel
  · decide +kernel

/-- Ticks among which the goal changes and a notice makes the machine look for its card. -/
def disturbed (ticks : Nat) : Plan :=
  (.aim .ready, obligingCard) :: (.notice (.wideScan []), obligingCard) ::
    List.replicate ticks (.tick, obligingCard)

theorem teardown_runs_whole_reselected :
    (reselected.1.rehearse (disturbed 10)).2.stage = .disconnecting ∧
      teardownRequests ((reselected.1.rehearse (disturbed 9)).1 ++
        ((reselected.1.rehearse (disturbed 9)).2.rehearse
          [(.tick, obligingCard), (.tick, obligingCard)]).1) =
        Teardown.script.map (⟨·, .nothing⟩) := by
  obtain ⟨heach, hall⟩ := teardown_runs_whole begins_reselected
  constructor
  · exact (heach _ _ (run_rehearse _ (disturbed 10)) (by decide +kernel)).1
  · have hrun := run_rehearse reselected.1 (disturbed 9)
    have hsent := hall _ _ _ _ [] _ _ _ hrun (by decide +kernel)
      (Dialog.runs_recorder _ obligingCard) .nil rfl (Dialog.runs_recorder _ obligingCard)
    exact hsent.trans (by decide +kernel)

end Machine

end Wimax
