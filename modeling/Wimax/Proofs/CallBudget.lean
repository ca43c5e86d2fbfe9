import Wimax.Bench
import Wimax.Proofs.OpenDriver

/-!
How long an operation can keep the control loop busy. It makes a few calls at most, and with a time
limit on each of them a bounded time goes by, however long the card hangs. Most bounds rest on the
interface being open, so that a look for a lost card costs no more than the enumeration.
-/

namespace Wimax

/-- The interface could not be opened for want of a valid device, so it was tried again and the
cards were listed. -/
def Reopening (cs : List (Request × Outcome)) : Prop :=
  ∃ reply o₁ o₂, reply.response = .invalidDevice ∧
    cs = [(⟨.apiOpen, .nothing⟩, .reply reply), (⟨.apiOpen, .nothing⟩, o₁),
      (⟨.listDevices, .nothing⟩, o₂)]

namespace Driver

variable {d d' : Driver} {c : Command} {args : Args} {acts : List Act} {response : Response}

theorem length_calls_attempt (h : (d.attempt c args).Runs acts (d', response)) :
    (calls acts).length ≤ 1 := by
  rcases runs_attempt h with ⟨-, rfl⟩ | ⟨o, -, rfl, -, -⟩ <;> simp

theorem length_calls_attempt_append {rest : List Act}
    (h : (d.attempt c args).Runs acts (d', response)) (hrest : (calls rest).length ≤ 1) :
    (calls (acts ++ rest)).length ≤ 2 := by
  have hacts := length_calls_attempt h
  rw [calls_append, List.length_append]
  omega

theorem length_calls_perform {result : Except Fault Response}
    (h : (d.perform c args).Runs acts (d', result)) : (calls acts).length ≤ 1 := by
  rcases runs_perform h with ⟨_, -, rfl, -⟩ | ⟨o, -, rfl, -, -⟩ <;> simp

theorem settled?_apiOpen (d : Driver) (args : Args) :
    d.settled? .apiOpen args = if d.record.apiOpen then some (d, .success) else none := by
  cases hapi : d.record.apiOpen <;>
    simp [settled?, localResponse?, Command.isReserved, Command.needsOpenApi, sentArgs?, hapi]

theorem calls_attempt_apiOpen (h : (d.attempt .apiOpen args).Runs acts (d', response)) :
    (d.record.apiOpen = true ∧ calls acts = [] ∧ response = .success) ∨
      (d.record.apiOpen = false ∧ ∃ o, calls acts = [(⟨.apiOpen, args⟩, o)] ∧
        d' = d.afterCall .apiOpen o ∧ response = o.response) := by
  rcases runs_attempt h with ⟨hs, rfl⟩ | ⟨o, hs, rfl, hd, hr⟩
  · rw [settled?_apiOpen] at hs
    split_ifs at hs with hapi
    exact .inl ⟨hapi, rfl, (Prod.mk.inj (Option.some.inj hs)).2.symm⟩
  · rw [settled?_apiOpen] at hs
    split_ifs at hs with hapi
    exact .inr ⟨by simpa using hapi, o, rfl, hd, hr⟩

theorem apiOpen_attempt (hapi : d.record.apiOpen = true) (hc : c ≠ .apiClose)
    (h : (d.attempt c args).Runs acts (d', response)) : d'.record.apiOpen = true := by
  have hshows : d.record.Shows .apiOpen := hapi
  refine (served_attempt h).shows ?_ hshows
  cases c <;> first | rfl | exact absurd rfl hc

/-- The calls of a look for the card: the enumeration, and before it the opening of a closed
interface. -/
def CardCalls (d : Driver) (cs : List (Request × Outcome)) : Prop :=
  ∃ o₁ o₂, cs = (if d.record.apiOpen then [] else [(⟨.apiOpen, .nothing⟩, o₁)]) ++
    [(⟨.listDevices, .nothing⟩, o₂)]

theorem CardCalls.length_le {cs : List (Request × Outcome)} (h : d.CardCalls cs) :
    cs.length ≤ if d.record.apiOpen then 1 else 2 := by
  obtain ⟨o₁, o₂, rfl⟩ := h
  split <;> simp

theorem calls_cardPresent {present : Bool} (h : d.cardPresent.Runs acts (d', present)) :
    d.CardCalls (calls acts) := by
  obtain ⟨⟨d₁, r₁⟩, first, rest, rfl, hopen, h⟩ := Dialog.runs_bind_iff.mp h
  obtain ⟨⟨d₂, r₂⟩, list, last, rfl, hlist, h⟩ := Dialog.runs_bind_iff.mp h
  obtain ⟨rfl, -⟩ := Dialog.runs_done_iff.mp h
  obtain ⟨o₂, rfl, -, -⟩ :=
    runs_attempt_of_alwaysAsks rfl (by simp [Command.needsOpenApi]) hlist
  have hargs : d₁.callArgs .listDevices .nothing = .nothing := rfl
  rcases calls_attempt_apiOpen hopen with ⟨hd, hfirst, -⟩ | ⟨hd, o₁, hfirst, -⟩
  · exact ⟨.timedOut, o₂, by simp [hfirst, hd, hargs]⟩
  · exact ⟨o₁, o₂, by simp [hfirst, hd, hargs]⟩

theorem calls_lossMessage {message : Message}
    (h : (d.lossMessage response).Runs acts (d', message)) :
    calls acts = [] ∨ response = .invalidDevice ∧ d.CardCalls (calls acts) := by
  unfold lossMessage at h
  split at h
  · next hr =>
    obtain ⟨⟨d₁, present⟩, first, rest, rfl, hlook, hrest⟩ := Dialog.runs_bind_iff.mp h
    obtain ⟨rfl, -⟩ := Dialog.runs_done_iff.mp hrest
    exact .inr ⟨hr, by simpa using calls_cardPresent hlook⟩
  · obtain ⟨rfl, -⟩ := Dialog.runs_done_iff.mp h
    exact .inl rfl

theorem length_calls_lossMessage {message : Message} (hapi : d.record.apiOpen = true)
    (h : (d.lossMessage response).Runs acts (d', message)) : (calls acts).length ≤ 1 := by
  rcases calls_lossMessage h with hnone | ⟨-, hcalls⟩
  · simp [hnone]
  · simpa [hapi] using hcalls.length_le

end Driver

namespace Bringup

variable {b : Bringup} {d : Driver} {c : Command} {budget : Nat} {r : Response}
  {acts : List Act} {s : Step Bringup}

theorem calls_afterResponse (h : (b.afterResponse d c budget r).Runs acts s) :
    calls acts = [] ∨ r = .invalidDevice ∧ d.CardCalls (calls acts) := by
  unfold afterResponse at h
  split_ifs at h with hr hc hl
  iterate 2
    obtain ⟨rfl, -⟩ := Dialog.runs_done_iff.mp h
    exact .inl rfl
  · obtain ⟨⟨d₁, m⟩, first, rest, rfl, hloss, hrest⟩ := Dialog.runs_bind_iff.mp h
    obtain ⟨rfl, -⟩ := Dialog.runs_done_iff.mp hrest
    simpa using Driver.calls_lossMessage hloss
  iterate 2
    obtain ⟨rfl, -⟩ := Dialog.runs_done_iff.mp h
    exact .inl rfl

/-- Only the opening of the interface can be followed by two calls. -/
theorem calls_step (hapi : b.cursor.place ≠ 0 → d.record.apiOpen = true)
    (h : (b.step d budget).Runs acts s) :
    (calls acts).length ≤ 2 ∨ b.cursor.place = 0 ∧ Reopening (calls acts) := by
  obtain ⟨c, d₁, r, first, rest, hc, rfl, h₁, h₂⟩ := runs_step h
  by_cases hplace : b.cursor.place = 0
  · rw [hplace] at hc
    obtain rfl : Command.apiOpen = c := Option.some.inj hc
    rcases Driver.calls_attempt_apiOpen h₁ with ⟨-, hfirst, rfl⟩ | ⟨hd, o, hfirst, rfl, rfl⟩
    · rcases calls_afterResponse h₂ with hrest | ⟨hr, -⟩
      · simp [hfirst, hrest]
      · cases hr
    · rcases calls_afterResponse h₂ with hrest | ⟨hr, o₁, o₂, hrest⟩
      · simp [hfirst, hrest]
      · refine .inr ⟨hplace, ?_⟩
        obtain ⟨reply, rfl⟩ := Outcome.exists_reply (o := o) (by simp [hr])
        have hclosed : ((d.afterCall .apiOpen (.reply reply)).record.apiOpen) = false := by
          rw [← Bool.not_eq_true, Driver.record_afterCall, Record.apiOpen_afterCall, hr]
          simp [hd]
        rw [hclosed] at hrest
        exact ⟨reply, o₁, o₂, hr, by rw [calls_append, hfirst, hrest]; rfl⟩
  · left
    have hne := ne_apiClose_of_mem c (List.mem_of_getElem? hc)
    have hopen := Driver.apiOpen_attempt (hapi hplace) hne h₁
    refine Driver.length_calls_attempt_append h₁ ?_
    rcases calls_afterResponse h₂ with hnone | ⟨-, hcalls⟩
    · simp [hnone]
    · simpa [hopen] using hcalls.length_le

end Bringup

namespace Attach

variable {a : Attach} {d : Driver} {preferred : String} {r : Response} {acts : List Act}
  {s : Step Attach}

theorem length_calls_loseCard (hapi : d.record.apiOpen = true)
    (h : (a.loseCard d r).Runs acts s) : (calls acts).length ≤ 1 := by
  obtain ⟨m, hm, -⟩ := runs_loseCard h
  exact Driver.length_calls_lossMessage hapi hm

/-- A step makes one call, and another one for a lost card or the name of the interface. -/
theorem length_calls_step (hapi : d.record.apiOpen = true)
    (h : (a.step d preferred).Runs acts s) : (calls acts).length ≤ 2 := by
  rcases runs_step h with ⟨-, h⟩ | ⟨-, h⟩ | ⟨-, h⟩
  · rcases runs_request h with ⟨rfl, -⟩ | ⟨n, d₁, r, first, rest, -, rfl, h₁, h₂⟩
    · simp
    have hopen := Driver.apiOpen_attempt hapi (by simp) h₁
    refine Driver.length_calls_attempt_append h₁ ?_
    rcases h₂ with ⟨-, rfl, -⟩ | ⟨-, h₂⟩ | ⟨-, rfl, -⟩
    · simp
    · exact length_calls_loseCard hopen h₂
    · simp
  · obtain ⟨d₁, r, first, rest, rfl, h₁, h₂⟩ := runs_checkRadio h
    have hopen := Driver.apiOpen_attempt hapi (by simp) h₁
    refine Driver.length_calls_attempt_append h₁ ?_
    rcases h₂ with ⟨-, h₂⟩ | ⟨-, rfl, -⟩ | ⟨-, rfl, -⟩
    · exact length_calls_loseCard hopen h₂
    · simp
    · simp
  · obtain ⟨d₁, r, first, rest, rfl, h₁, h₂⟩ := runs_checkLink h
    have hopen := Driver.apiOpen_attempt hapi (by simp) h₁
    refine Driver.length_calls_attempt_append h₁ ?_
    rcases h₂ with ⟨-, h₂⟩ | ⟨-, rfl, -⟩ | ⟨-, h₂⟩ | ⟨-, rfl, -⟩
    · obtain ⟨⟨r', h₃⟩, -⟩ := runs_finish h₂
      exact Driver.length_calls_attempt h₃
    · simp
    · exact length_calls_loseCard hopen h₂
    · simp

end Attach

/-- The most calls that an operation makes. -/
def Operation.callBound : Operation → Nat
  | tick => 3
  | notice _ => 2
  | query _ => 1
  | aim _ | prefer _ => 0

namespace Machine

variable {m n : Machine} {op : Operation} {acts : List Act} {cs : List (Request × Outcome)}

/-- The stage has no script, or none that the goal lets it follow. -/
def TakesNoStep (m : Machine) : Prop :=
  match m.stage with
  | .ready | .initialized | .disconnected => True
  | .initializing => m.goal.isUpward = false
  | .connecting | .connected => m.goal ≠ .connected
  | .disconnecting => False

theorem Turn.calls_eq_nil (h : m.Turn cs n) (hm : m.TakesNoStep) : cs = [] := by
  cases h with
  | idle => rfl
  | leave => rfl
  | bringup hphase hg => simp [TakesNoStep, stage, hphase, Phase.stage, hg] at hm
  | attach hphase hg => simp [TakesNoStep, stage, hphase, Phase.stage, hg] at hm
  | monitor hphase hg => simp [TakesNoStep, stage, hphase, Phase.stage, hg] at hm
  | teardown hphase => simp [TakesNoStep, stage, hphase, Phase.stage] at hm

theorem Sound.apiOpen_of_place_ne_zero {b : Bringup} (hm : m.Sound)
    (hphase : m.phase = .initializing b) (hplace : b.cursor.place ≠ 0) :
    m.driver.record.apiOpen = true := by
  obtain ⟨i, hi⟩ := Nat.exists_eq_succ_of_ne_zero hplace
  refine hm.shows .apiOpen ?_
  rw [hphase, Phase.lasting, hi]
  simp [Bringup.script]

/-- A tick makes two calls at most, unless the interface cannot be opened for want of a valid
device. -/
theorem Turn.length_calls (h : m.Turn cs n) (hm : m.Sound) :
    cs.length ≤ 2 ∨ m.goal.isUpward = true ∧
      (∃ b, m.phase = .initializing b ∧ b.cursor.place = 0) ∧ Reopening cs := by
  cases h with
  | idle => simp
  | leave => simp
  | @bringup b s acts hphase hg step =>
    rcases Bringup.calls_step (hm.apiOpen_of_place_ne_zero hphase) step with hle | ⟨hplace, hre⟩
    · exact .inl hle
    · exact .inr ⟨hg, ⟨b, hphase, hplace⟩, hre⟩
  | @attach a s acts hphase hg step =>
    have hstage : m.stage = .connecting := by rw [stage, hphase]; rfl
    exact .inl (Attach.length_calls_step (hm.isOpen (.inr (.inl hstage))).1 step)
  | @monitor w s sample acts hphase hg step =>
    obtain ⟨c, d₁, r, -, h₁, -⟩ := Monitor.runs_step step
    exact .inl (Nat.le_succ_of_le (Driver.length_calls_attempt h₁))
  | @teardown t s acts hphase step =>
    obtain ⟨c, r, -, h₁, -⟩ := Teardown.runs_step step
    exact .inl (Nat.le_succ_of_le (Driver.length_calls_attempt h₁))

theorem length_calls_seekCard (h : m.seekCard.Runs acts n) : (calls acts).length ≤ 2 := by
  obtain ⟨⟨d, present⟩, first, rest, rfl, hfirst, hrest⟩ := Dialog.runs_bind_iff.mp h
  obtain ⟨rfl, -⟩ := Dialog.runs_done_iff.mp hrest
  have hle := (Driver.calls_cardPresent hfirst).length_le
  rw [List.append_nil]
  split at hle <;> omega

theorem length_calls_ask {q : Query} {result : Except Fault Answer}
    (h : (m.ask q).Runs acts (n, result)) : (calls acts).length ≤ 1 := by
  unfold ask at h
  split at h
  · obtain ⟨rfl, -⟩ := Dialog.runs_done_iff.mp h
    simp
  · obtain ⟨⟨d, result⟩, first, rest, rfl, hfirst, hrest⟩ := Dialog.runs_bind_iff.mp h
    obtain ⟨rfl, -⟩ := Dialog.runs_done_iff.mp hrest
    rw [List.append_nil]
    exact Driver.length_calls_perform hfirst

theorem calls_tick_eq_nil (hm : m.TakesNoStep) (h : m.tick.Runs acts n) : calls acts = [] :=
  (turn_tick h).1.calls_eq_nil (by simpa [TakesNoStep] using hm)

theorem Sound.length_calls_tick (hm : m.Sound) (h : m.tick.Runs acts n) :
    (calls acts).length ≤ 2 ∨ m.goal.isUpward = true ∧
      (∃ b, m.phase = .initializing b ∧ b.cursor.place = 0) ∧ Reopening (calls acts) := by
  simpa using (turn_tick h).1.length_calls (sound_greeted hm)

theorem Sound.length_calls_carryOut (hm : m.Sound) (h : (m.carryOut op).Runs acts n) :
    (calls acts).length ≤ op.callBound := by
  cases op with
  | tick =>
    rcases hm.length_calls_tick h with hle | ⟨-, -, _, _, _, -, hcalls⟩
    · exact Nat.le_trans hle (by decide)
    · simp [hcalls, Operation.callBound]
  | aim g =>
    obtain ⟨rfl, -⟩ := Dialog.runs_done_iff.mp h
    simp
  | prefer name => simp [(runs_prefer h).1]
  | notice notice =>
    rcases calls_handle h with hnone | ⟨first, k, hfirst, heq⟩
    · simp [hnone]
    · rw [heq]
      exact length_calls_seekCard hfirst
  | query q =>
    obtain ⟨⟨k, result⟩, first, rest, rfl, hfirst, hrest⟩ := Dialog.runs_bind_iff.mp h
    obtain ⟨rfl, -⟩ := Dialog.runs_done_iff.mp hrest
    rw [List.append_nil]
    exact length_calls_ask hfirst

end Machine

namespace Bench

theorem wake_hang_le (now limit : Nat) (c : Command) (millis : Nat) (ending : Ending) :
    (hang now (some limit) c millis ending).wake ≤ now + limit := by
  unfold hang
  dsimp only
  split_ifs with hlong
  · exact Nat.le_refl _
  · exact Nat.add_le_add_left (Nat.le_of_not_lt hlong) now

theorem clock_answer_le (b : Bench) (limit : Nat) (r : Request) :
    ((world (some limit)).answer b r).2.clock ≤ b.clock + limit := by
  simp only [world, begin]
  cases hstart : (b.card.begin r).1 with
  | ended o => exact Nat.le_add_right ..
  | hangs millis ending =>
    have hwake := wake_hang_le b.clock limit r.command millis ending
    rw [clock_finish]
    exact Nat.max_le.mpr ⟨Nat.le_add_right .., hwake⟩

end Bench

theorem Dialog.clock_onBench_le {α : Type} (d : Dialog α) (limit : Nat) (b : Bench) :
    ∃ acts, d.Runs acts (d.onBench (some limit) b).1 ∧
      (d.onBench (some limit) b).2.clock ≤ b.clock + (calls acts).length * limit := by
  induction d generalizing b with
  | done a => exact ⟨[], .done a, by simp [onBench, run]⟩
  | publish e rest ih =>
    obtain ⟨acts, hruns, hclock⟩ := ih (b.publish e)
    exact ⟨_, .publish _ _ _ _ hruns, hclock⟩
  | ask r next ih =>
    obtain ⟨acts, hruns, hclock⟩ := ih _ ((Bench.world (some limit)).answer b r).2
    refine ⟨_, .ask _ _ _ _ _ hruns, ?_⟩
    have hcall := b.clock_answer_le limit r
    simp only [onBench, run, calls_call, List.length_cons, Nat.add_mul, Nat.one_mul] at hclock ⊢
    omega

namespace Machine

variable {m : Machine}

/-- A tick makes at most three calls, a notice two, a query one and any other operation none. Three
are made only by the first step of an initialization whose interface cannot be opened for want of a
valid device, and none where the stage takes no step. With a time limit on the calls an operation
takes as many limits at most, however long the card hangs. -/
theorem calls_bounded (hm : m.Reachable) (op : Operation) :
    (∀ acts n, (m.carryOut op).Runs acts n →
      (calls acts).length ≤ op.callBound ∧
        (2 < (calls acts).length → op = .tick ∧ m.goal.isUpward = true ∧
          (∃ b, m.phase = .initializing b ∧ b.cursor.place = 0) ∧ Reopening (calls acts)) ∧
        (op = .tick → m.TakesNoStep → calls acts = [])) ∧
      ∀ limit b, ((m.carryOut op).onBench (some limit) b).2.clock ≤
        b.clock + op.callBound * limit := by
  refine ⟨fun acts n h => ?_, fun limit b => ?_⟩
  · have hbound := hm.sound.length_calls_carryOut h
    refine ⟨hbound, fun hthree => ?_, ?_⟩
    · cases op with
      | tick => exact ⟨rfl, (hm.sound.length_calls_tick h).resolve_left (by omega)⟩
      | _ => simp only [Operation.callBound] at hbound; omega
    · rintro rfl hno
      exact calls_tick_eq_nil hno h
  · obtain ⟨acts, hruns, hclock⟩ := (m.carryOut op).clock_onBench_le limit b
    have hbound := Nat.mul_le_mul_right limit (hm.sound.length_calls_carryOut hruns)
    omega

/-- A card that takes its time to refuse the interface and then hangs for longer than a call may
take. -/
def sluggish : Bench where
  card :=
    { cues := [(.apiOpen, .stall 30000), (.apiOpen, .stall 40000), (.listDevices, .stall 50000)]
      standing := [(.apiOpen, ⟨.invalidDevice, .nothing⟩)] }

/-- The bound is attained. -/
theorem calls_bounded_sluggish :
    let m := ((start {}).rehearse (ascent 1)).2
    (m.carryOut .tick |>.onBench (some 30000) sluggish).2.clock ≤ 3 * 30000 ∧
      (m.carryOut .tick |>.onBench (some 30000) sluggish).2.clock = 90000 := by
  intro m
  have hm : m.Reachable := ⟨{}, _, run_rehearse (start {}) (ascent 1)⟩
  exact ⟨(calls_bounded hm .tick).2 30000 sluggish, by decide +kernel⟩

end Machine

end Wimax
