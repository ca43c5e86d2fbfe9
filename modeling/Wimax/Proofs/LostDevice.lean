import Wimax.Proofs.Bookkeeping
import Wimax.Proofs.ConnectRequests
import Wimax.Proofs.GivingUp
import Wimax.Proofs.WholeTeardown

/-!
What becomes of a device over which the session was given up. It is opened again before the next
attachment if it was closed in between or was not open at all. A teardown closes it unless the card
does not answer, but a session that loses its card while connecting comes to rest without one.
-/

namespace Wimax

/-- The call closes the device for the record: any answer to a closing of the device does, and the
closing of the interface with success. -/
def ClosesDevice (call : Request × Outcome) : Prop :=
  IsAnswered .deviceClose call ∨ Succeeds .apiClose call

theorem since_append_iff {p q : Request × Outcome → Prop} {cs ds : List (Request × Outcome)} :
    Since p q (cs ++ ds) ↔ (Since p q cs ∧ ∀ call ∈ ds, ¬q call) ∨ Since p q ds := by
  induction ds using List.reverseRecOn with
  | nil => simp [not_since_nil]
  | append_singleton ds call ih =>
    rw [← List.append_assoc, since_snoc_iff, ih, since_snoc_iff]
    simp only [List.mem_append, List.mem_singleton]
    constructor
    · rintro (⟨⟨hcs, hds⟩ | hds, hcall⟩ | hcall)
      · refine .inl ⟨hcs, ?_⟩
        rintro later (hlater | rfl)
        · exact hds later hlater
        · exact hcall
      · exact .inr (.inl ⟨hds, hcall⟩)
      · exact .inr (.inr hcall)
    · rintro (⟨hcs, hall⟩ | ⟨hds, hcall⟩ | hcall)
      · refine .inl ⟨.inl ⟨hcs, fun later hlater => hall later (.inl hlater)⟩, ?_⟩
        exact hall call (.inr rfl)
      · exact .inl ⟨.inr hds, hcall⟩
      · exact .inr hcall

theorem OpensDevice.exists_call {cs : List (Request × Outcome)} (h : OpensDevice cs) :
    ∃ call ∈ cs, call.1.command = .deviceOpen := by
  obtain ⟨before, call, after, rfl, hopen, -⟩ := h
  exact ⟨call, by simp, hopen.1⟩

/-- The flag of the device after the calls `cs`, by the flag before them. -/
def FlagAfter (before after : Bool) (cs : List (Request × Outcome)) : Prop :=
  after = true ↔ (before = true ∧ ∀ call ∈ cs, ¬ClosesDevice call) ∨ OpensDevice cs

theorem flagAfter_nil (flag : Bool) : FlagAfter flag flag [] := by
  simp [FlagAfter, OpensDevice, not_since_nil]

theorem opensDevice_append_iff {cs ds : List (Request × Outcome)} :
    OpensDevice (cs ++ ds) ↔ (OpensDevice cs ∧ ∀ call ∈ ds, ¬ClosesDevice call) ∨ OpensDevice ds :=
  since_append_iff

theorem FlagAfter.trans {a b c : Bool} {cs ds : List (Request × Outcome)} (h₁ : FlagAfter a b cs)
    (h₂ : FlagAfter b c ds) : FlagAfter a c (cs ++ ds) := by
  unfold FlagAfter at *
  rw [h₂, h₁, opensDevice_append_iff]
  simp only [List.mem_append]
  grind

/-- A flag that was up and is down, or that was raised by a call, was down before or is closed. -/
theorem FlagAfter.closed {before after : Bool} {cs : List (Request × Outcome)}
    (h : FlagAfter before after cs) (hafter : after = false) :
    before = false ∨ ∃ call ∈ cs, ClosesDevice call := by
  by_contra hnone
  obtain ⟨hbefore, hopen⟩ := not_or.mp hnone
  have hkept : before = true ∧ ∀ call ∈ cs, ¬ClosesDevice call := by
    refine ⟨by simpa using hbefore, fun call hcall hcloses => hopen ⟨call, hcall, hcloses⟩⟩
  simp [h.mpr (.inl hkept)] at hafter

namespace Driver

variable {d d' : Driver} {cs : List (Request × Outcome)}

theorem flagAfter_call (d : Driver) (c : Command) (args : Args) (o : Outcome) :
    FlagAfter d.record.deviceOpen (d.afterCall c o).record.deviceOpen [(⟨c, args⟩, o)] := by
  have hopens : OpensDevice [(⟨c, args⟩, o)] ↔ c = .deviceOpen ∧ o.response = .success := by
    rw [show [(⟨c, args⟩, o)] = ([] : List (Request × Outcome)) ++ [(⟨c, args⟩, o)] from rfl,
      OpensDevice, since_snoc_iff]
    simp [not_since_nil, Succeeds]
  rw [FlagAfter, record_afterCall, Record.deviceOpen_afterCall, hopens]
  simp [ClosesDevice, IsAnswered, Succeeds]

theorem Trace.flagAfter (h : d.Trace cs d') :
    FlagAfter d.record.deviceOpen d'.record.deviceOpen cs := by
  induction h with
  | nil => exact flagAfter_nil _
  | settle _ hs ih =>
    rcases driver_of_settled? hs with rfl | ⟨-, ch, on, -, rfl⟩
    · exact ih
    · exact ih
  | @call cs d₁ c args _ hs o ih => exact ih.trans (flagAfter_call d₁ c _ o)

theorem Trace.closed_of_opening (h : d.Trace cs d')
    (hopening : ∃ call ∈ cs, call.1.command = .deviceOpen) :
    d.record.deviceOpen = false ∨ ∃ call ∈ cs, ClosesDevice call := by
  induction h with
  | nil => simp at hopening
  | settle _ _ ih => exact ih hopening
  | @call cs d₁ c args prior hs o ih =>
    have hlater : (∃ call ∈ cs, ClosesDevice call) →
        ∃ call ∈ cs ++ [(⟨c, d₁.callArgs c args⟩, o)], ClosesDevice call := by
      rintro ⟨call, hcall, hcloses⟩
      exact ⟨call, List.mem_append_left _ hcall, hcloses⟩
    by_cases hearlier : ∃ call ∈ cs, call.1.command = .deviceOpen
    · exact (ih hearlier).imp_right hlater
    · obtain ⟨call, hcall, hc⟩ := hopening
      rcases List.mem_append.mp hcall with hcall | hcall
      · exact absurd ⟨call, hcall, hc⟩ hearlier
      · obtain rfl : call = (⟨c, d₁.callArgs c args⟩, o) := List.mem_singleton.mp hcall
        obtain rfl : c = .deviceOpen := hc
        have hlocal := localResponse?_of_settled? hs (by simp) (by simp)
        have hdown : d₁.record.deviceOpen = false :=
          (guards_of_localResponse? hlocal).2.2.2 rfl
        exact (prior.flagAfter.closed hdown).imp_right hlater

end Driver

namespace Machine

variable {k k' m n : Machine} {op : Operation} {acts last : List Act}
  {steps after : List (Operation × List Act)} {message : Message} {r : Request} {o : Outcome}

theorem deviceOpen_noteCard (m : Machine) (present : Bool) :
    (m.noteCard present).driver.record.deviceOpen = m.driver.record.deviceOpen := by
  unfold noteCard
  dsimp only
  split_ifs <;> rfl

theorem flagAfter_run (run : Run m steps n) :
    FlagAfter m.driver.record.deviceOpen n.driver.record.deviceOpen (calls (actsOf steps)) := by
  induction run with
  | nil => exact flagAfter_nil _
  | @snoc steps n n' op acts prior last ih =>
    have hlast : FlagAfter n.driver.record.deviceOpen n'.driver.record.deviceOpen (calls acts) := by
      rcases trace_carryOut last with htrace | ⟨hcalls, present, rfl⟩
      · exact htrace.flagAfter
      · rw [hcalls, deviceOpen_noteCard]
        exact flagAfter_nil _
    simpa using ih.trans hlast

theorem closed_of_opening_run (run : Run m steps n)
    (hopening : ∃ call ∈ calls (actsOf steps), call.1.command = .deviceOpen) :
    m.driver.record.deviceOpen = false ∨ ∃ call ∈ calls (actsOf steps), ClosesDevice call := by
  induction run with
  | nil => simp at hopening
  | @snoc steps n n' op acts prior last ih =>
    have hcalls : calls (actsOf (steps ++ [(op, acts)])) = calls (actsOf steps) ++ calls acts := by
      simp
    rw [hcalls] at hopening ⊢
    simp only [List.mem_append, or_and_right, exists_or] at hopening ⊢
    rcases hopening with hopening | hopening
    · exact (ih hopening).imp_right .inl
    · have hdown : n.driver.record.deviceOpen = false ∨ ∃ call ∈ calls acts, ClosesDevice call := by
        rcases trace_carryOut last with htrace | ⟨hnone, -⟩
        · exact htrace.closed_of_opening hopening
        · simp [hnone] at hopening
      rcases hdown with hdown | hcloses
      · exact ((flagAfter_run prior).closed hdown).imp_right .inl
      · exact .inr (.inr hcloses)

/-- A teardown that has found the device open keeps it so up to the request to close it. -/
theorem close_sent_of_run (hk : k.InTeardown k 0) (hopen : k.driver.record.deviceOpen = true)
    (run : Run k steps n) :
    (∃ call ∈ calls (actsOf steps), call.1.command = .deviceClose) ∨
      ∃ i ≤ 9, k.InTeardown n i ∧ n.driver.record.deviceOpen = true := by
  induction run with
  | nil => exact .inr ⟨0, by omega, hk, hopen⟩
  | @snoc steps n n' op acts prior last ih =>
    have hcalls : calls (actsOf (steps ++ [(op, acts)])) = calls (actsOf steps) ++ calls acts := by
      simp
    rw [hcalls]
    rcases ih with ⟨call, hcall, hc⟩ | ⟨i, hi, hn, hup⟩
    · exact .inl ⟨call, List.mem_append_left _ hcall, hc⟩
    by_cases hop : op = .tick
    · subst hop
      obtain ⟨c, first, response, hc, hattempt, hrequests, hend⟩ := hn.tick last
      have hmem := List.mem_of_getElem? hc
      rcases Nat.lt_or_eq_of_le hi with hlt | rfl
      · have hkeeps : c.undoes .deviceOpen = false := by
          have hplaces : ∀ i < 9, ∀ c, Teardown.script[i]? = some c →
              c.undoes .deviceOpen = false := by decide
          exact hplaces i hlt c hc
        have hup' : n'.driver.record.Shows .deviceOpen :=
          (Driver.served_attempt hattempt).shows hkeeps hup
        rcases hend with ⟨-, hn'⟩ | ⟨hten, -⟩
        · exact .inr ⟨i + 1, by omega, hn', hup'⟩
        · omega
      · obtain rfl : Command.deviceClose = c := Option.some.inj hc
        have hapi : n.driver.mustSend .deviceClose = true := hn.sound.coherent.device hup
        have hsent : ⟨.deviceClose, .nothing⟩ ∈ requests acts := by
          rw [hrequests, Driver.requests_attempt hmem hattempt, if_pos hapi]
          exact List.mem_singleton.mpr rfl
        obtain ⟨o, ho⟩ := mem_requests.mp hsent
        exact .inl ⟨_, List.mem_append_right _ ho, rfl⟩
    · refine .inr ⟨i, hi, hn.ne_tick hop last, ?_⟩
      cases carries_carryOut last with
      | tick => exact absurd rfl hop
      | giveUp _ hn' => rw [hn']; exact hup
      | store hn' => rw [hn']; exact hup
      | unmoved _ hn' => exact hn'.driver.shows .deviceOpen (by simp) hup

theorem Turn.keeps_of_connecting {cs : List (Request × Outcome)} (h : m.Turn cs n)
    (hm : m.stage = .connecting) : m.driver.Keeps n.driver := by
  cases h with
  | idle => exact .refl _
  | leave => exact .refl _
  | bringup hphase => simp [stage, hphase, Phase.stage] at hm
  | attach _ _ step => simpa using Attach.keeps_step step
  | monitor hphase => simp [stage, hphase, Phase.stage] at hm
  | teardown hphase => simp [stage, hphase, Phase.stage] at hm

/-- A tick that gives up over a lost card keeps the device open, if it was, and goes down by a
teardown or, from an attachment, straight to rest. -/
theorem leaves_of_givesUp (hk : k.Reachable) (htick : (k.carryOut .tick).Runs acts k')
    (hlost : k.GivesUp (calls acts) message) :
    (k.stage = .initializing ∧ k'.BeginsTeardown) ∨
      (k.stage = .connecting ∧ k'.stage = .ready ∧ k'.driver.record.deviceOpen = true) := by
  rcases judges_tick hk htick with ⟨-, -, -, hstage⟩ | ⟨hnone, -⟩
  · rcases hlost.stage with hs | hs
    · rw [if_pos hs] at hstage
      exact .inl ⟨hs, k, .tick, acts, hk, by simp [hs], htick, hstage⟩
    · rw [if_neg (by simp [hs])] at hstage
      refine .inr ⟨hs, hstage, ?_⟩
      have hkeeps := (turn_tick htick).1.keeps_of_connecting (by simpa using hs)
      have hopen : k.greeted.driver.record.Shows .deviceOpen := by
        rw [driver_greeted]
        exact (hk.sound.isOpen (.inr (.inl hs))).2.1
      exact hkeeps.shows .deviceOpen (by simp) hopen
  · exact absurd hlost (hnone message)

theorem Reachable.run (hm : m.Reachable) (run : Run m steps n) : n.Reachable := by
  obtain ⟨settings, prior, before⟩ := hm
  exact ⟨settings, prior ++ steps, before.append run⟩

theorem stage_of_connect (h : (m.carryOut op).Runs acts n) (hro : (r, o) ∈ calls acts)
    (hr : r.command = .connect) : m.stage = .connecting := by
  obtain rfl := eq_tick_of_connect h hro hr
  obtain ⟨-, a, -, -, hphase, -⟩ := (turn_tick h).1.attach_of_connect hro hr
  rw [← stage_greeted, stage, hphase]
  rfl

/-- After the session was given up, for a lost card as for any other reason, the device is opened
again before the next connect request exactly if it was not open or a call has closed it in between.
From an initialization the way leads through a teardown, which asks for the closing, so that only a
closing that was not answered keeps the device; from an attachment it leads straight to rest, with
the device still taken for open. -/
theorem reopened_iff (hk : k.Reachable) (htick : (k.carryOut .tick).Runs acts k')
    (hlost : k.GivesUp (calls acts) message) (run : Run k' after m)
    (hlast : (m.carryOut op).Runs last n) (hro : (r, o) ∈ calls last) (hr : r.command = .connect) :
    ((∃ call ∈ calls (actsOf after), call.1.command = .deviceOpen) ↔
        k'.driver.record.deviceOpen = false ∨
          ∃ call ∈ calls (actsOf after), ClosesDevice call) ∧
      (k.stage = .initializing → k'.stage = .disconnecting ∧
        ((∃ call ∈ calls (actsOf after), call.1.command = .deviceOpen) ∨
          ∃ call ∈ calls (actsOf after), call.1.command = .deviceClose ∧
            ∀ reply, call.2 ≠ .reply reply)) ∧
      (k.stage = .connecting → k'.stage = .ready ∧ k'.driver.record.deviceOpen = true) := by
  have hm : m.Reachable := (hk.step htick).run run
  have hconnecting := stage_of_connect hlast hro hr
  have hopen : m.driver.record.deviceOpen = true := (hm.sound.isOpen (.inr (.inl hconnecting))).2.1
  have hflag := (flagAfter_run run).mp hopen
  have hiff : (∃ call ∈ calls (actsOf after), call.1.command = .deviceOpen) ↔
      k'.driver.record.deviceOpen = false ∨ ∃ call ∈ calls (actsOf after), ClosesDevice call := by
    refine ⟨closed_of_opening_run run, fun hclosed => ?_⟩
    rcases hflag with ⟨hup, hnone⟩ | hopened
    · rcases hclosed with hdown | ⟨call, hcall, hcloses⟩
      · simp [hup] at hdown
      · exact absurd hcloses (hnone call hcall)
    · exact hopened.exists_call
  have hleaves := leaves_of_givesUp hk htick hlost
  refine ⟨hiff, fun hs => ?_, fun hs => ?_⟩
  · rcases hleaves with ⟨-, hbegins⟩ | ⟨hs', -⟩
    · have hteardown := hbegins.inTeardown
      refine ⟨hteardown.stage_eq, ?_⟩
      by_cases hopening : ∃ call ∈ calls (actsOf after), call.1.command = .deviceOpen
      · exact .inl hopening
      obtain ⟨hup, hnone⟩ := not_or.mp (mt hiff.mpr hopening)
      rcases close_sent_of_run hteardown (by simpa using hup) run with
        ⟨call, hcall, hc⟩ | ⟨i, -, hstill, -⟩
      · refine .inr ⟨call, hcall, hc, fun reply ho => hnone ⟨call, hcall, .inl ⟨hc, reply, ho⟩⟩⟩
      · simp [hstill.stage_eq] at hconnecting
    · simp [hs] at hs'
  · rcases hleaves with ⟨hs', -⟩ | ⟨-, hrest⟩
    · simp [hs] at hs'
    · exact hrest

/-- A tick that finds the card pulled: whatever is asked of it, the device is missing. -/
def pulled (m : Machine) : Machine × List Act :=
  (m.carryOut .tick).run (recorder fun _ => .reply ⟨.deviceMissing, .nothing⟩) []

/-- The way back up after the card was put in again. -/
def reinsertion (ticks : Nat) : Plan :=
  (.notice (.insertRemove true), obligingCard) :: List.replicate ticks (.tick, obligingCard)

/-- The first initialization, with the device open and all channels subscribed to. -/
def subscribed : Machine := ((start {}).rehearse (ascent 12)).2

/-- A teardown that was answered has the device opened again on the way back. -/
theorem reopened_iff_subscribed :
    ∃ acts k' after m last n, (subscribed.carryOut .tick).Runs acts k' ∧ Run k' after m ∧
      (m.carryOut .tick).Runs last n ∧ (∃ call ∈ calls last, call.1.command = .connect) ∧
      ∃ call ∈ calls (actsOf after), call.1.command = .deviceOpen := by
  have hreach : subscribed.Reachable := ⟨{}, _, run_rehearse (start {}) (ascent 12)⟩
  have htick : (subscribed.carryOut .tick).Runs subscribed.pulled.2 subscribed.pulled.1 :=
    Dialog.runs_recorder _ _
  have hcalls : calls subscribed.pulled.2 =
      [(⟨.deviceStatus, .nothing⟩, .reply ⟨.deviceMissing, .nothing⟩)] := by decide +kernel
  have hlost : subscribed.GivesUp (calls subscribed.pulled.2) .cardMissing := by
    rw [hcalls]
    exact .bringup (b := ⟨⟨some 11⟩, 0⟩) rfl rfl (.lost (by decide) rfl)
  have hrun := run_rehearse subscribed.pulled.1 (reinsertion 29)
  have hlast := Dialog.runs_recorder
    ((subscribed.pulled.1.rehearse (reinsertion 29)).2.carryOut .tick) obligingCard
  have hconnect : (⟨.connect, .connect "CLEAR" 1 ""⟩, .reply ⟨.success, .nothing⟩) ∈
      calls (((subscribed.pulled.1.rehearse (reinsertion 29)).2.carryOut .tick).run
        (recorder obligingCard) []).2 := by decide +kernel
  obtain ⟨hiff, -, -⟩ := reopened_iff hreach htick hlost hrun hlast hconnect rfl
  refine ⟨_, _, _, _, _, _, htick, hrun, hlast, ⟨_, hconnect, rfl⟩, hiff.mpr (.inr ?_)⟩
  refine ⟨(⟨.deviceClose, .nothing⟩, .reply ⟨.success, .nothing⟩), by decide +kernel, ?_⟩
  exact .inl ⟨rfl, _, rfl⟩

/-- The first attachment, about to send its request. -/
def aboutToConnect : Machine := ((start {}).rehearse (ascent 18)).2

/-- A card is pulled while the session connects and put in again: the next connect request goes to
the lost device. -/
theorem exists_reused_device :
    ∃ acts k' message after m last n, aboutToConnect.Reachable ∧
      (aboutToConnect.carryOut .tick).Runs acts k' ∧
      aboutToConnect.GivesUp (calls acts) message ∧
      (message = .cardInvalid ∨ message = .cardMissing) ∧ Run k' after m ∧
      (m.carryOut .tick).Runs last n ∧ (∃ call ∈ calls last, call.1.command = .connect) ∧
      ∀ call ∈ calls (actsOf after), call.1.command ≠ .deviceOpen := by
  have htick : (aboutToConnect.carryOut .tick).Runs aboutToConnect.pulled.2
      aboutToConnect.pulled.1 := Dialog.runs_recorder _ _
  have hcalls : calls aboutToConnect.pulled.2 =
      [(⟨.connect, .connect "CLEAR" 1 ""⟩, .reply ⟨.deviceMissing, .nothing⟩)] := by
    decide +kernel
  have hlost : aboutToConnect.GivesUp (calls aboutToConnect.pulled.2) .cardMissing := by
    rw [hcalls]
    exact .attach (a := {}) rfl rfl (.inl rfl) rfl
  refine ⟨_, _, _, _, _, _, _, ⟨{}, _, run_rehearse (start {}) (ascent 18)⟩, htick, hlost,
    .inr rfl, run_rehearse aboutToConnect.pulled.1 (reinsertion 18),
    Dialog.runs_recorder _ obligingCard, ?_, ?_⟩
  · decide +kernel
  · decide +kernel

end Machine

end Wimax
