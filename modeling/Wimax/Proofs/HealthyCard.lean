import Wimax.Bench
import Wimax.Proofs.Steps

/-!
What the steps of the phases come to against a healthy card. Such a card answers every call at once
and with success, except that without a connection it has no figures of one.
-/

namespace Wimax

/-- The calls were answered by a healthy card, connected or not as the flags before and after them
say. -/
def Answered (linkRssi : UInt8) : Bool → List (Request × Outcome) → Bool → Prop
  | before, [], after => before = after
  | before, (r, o) :: cs, after =>
    let reply := Card.healthyReply before linkRssi r.command
    o = .reply reply ∧
      Answered linkRssi (Card.connectedAfter before r.command reply.response) cs after

namespace Answered

variable {linkRssi : UInt8} {before after : Bool} {cs ds : List (Request × Outcome)}

theorem append_iff :
    Answered linkRssi before (cs ++ ds) after ↔
      ∃ mid, Answered linkRssi before cs mid ∧ Answered linkRssi mid ds after := by
  induction cs generalizing before with
  | nil => simp [Answered]
  | cons call cs ih => simp [Answered, ih, and_assoc]

theorem of_bind {α β : Type} {d : Dialog α} {f : α → Dialog β} {acts : List Act} {b : β}
    (h : (d >>= f).Runs acts b) (ha : Answered linkRssi before (calls acts) after) :
    ∃ a first rest mid, d.Runs first a ∧ Answered linkRssi before (calls first) mid ∧
      (f a).Runs rest b ∧ Answered linkRssi mid (calls rest) after := by
  obtain ⟨a, first, rest, rfl, hfirst, hrest⟩ := Dialog.runs_bind_iff.mp h
  rw [calls_append] at ha
  obtain ⟨mid, hanswered, hlast⟩ := append_iff.mp ha
  exact ⟨a, first, rest, mid, hfirst, hanswered, hrest, hlast⟩

end Answered

namespace Card

@[simp]
theorem response_healthyReply_deviceStatus (connected : Bool) (linkRssi : UInt8) :
    (healthyReply connected linkRssi .deviceStatus).response = .success := by
  cases connected <;> rfl

@[simp]
theorem response_healthyReply_linkStatus (connected : Bool) (linkRssi : UInt8) :
    (healthyReply connected linkRssi .linkStatus).response =
      if connected then .success else .linkNotConnected := by
  cases connected <;> rfl

end Card

namespace Bench

/-- No call will meet anything but the card's own answers. -/
structure Healthy (b : Bench) : Prop where
  cues : b.card.cues = []
  standing : b.card.standing = []

theorem Healthy.answer {b : Bench} (h : b.Healthy) (limit : Option Nat) (r : Request) :
    let reply := Card.healthyReply b.card.connected b.card.linkRssi r.command
    let after := ((world limit).answer b r).2
    ((world limit).answer b r).1 = .reply reply ∧ after.Healthy ∧
      after.card.linkRssi = b.card.linkRssi ∧
      after.card.connected = Card.connectedAfter b.card.connected r.command reply.response := by
  have hbegin : b.card.begin r =
      (.ended (.reply (Card.healthyReply b.card.connected b.card.linkRssi r.command)),
        { b.card with
          log := r :: b.card.log
          connected := Card.connectedAfter b.card.connected r.command
            (Card.healthyReply b.card.connected b.card.linkRssi r.command).response }) := by
    simp [Card.begin, Card.takeCue, Card.answerUncued, Card.answer, Card.uncuedReply, h.cues,
      h.standing]
  simp only [world, begin, hbegin, true_and, and_true]
  exact ⟨h.cues, h.standing⟩

end Bench

/-- On a bench with a healthy card a dialog has a history that the card has answered. -/
theorem Dialog.answered_onBench {α : Type} (d : Dialog α) (limit : Option Nat) {b : Bench}
    (h : b.Healthy) :
    (d.onBench limit b).2.Healthy ∧ (d.onBench limit b).2.card.linkRssi = b.card.linkRssi ∧
      ∃ acts, d.Runs acts (d.onBench limit b).1 ∧
        Answered b.card.linkRssi b.card.connected (calls acts)
          (d.onBench limit b).2.card.connected := by
  unfold onBench
  induction d generalizing b with
  | done a => exact ⟨h, rfl, [], .done a, rfl⟩
  | ask r next ih =>
    obtain ⟨hreply, hhealthy, hrssi, hconnected⟩ := h.answer limit r
    obtain ⟨hlast, hsame, acts, hruns, hanswered⟩ := ih _ hhealthy
    refine ⟨hlast, hsame.trans hrssi, _, .ask r next _ acts _ hruns, hreply, ?_⟩
    rwa [hrssi, hconnected] at hanswered
  | publish e next ih =>
    obtain ⟨hlast, hsame, acts, hruns, hanswered⟩ := ih (b := b.publish e) ⟨h.cues, h.standing⟩
    exact ⟨hlast, hsame, _, .publish e next acts _ hruns, hanswered⟩

namespace Record

section Healthy

variable (r : Record) (connected : Bool) (linkRssi : UInt8)

@[simp]
theorem cardListed_afterCall_healthy :
    (r.afterCall .listDevices (.reply (Card.healthyReply connected linkRssi .listDevices))).cardListed
      = true := rfl

@[simp]
theorem networks_afterCall_healthy :
    (r.afterCall .networkList (.reply (Card.healthyReply connected linkRssi .networkList))).networks
      = [Card.builtinNetwork "CLEAR" 1] := rfl

@[simp]
theorem status_afterCall_healthy :
    (r.afterCall .deviceStatus (.reply (Card.healthyReply connected linkRssi .deviceStatus))).status
      = some (if connected then .dataConnected else .ready) := by
  cases connected <;> rfl

@[simp]
theorem phase_afterCall_healthy :
    (r.afterCall .deviceStatus (.reply (Card.healthyReply connected linkRssi .deviceStatus))).phase
      = if connected then some .registered else none := by
  cases connected <;> rfl

@[simp]
theorem link_afterCall_healthy :
    (r.afterCall .linkStatus (.reply (Card.healthyReply connected linkRssi .linkStatus))).link
      = if connected then some (Card.builtinLink linkRssi) else none := by
  cases connected <;> rfl

end Healthy

end Record

namespace Driver

variable {d d' : Driver} {c : Command} {args : Args} {acts : List Act} {r : Response}
  {linkRssi : UInt8} {before after : Bool}

theorem answered_attempt (h : (d.attempt c args).Runs acts (d', r))
    (ha : Answered linkRssi before (calls acts) after) :
    (d.settled? c args = some (d', r) ∧ after = before) ∨
      (d.settled? c args = none ∧
        d' = d.afterCall c (.reply (Card.healthyReply before linkRssi c)) ∧
        r = (Card.healthyReply before linkRssi c).response ∧
        after = Card.connectedAfter before c r) := by
  rcases runs_attempt h with ⟨hs, rfl⟩ | ⟨o, hs, rfl, rfl, rfl⟩
  · exact .inl ⟨hs, Eq.symm ha⟩
  · obtain ⟨rfl, hafter⟩ := ha
    exact .inr ⟨hs, rfl, rfl, Eq.symm hafter⟩

theorem answered_attempt_of_asks (h : (d.attempt c args).Runs acts (d', r))
    (ha : Answered linkRssi before (calls acts) after) (hc : alwaysAsks c = true)
    (hapi : c.needsOpenApi = true → d.record.apiOpen = true) :
    d' = d.afterCall c (.reply (Card.healthyReply before linkRssi c)) ∧
      r = (Card.healthyReply before linkRssi c).response ∧
      after = Card.connectedAfter before c r := by
  rcases answered_attempt h ha with ⟨hs, -⟩ | ⟨-, hasked⟩
  · simp [settled?_of_alwaysAsks hc hapi] at hs
  · exact hasked

end Driver

namespace Bringup

variable {b : Bringup} {d d' : Driver} {c : Command} {budget i : Nat} {acts : List Act}
  {r : Response} {s : Step Bringup} {linkRssi : UInt8} {before after : Bool}

theorem response_healthyReply (hc : c ∈ script) (connected : Bool) (linkRssi : UInt8) :
    (Card.healthyReply connected linkRssi c).response = .success := by
  cases c with
  | subscribe ch => rfl
  | deviceStatus => cases connected <;> rfl
  | _ => first | rfl | simp [script] at hc

theorem response_of_answered (hc : c ∈ script)
    (hapi : c.needsOpenApi = true → d.record.apiOpen = true)
    (h : (d.attempt c .nothing).Runs acts (d', r))
    (ha : Answered linkRssi before (calls acts) after) : r = .success := by
  rcases Driver.answered_attempt h ha with ⟨hs, -⟩ | ⟨-, -, rfl, -⟩
  · exact response_of_settled? hc hapi hs
  · exact response_healthyReply hc before linkRssi

theorem afterSuccess_of_answered (b : Bringup) (budget : Nat) (hc : c ∈ script)
    (hapi : c.needsOpenApi = true → d.record.apiOpen = true)
    (h : (d.attempt c .nothing).Runs acts (d', r))
    (ha : Answered linkRssi before (calls acts) after) :
    ∃ idleScans, b.afterSuccess d' c budget = Bringup.forward { b with idleScans } d' := by
  by_cases hread : c = .listDevices ∨ c = .deviceStatus ∨ c = .networkList
  · obtain ⟨rfl, -, -⟩ := Driver.answered_attempt_of_asks h ha
      (by rcases hread with rfl | rfl | rfl <;> rfl) hapi
    rcases hread with rfl | rfl | rfl
    · exact ⟨b.idleScans, by simp [afterSuccess]⟩
    · refine ⟨b.idleScans, ?_⟩
      cases before <;> simp [afterSuccess, afterStatus]
    · exact ⟨0, by simp [afterSuccess]⟩
  · have hplain : b.afterSuccess d' c budget = b.forward d' := by
      cases c <;> first | rfl | simp at hread
    exact ⟨b.idleScans, hplain⟩

theorem step_of_answered (hapi : ∀ c, script[b.cursor.place]? = some c → c.needsOpenApi = true →
      d.record.apiOpen = true)
    (h : (b.step d budget).Runs acts s) (ha : Answered linkRssi before (calls acts) after) :
    (s.verdict = .underway ∧ s.phase.cursor.place = b.cursor.place + 1 ∧ b.cursor.place < 15 ∨
        s.verdict = .finished ∧ b.cursor.place = 15) ∧
      if b.cursor.place = 14 then s.driver.record.networks ≠ []
      else s.driver.record.networks = d.record.networks := by
  obtain ⟨c, d₁, r, first, rest, hc, rfl, hattempt, hrest⟩ := runs_step h
  rw [calls_append] at ha
  obtain ⟨mid, hfirst, -⟩ := Answered.append_iff.mp ha
  have hmem := List.mem_of_getElem? hc
  obtain rfl := response_of_answered hmem (hapi c hc) hattempt hfirst
  obtain ⟨idleScans, hforward⟩ := afterSuccess_of_answered { b with cursor := b.cursor.placed } budget
    hmem (hapi c hc) hattempt hfirst
  simp only [afterResponse, ↓reduceIte, hforward] at hrest
  obtain ⟨-, rfl⟩ := Dialog.runs_done_iff.mp hrest
  have hlt := b.place_lt
  constructor
  · by_cases hnext : b.cursor.place + 1 < script.length
    · have hlt : b.cursor.place < 15 := Nat.lt_of_succ_lt_succ hnext
      refine .inl ⟨?_, ?_, hlt⟩
      · simp [forward, Cursor.forward_placed, hnext]
      · simp [forward, Cursor.forward_placed, hnext, Cursor.place_some hnext]
    · have hlast : b.cursor.place = 15 := by
        have hlength : script.length = 16 := rfl
        omega
      exact .inr ⟨by simp [forward, Cursor.forward_placed, hnext], hlast⟩
  · split
    · next hplace =>
      have hlist : script[14]? = some c := hplace ▸ hc
      obtain rfl : Command.networkList = c := Option.some.inj hlist
      obtain ⟨rfl, -, -⟩ := Driver.answered_attempt_of_asks hattempt hfirst rfl (hapi _ hc)
      simp [forward]
    · next hplace =>
      refine (Driver.served_attempt hattempt).networks ?_
      rintro rfl
      have honly : ∀ i < 16, script[i]? = some .networkList → i = 14 := by decide
      exact hplace (honly _ hlt hc)

end Bringup

namespace Attach

variable {a : Attach} {d : Driver} {preferred : String} {acts : List Act} {s : Step Attach}
  {linkRssi : UInt8} {before after : Bool}

theorem target?_eq_none {r : Record} : target? r preferred = none ↔ r.networks = [] := by
  cases hr : r.networks <;> simp [target?, Record.findNetwork?, hr]

theorem request_of_answered (hplace : a.cursor.place = 0)
    (h : (request ⟨a.cursor.placed⟩ d preferred).Runs acts s)
    (ha : Answered linkRssi before (calls acts) after) :
    s.driver.record.networks = d.record.networks ∧
      if d.record.networks = [] then s.verdict = .scanning
      else s.verdict = .underway ∧ s.phase.cursor.place = 1 ∧ after = true := by
  unfold request at h
  split at h
  · next htarget =>
    obtain ⟨-, rfl⟩ := Dialog.runs_done_iff.mp h
    rw [if_pos (target?_eq_none.mp htarget)]
    exact ⟨rfl, rfl⟩
  · next network htarget =>
    have hne : d.record.networks ≠ [] := by
      intro he
      simp [target?_eq_none.mpr he] at htarget
    obtain ⟨⟨d₁, r⟩, first, rest, mid, hattempt, hfirst, hrest, hlast⟩ := Answered.of_bind h ha
    have hnetworks := (Driver.served_attempt hattempt).networks (by decide)
    obtain ⟨-, rfl, rfl⟩ := Driver.answered_attempt_of_asks hattempt hfirst rfl
      (by simp [Command.needsOpenApi])
    have hsuccess : (Card.healthyReply before linkRssi .connect).response = .success := rfl
    simp only [hsuccess, true_or, ↓reduceIte] at hrest
    obtain ⟨rfl, rfl⟩ := Dialog.runs_done_iff.mp hrest
    rw [if_neg hne]
    refine ⟨hnetworks, rfl, ?_, ?_⟩
    · simp only [forward, Cursor.forward_placed, hplace]
      rfl
    · rw [← hlast, hsuccess]
      simp [Card.connectedAfter]

theorem checkRadio_of_answered (hapi : d.record.apiOpen = true) (hplace : a.cursor.place = 1)
    (h : (checkRadio ⟨a.cursor.placed⟩ d).Runs acts s)
    (ha : Answered linkRssi before (calls acts) after) :
    s.driver.record.networks = d.record.networks ∧ s.verdict = .underway ∧
      s.phase.cursor.place = 2 ∧ after = before := by
  obtain ⟨⟨d₁, r⟩, first, rest, mid, hattempt, hfirst, hrest, hlast⟩ := Answered.of_bind h ha
  have hnetworks := (Driver.served_attempt hattempt).networks (by decide)
  obtain ⟨rfl, rfl, hmid⟩ := Driver.answered_attempt_of_asks hattempt hfirst rfl fun _ => hapi
  obtain rfl : before = mid := hmid.symm
  have hforward : ∀ d, d.record.status = some (if before then .dataConnected else .ready) →
      d.record.phase = (if before then some .registered else none) →
      Attach.afterStatus ⟨a.cursor.placed⟩ d = Attach.forward ⟨a.cursor.placed⟩ d := by
    intro d hstatus hphase
    cases before <;> simp [afterStatus, hstatus, hphase]
  simp only [Card.response_healthyReply_deviceStatus, Response.meansCardLost, Bool.false_eq_true,
    ↓reduceIte] at hrest
  obtain ⟨rfl, rfl⟩ := Dialog.runs_done_iff.mp hrest
  rw [hforward _ (by simp) (by simp)]
  refine ⟨hnetworks, rfl, ?_, Eq.symm hlast⟩
  simp only [forward, Cursor.forward_placed, hplace]
  rfl

theorem finish_of_answered (h : (a.finish d).Runs acts s)
    (ha : Answered linkRssi before (calls acts) after) :
    s.driver.record.networks = d.record.networks ∧ s.verdict = .finished ∧ after = before := by
  obtain ⟨⟨d₁, r⟩, first, rest, mid, hattempt, hfirst, hrest, hlast⟩ := Answered.of_bind h ha
  obtain ⟨rfl, rfl⟩ := Dialog.runs_done_iff.mp hrest
  obtain ⟨-, -, hmid⟩ := Driver.answered_attempt_of_asks hattempt hfirst rfl
    (by simp [Command.needsOpenApi])
  have hafter : mid = after := hlast
  exact ⟨(Driver.served_attempt hattempt).networks (by decide), rfl, hafter.symm.trans hmid⟩

theorem checkLink_of_answered (h : (a.checkLink d).Runs acts s)
    (ha : Answered linkRssi before (calls acts) after) :
    s.driver.record.networks = d.record.networks ∧ after = before ∧
      s.verdict = if before then .finished else .scanning := by
  obtain ⟨⟨d₁, r⟩, first, rest, mid, hattempt, hfirst, hrest, hlast⟩ := Answered.of_bind h ha
  have hnetworks := (Driver.served_attempt hattempt).networks (by decide)
  obtain ⟨rfl, rfl, hmid⟩ := Driver.answered_attempt_of_asks hattempt hfirst rfl
    (by simp [Command.needsOpenApi])
  obtain rfl : before = mid := hmid.symm
  cases before with
  | true =>
    simp only [Card.response_healthyReply_linkStatus, ↓reduceIte] at hrest
    obtain ⟨hfinish, hverdict, hafter⟩ := finish_of_answered hrest hlast
    exact ⟨hfinish.trans hnetworks, hafter, hverdict⟩
  | false =>
    simp at hrest
    obtain ⟨rfl, rfl⟩ := hrest
    exact ⟨hnetworks, Eq.symm hlast, rfl⟩

end Attach

namespace Monitor

variable {w : Monitor} {d : Driver} {acts : List Act} {s : Step Monitor} {sample : Option Int}
  {linkRssi : UInt8} {before after : Bool}

theorem step_of_answered (hapi : d.record.apiOpen = true)
    (h : (w.step d).Runs acts (s, sample)) (ha : Answered linkRssi before (calls acts) after) :
    s.driver.record.networks = d.record.networks ∧ after = before ∧
      if w.cursor.place = 0 then s.verdict = if before then .underway else .failed
      else s.verdict = .finished ∧ s.phase.cursor.place = 0 := by
  obtain ⟨c, d₁, r, hc, hattempt, hend⟩ := runs_step h
  have hlt := w.place_lt
  have hscript : c = .deviceStatus ∨ c = .linkStatus := by
    simpa [script] using List.mem_of_getElem? hc
  have hnetworks : d₁.record.networks = d.record.networks :=
    (Driver.served_attempt hattempt).networks (by rcases hscript with rfl | rfl <;> decide)
  obtain ⟨rfl, rfl, rfl⟩ := Driver.answered_attempt_of_asks hattempt ha
    (by rcases hscript with rfl | rfl <;> rfl) fun _ => hapi
  rcases hend with ⟨rfl, -, rfl⟩ | ⟨hne, -, rfl⟩
  · have hplace : w.cursor.place = 0 := by
      have honly : ∀ i < 2, script[i]? = some .deviceStatus → i = 0 := by decide
      exact honly _ hlt hc
    rw [driver_afterStatus, if_pos hplace]
    refine ⟨hnetworks, rfl, ?_⟩
    cases before <;> simp [afterStatus, RadioStatus.isUnsettled]
  · have hplace : w.cursor.place = 1 := by
      have honly : ∀ i < 2, script[i]? ≠ some .deviceStatus → i = 1 := by decide
      exact honly _ hlt (by rw [hc]; simpa using hne)
    obtain rfl := hscript.resolve_left hne
    rw [if_neg (by omega)]
    refine ⟨hnetworks, rfl, rfl, ?_⟩
    simp only [endRound, Cursor.forward_placed, hplace]
    rfl

end Monitor

end Wimax
