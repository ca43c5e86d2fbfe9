import Wimax.Proofs.Moves

/-!
Notices of the driver. A notice moves the goal of a session and what is known of the card, and
nothing else. Some notices cost a look for the card, whose enumeration then decides about the goal.
-/

namespace Wimax

/-- The events that observers hear of. -/
def published (acts : List Act) : List Event :=
  acts.filterMap fun
    | .publish e => some e
    | .call .. => none

@[simp]
theorem published_nil : published [] = [] := rfl

@[simp]
theorem published_publish (e : Event) (acts : List Act) :
    published (.publish e :: acts) = e :: published acts := rfl

@[simp]
theorem published_append (acts more : List Act) :
    published (acts ++ more) = published acts ++ published more := by simp [published]

theorem Dialog.CallsOnly.published {α : Type} {p : Command → Prop} {d : Dialog α}
    (h : d.CallsOnly p) {acts : List Act} {a : α} (run : d.Runs acts a) : published acts = [] := by
  refine List.filterMap_eq_nil_iff.mpr fun act hact => ?_
  obtain ⟨r, o, rfl, -⟩ := h.acts run act hact
  rfl

/-- The calls end with an enumeration that was answered with success and lists a card. -/
def findsCard (cs : List (Request × Outcome)) : Bool :=
  match cs.getLast? with
  | some (r, .reply reply) =>
    r.command == .listDevices && reply.response.isSuccess && !reply.payload.devicesOrNil.isEmpty
  | _ => false

theorem findsCard_append_singleton (cs : List (Request × Outcome)) (call : Request × Outcome) :
    findsCard (cs ++ [call]) = findsCard [call] := by
  simp [findsCard]

namespace Record

/-- The records differ at most in what a notice or a look for the card can tell: the presence of the
card, the enumeration, the identity and whether the interface is open. -/
def AgreeButCard (r r' : Record) : Prop :=
  r' = { r with
    present := r'.present
    devices := r'.devices
    identity := r'.identity
    apiOpen := r'.apiOpen }

theorem AgreeButCard.refl (r : Record) : r.AgreeButCard r := rfl

theorem AgreeButCard.trans {r₁ r₂ r₃ : Record} (h₁ : r₁.AgreeButCard r₂)
    (h₂ : r₂.AgreeButCard r₃) : r₁.AgreeButCard r₃ := by
  unfold AgreeButCard at *
  rw [h₂, h₁]

theorem agreeButCard_present (r : Record) (present : Option Bool) :
    r.AgreeButCard { r with present } := rfl

theorem agreeButCard_afterCall (r : Record) {c : Command} (hc : Driver.looksForCard c)
    (o : Outcome) : r.AgreeButCard (r.afterCall c o) := by
  rcases hc with rfl | rfl <;> cases o <;> rfl

end Record

namespace Driver

variable {d d' : Driver} {c : Command} {args : Args} {response : Response} {acts : List Act}

theorem agreeButCard_attempt (hc : looksForCard c)
    (h : (d.attempt c args).Runs acts (d', response)) :
    d'.settings = d.settings ∧ d.record.AgreeButCard d'.record := by
  have hserved := served_attempt h
  refine ⟨hserved.settings, ?_⟩
  rcases hserved with rfl | ⟨o, rfl⟩
  · exact .refl _
  · exact d.record.agreeButCard_afterCall hc o

theorem runs_cardPresent {present : Bool} (h : d.cardPresent.Runs acts (d', present)) :
    d'.settings = d.settings ∧ d.record.AgreeButCard d'.record ∧
      present = findsCard (calls acts) ∧
      ∃ before o, calls acts = before ++ [(⟨.listDevices, .nothing⟩, o)] := by
  obtain ⟨⟨d₁, r₁⟩, first, rest, rfl, hopen, h⟩ := Dialog.runs_bind_iff.mp h
  obtain ⟨⟨d₂, r₂⟩, list, last, rfl, hlist, h⟩ := Dialog.runs_bind_iff.mp h
  obtain ⟨rfl, he⟩ := Dialog.runs_done_iff.mp h
  obtain ⟨rfl, rfl⟩ := Prod.mk.inj he
  obtain ⟨hsettings₁, hagree₁⟩ := agreeButCard_attempt (.inl rfl) hopen
  obtain ⟨hsettings₂, hagree₂⟩ := agreeButCard_attempt (.inr rfl) hlist
  obtain ⟨o, rfl, rfl, rfl⟩ := runs_attempt_of_alwaysAsks rfl (by simp [Command.needsOpenApi]) hlist
  have hcalls : calls (first ++ ([.call ⟨.listDevices, .nothing⟩ o] ++ [])) =
      calls first ++ [(⟨.listDevices, .nothing⟩, o)] := by simp
  refine ⟨hsettings₂.trans hsettings₁, hagree₁.trans hagree₂, ?_, calls first, o, hcalls⟩
  rw [show d₁.callArgs .listDevices .nothing = .nothing from rfl, hcalls,
    findsCard_append_singleton]
  cases o with
  | reply reply =>
    by_cases hr : reply.response = .success
    · simp [findsCard, Outcome.response, Record.cardListed, Record.afterCall, Record.atCall,
        beforeCall, Record.store, Record.setDevices, Reply.successPayload, hr, Response.isSuccess]
    · have hno : reply.response.isSuccess = false := by simpa [Response.isSuccess] using hr
      simp [findsCard, Outcome.response, hno]
  | _ => rfl

end Driver

namespace Notice

/-- The event that passes a notice on to observers. -/
def event? : Notice → Option Event
  | wideScan networks => some (.wideScan networks)
  | provisioning stage _ => some (.provisioning stage.description)
  | packageUpdate stage => some (.packageUpdate stage.description)
  | _ => none

/-- The notice makes a session with the goal look for its card. -/
def looks (goal : Goal) : Notice → Bool
  | connectResult code => code == 0 && goal != .connected
  | disconnectResult code => code == 1 && goal != .disconnected
  | wideScan _ => true
  | _ => false

/-- The goal after a notice. `found` tells how a look for the card has ended. -/
def goalAfter (settings : Settings) (goal : Goal) (found : Bool) : Notice → Goal
  | insertRemove false => .ready
  | insertRemove true => if goal = .ready ∧ settings.connectOnInsert then .connected else goal
  | power state => if state = .off ∧ goal = .connected then .ready else goal
  | notice =>
    if notice.looks goal then
      if found then if goal = .ready then .connected else goal else .ready
    else goal

theorem goalAfter_of_ne_ready {settings : Settings} {goal : Goal} (h : goal ≠ .ready) (found : Bool)
    (notice : Notice) :
    notice.goalAfter settings goal found = goal ∨ notice.goalAfter settings goal found = .ready := by
  cases notice with
  | insertRemove present => cases present <;> simp [goalAfter, h]
  | power state =>
    simp only [goalAfter]
    split <;> simp
  | _ =>
    simp only [goalAfter, h, ↓reduceIte]
    split_ifs <;> simp

end Notice

namespace Machine

variable {m n : Machine} {acts : List Act} {notice : Notice}

/-- Only the goal and what is known of the card may differ. -/
structure Steered (m n : Machine) : Prop where
  eq : n = { m with driver := n.driver, goal := n.goal }
  settings : n.driver.settings = m.driver.settings
  record : m.driver.record.AgreeButCard n.driver.record

theorem Steered.refl (m : Machine) : m.Steered m := ⟨rfl, rfl, rfl⟩

theorem steered_aim (m : Machine) (g : Goal) : m.Steered (m.aim g) := ⟨rfl, rfl, rfl⟩

theorem steered_seekCard (h : m.seekCard.Runs acts n) :
    m.Steered n ∧ published acts = [] ∧
      n.goal = (if findsCard (calls acts) then if m.goal = .ready then .connected else m.goal
        else .ready) ∧
      ∃ before o, calls acts = before ++ [(⟨.listDevices, .nothing⟩, o)] := by
  obtain ⟨⟨d, present⟩, first, rest, rfl, hfirst, hrest⟩ := Dialog.runs_bind_iff.mp h
  obtain ⟨hsettings, hrecord, hpresent, hcalls⟩ := Driver.runs_cardPresent hfirst
  have hquiet := (Driver.callsOnly_cardPresent m.driver).published hfirst
  obtain ⟨rfl, rfl⟩ := Dialog.runs_done_iff.mp hrest
  rw [List.append_nil, ← hpresent]
  refine ⟨?_, hquiet, ?_, hcalls⟩
  · dsimp only
    split_ifs <;> exact ⟨rfl, hsettings, hrecord⟩
  · cases present with
    | false => rfl
    | true =>
      dsimp only
      split_ifs <;> rfl

theorem steered_noteCard (m : Machine) (present : Bool) :
    m.Steered (m.noteCard present) ∧
      (m.noteCard present).goal = (Notice.insertRemove present).goalAfter m.settings m.goal false := by
  have hrecord := m.driver.record.agreeButCard_present (some present)
  unfold noteCard
  cases present with
  | false => exact ⟨⟨rfl, rfl, hrecord⟩, rfl⟩
  | true =>
    simp only [↓reduceIte, Notice.goalAfter]
    split_ifs
    · exact ⟨⟨rfl, rfl, hrecord⟩, rfl⟩
    · exact ⟨⟨rfl, rfl, hrecord⟩, rfl⟩

/-- A session that looks for its card does so before it passes the notice on. -/
theorem handle_of_looks (hlooks : notice.looks m.goal = true) :
    m.handle notice =
      m.seekCard >>= fun n => notice.event?.elim (.done n) fun e => .publish e (.done n) := by
  cases notice with
  | connectResult code =>
    have hcode : code = 0 ∧ m.goal ≠ .connected := by simpa [Notice.looks] using hlooks
    exact (if_pos hcode).trans (Dialog.bind_done _).symm
  | disconnectResult code =>
    have hcode : code = 1 ∧ m.goal ≠ .disconnected := by simpa [Notice.looks] using hlooks
    exact (if_pos hcode).trans (Dialog.bind_done _).symm
  | wideScan networks => rfl
  | _ => simp [Notice.looks] at hlooks

theorem goalAfter_of_looks {settings : Settings} {goal : Goal} (hlooks : notice.looks goal = true)
    (found : Bool) :
    notice.goalAfter settings goal found =
      if found then if goal = .ready then .connected else goal else .ready := by
  cases notice with
  | insertRemove present => simp [Notice.looks] at hlooks
  | power state => simp [Notice.looks] at hlooks
  | _ => simp only [Notice.goalAfter, hlooks, ↓reduceIte]

theorem steered_of_not_looks (hlooks : notice.looks m.goal = false)
    (h : (m.handle notice).Runs acts n) :
    m.Steered n ∧ published acts = notice.event?.toList ∧ calls acts = [] ∧
      n.goal = notice.goalAfter m.settings m.goal false := by
  cases notice with
  | insertRemove present =>
    obtain ⟨rfl, rfl⟩ := Dialog.runs_done_iff.mp h
    obtain ⟨hsteered, hgoal⟩ := steered_noteCard m present
    exact ⟨hsteered, rfl, rfl, hgoal⟩
  | power state =>
    obtain ⟨rfl, rfl⟩ := Dialog.runs_done_iff.mp h
    dsimp only [Notice.goalAfter]
    split_ifs
    · exact ⟨steered_aim m .ready, rfl, rfl, rfl⟩
    · exact ⟨.refl m, rfl, rfl, rfl⟩
  | connectResult code =>
    have hcode : ¬(code = 0 ∧ m.goal ≠ .connected) := by simpa [Notice.looks] using hlooks
    rw [handle, if_neg hcode] at h
    obtain ⟨rfl, rfl⟩ := Dialog.runs_done_iff.mp h
    exact ⟨.refl n, rfl, rfl, (if_neg (by simp [hlooks])).symm⟩
  | disconnectResult code =>
    have hcode : ¬(code = 1 ∧ m.goal ≠ .disconnected) := by simpa [Notice.looks] using hlooks
    rw [handle, if_neg hcode] at h
    obtain ⟨rfl, rfl⟩ := Dialog.runs_done_iff.mp h
    exact ⟨.refl n, rfl, rfl, (if_neg (by simp [hlooks])).symm⟩
  | wideScan networks => simp [Notice.looks] at hlooks
  | provisioning stage kind =>
    obtain ⟨last, rfl, hlast⟩ := Dialog.runs_publish_iff.mp h
    obtain ⟨rfl, rfl⟩ := Dialog.runs_done_iff.mp hlast
    exact ⟨.refl n, rfl, rfl, rfl⟩
  | packageUpdate stage =>
    obtain ⟨last, rfl, hlast⟩ := Dialog.runs_publish_iff.mp h
    obtain ⟨rfl, rfl⟩ := Dialog.runs_done_iff.mp hlast
    exact ⟨.refl n, rfl, rfl, rfl⟩
  | statusChange status reason phase =>
    obtain ⟨rfl, rfl⟩ := Dialog.runs_done_iff.mp h
    exact ⟨.refl n, rfl, rfl, rfl⟩

theorem steered_of_looks (hlooks : notice.looks m.goal = true)
    (h : (m.handle notice).Runs acts n) :
    m.Steered n ∧ published acts = notice.event?.toList ∧
      (∃ before o, calls acts = before ++ [(⟨.listDevices, .nothing⟩, o)]) ∧
      n.goal = notice.goalAfter m.settings m.goal (findsCard (calls acts)) := by
  rw [handle_of_looks hlooks] at h
  rw [goalAfter_of_looks hlooks]
  obtain ⟨k, first, rest, rfl, hfirst, hrest⟩ := Dialog.runs_bind_iff.mp h
  obtain ⟨hsteered, hquiet, hgoal, hcalls⟩ := steered_seekCard hfirst
  cases hevent : notice.event? with
  | none =>
    rw [hevent] at hrest
    obtain ⟨rfl, rfl⟩ := Dialog.runs_done_iff.mp hrest
    simpa [hquiet] using ⟨hsteered, hcalls, hgoal⟩
  | some e =>
    rw [hevent] at hrest
    obtain ⟨last, rfl, hlast⟩ := Dialog.runs_publish_iff.mp hrest
    obtain ⟨rfl, rfl⟩ := Dialog.runs_done_iff.mp hlast
    simpa [hquiet] using ⟨hsteered, hcalls, hgoal⟩

/-- A notice only moves the goal and what is known of the card, and passes on what it has for
observers. The goal goes by the notice and, where that makes the session look for its card, by a
fresh enumeration; no goal but rest is ever raised. -/
theorem notice_steers (h : (m.handle notice).Runs acts n) :
    n = { m with driver := n.driver, goal := n.goal } ∧
      n.driver.settings = m.driver.settings ∧
      n.driver.record =
        { m.driver.record with
          present := n.driver.record.present
          devices := n.driver.record.devices
          identity := n.driver.record.identity
          apiOpen := n.driver.record.apiOpen } ∧
      published acts = notice.event?.toList ∧
      (if notice.looks m.goal then
        ∃ before o, calls acts = before ++ [(⟨.listDevices, .nothing⟩, o)]
      else calls acts = []) ∧
      n.goal = notice.goalAfter m.settings m.goal (findsCard (calls acts)) ∧
      (m.goal ≠ .ready → n.goal = m.goal ∨ n.goal = .ready) := by
  have hall : m.Steered n ∧ published acts = notice.event?.toList ∧
      (if notice.looks m.goal then
        ∃ before o, calls acts = before ++ [(⟨.listDevices, .nothing⟩, o)]
      else calls acts = []) ∧
      n.goal = notice.goalAfter m.settings m.goal (findsCard (calls acts)) := by
    cases hlooks : notice.looks m.goal with
    | true => exact steered_of_looks hlooks h
    | false =>
      obtain ⟨hsteered, hevents, hcalls, hgoal⟩ := steered_of_not_looks hlooks h
      exact ⟨hsteered, hevents, hcalls, by rw [hgoal, hcalls]; rfl⟩
  obtain ⟨hsteered, hevents, hcalls, hgoal⟩ := hall
  refine ⟨hsteered.eq, hsteered.settings, hsteered.record, hevents, hcalls, hgoal, ?_⟩
  intro hready
  rw [hgoal]
  exact Notice.goalAfter_of_ne_ready hready _ notice

/-- A scan that ends in the middle of an initialization, with a card that answers no more. -/
theorem notice_steers_midway :
    ∃ acts n, (((start {}).rehearse (ascent 6)).2.handle (.wideScan [])).Runs acts n ∧
      n.phase = ((start {}).rehearse (ascent 6)).2.phase ∧ n.goal = .ready ∧
      published acts = [.wideScan []] := by
  have hrun := Dialog.runs_recorder
    (((start {}).rehearse (ascent 6)).2.handle (.wideScan [])) fun _ => .timedOut
  obtain ⟨hn, -, -, hevents, -, hgoal, -⟩ := notice_steers hrun
  refine ⟨_, _, hrun, by rw [hn], hgoal.trans (by decide +kernel), hevents⟩

end Machine

end Wimax
