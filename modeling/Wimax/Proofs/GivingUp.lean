import Wimax.Proofs.Notices
import Wimax.Proofs.OpenDriver

/-!
Giving up. A tick ends the session for good when its step meets a failure that repeating it cannot
mend, and the message that it leaves tells which.
-/

namespace Wimax

/-- The message of a session that is given up over a command, by the response and by the calls that
have followed: they tell a broken card from a pulled one. -/
def Message.ofFailure (c : Command) (response : Response) (later : List (Request × Outcome)) :
    Message :=
  if response.meansCardLost then
    if response = .invalidDevice ∧ findsCard later then .cardInvalid else .cardMissing
  else if c = .networkList then .noNetwork
  else if c = .listDevices then .deviceRemoved
  else .callFailure

theorem Message.text_ofFailure_iff {c : Command} {response : Response}
    {later : List (Request × Outcome)} :
    (Message.ofFailure c response later).text = "Card is invalid." ↔
      response = .invalidDevice ∧ findsCard later = true := by
  unfold ofFailure
  split_ifs with hl hinvalid hn hd
  · exact iff_of_true rfl hinvalid
  · exact iff_of_false (by decide) hinvalid
  all_goals
    refine iff_of_false (by decide) ?_
    rintro ⟨rfl, -⟩
    exact hl rfl

/-- The end of a call for which an initialization is given up. -/
inductive Bringup.GivesUp (idleScans budget : Nat) : Command → Outcome → Prop
  | lost {c : Command} {o : Outcome} (hc : c ≠ .powerOn) (ho : o.response.meansCardLost = true) :
      GivesUp idleScans budget c o
  /-- A fault and a passed time limit count as failed. -/
  | failed {c : Command} {o : Outcome} (hc : c ≠ .powerOn) (hn : c ≠ .networkList)
      (ho : o.response = .failed) : GivesUp idleScans budget c o
  | noCard {payload : Payload} (hp : payload.devicesOrNil = []) :
      GivesUp idleScans budget .listDevices (.reply ⟨.success, payload⟩)
  /-- The last failed or empty network list that is allowed for. -/
  | noNetwork {o : Outcome} (hbudget : budget ≤ idleScans + 1)
      (ho : o.response = .failed ∨
        ∃ payload, o = .reply ⟨.success, payload⟩ ∧ payload.networksOrNil = []) :
      GivesUp idleScans budget .networkList o

/-- `m.GivesUp cs message` when a tick of `m` with the calls `cs` gives the session up with the
message. It does so over its first call, the step of an initialization or of an attachment that
serves the goal. -/
inductive Machine.GivesUp (m : Machine) : List (Request × Outcome) → Message → Prop
  | bringup {b : Bringup} {r : Request} {o : Outcome} {later : List (Request × Outcome)}
      (hphase : m.phase = .initializing b) (hgoal : m.goal.isUpward = true)
      (h : Bringup.GivesUp b.idleScans m.settings.scanAllowance r.command o) :
      m.GivesUp ((r, o) :: later) (.ofFailure r.command o.response later)
  | attach {a : Attach} {r : Request} {o : Outcome} {later : List (Request × Outcome)}
      (hphase : m.phase = .connecting a) (hgoal : m.goal = .connected)
      (hr : r.command = .connect ∨ r.command = .deviceStatus ∨ r.command = .linkStatus)
      (ho : o.response.meansCardLost = true) :
      m.GivesUp ((r, o) :: later) (.ofFailure r.command o.response later)

theorem Driver.runs_lossMessage {d d' : Driver} {response : Response} {acts : List Act}
    {message : Message} (hl : response.meansCardLost = true) (c : Command)
    (h : (d.lossMessage response).Runs acts (d', message)) :
    message = .ofFailure c response (calls acts) := by
  unfold lossMessage at h
  unfold Message.ofFailure
  rw [if_pos hl]
  split at h
  · next hinvalid =>
    obtain ⟨⟨d₁, present⟩, first, rest, rfl, hlook, hrest⟩ := Dialog.runs_bind_iff.mp h
    obtain ⟨rfl, he⟩ := Dialog.runs_done_iff.mp hrest
    obtain ⟨-, rfl⟩ := Prod.mk.inj he
    obtain ⟨-, -, hpresent, -⟩ := runs_cardPresent hlook
    simp [hinvalid, hpresent]
  · next hinvalid =>
    obtain ⟨-, he⟩ := Dialog.runs_done_iff.mp h
    obtain ⟨-, rfl⟩ := Prod.mk.inj he
    simp [hinvalid]

namespace Bringup

variable {b : Bringup} {d : Driver} {c : Command} {idleScans budget : Nat} {o : Outcome}
  {payload : Payload} {acts : List Act} {s : Step Bringup}

theorem givesUp_success_iff :
    GivesUp idleScans budget c (.reply ⟨.success, payload⟩) ↔
      (c = .listDevices ∧ payload.devicesOrNil = []) ∨
        (c = .networkList ∧ budget ≤ idleScans + 1 ∧ payload.networksOrNil = []) := by
  constructor
  · intro h
    cases h with
    | lost hc ho => simp [Outcome.response, Response.meansCardLost] at ho
    | failed hc hn ho => simp [Outcome.response] at ho
    | noCard hp => exact .inl ⟨rfl, hp⟩
    | noNetwork hbudget ho => simpa [Outcome.response, hbudget] using ho
  · rintro (⟨rfl, hp⟩ | ⟨rfl, hbudget, hp⟩)
    · exact .noCard hp
    · exact .noNetwork hbudget (.inr ⟨payload, rfl, hp⟩)

theorem givesUp_failed_iff (ho : o.response = .failed) :
    GivesUp idleScans budget c o ↔
      c ≠ .powerOn ∧ (c = .networkList → budget ≤ idleScans + 1) := by
  constructor
  · intro h
    cases h with
    | lost hc hl => simp [ho, Response.meansCardLost] at hl
    | failed hc hn => exact ⟨hc, fun hc => absurd hc hn⟩
    | noCard hp => simp [Outcome.response] at ho
    | noNetwork hbudget => exact ⟨by simp, fun _ => hbudget⟩
  · rintro ⟨hc, hbudget⟩
    by_cases hn : c = .networkList
    · subst hn
      exact .noNetwork (hbudget rfl) (.inl ho)
    · exact .failed hc hn ho

theorem verdict_forward (b : Bringup) (d : Driver) : (b.forward d).verdict ≠ .failed := by
  unfold forward
  dsimp only
  split <;> simp

theorem verdict_afterStatus (b : Bringup) (d : Driver) : (b.afterStatus d).verdict ≠ .failed := by
  have hforward := verdict_forward b d
  unfold afterStatus
  split
  iterate 3 exact hforward
  · split
    · split <;> simp [scan]
    · split
      · exact hforward
      · simp
  · simp

/-- The step gives up on these grounds and with this message, or goes on. -/
def Decides (s : Step Bringup) (grounds : Prop) (message : Message) : Prop :=
  (grounds ∧ s.verdict = .failed ∧ s.message = some message) ∨ (¬grounds ∧ s.verdict ≠ .failed)

theorem decides_countIdleScan (b : Bringup) (d : Driver) (budget : Nat) :
    Decides (b.countIdleScan d budget) (budget ≤ b.idleScans + 1) .noNetwork := by
  unfold countIdleScan
  split
  · next hbudget => exact .inl ⟨hbudget, rfl, rfl⟩
  · next hbudget => exact .inr ⟨hbudget, by simp [scan]⟩

theorem decides_afterSuccess (later : List (Request × Outcome)) :
    Decides (b.afterSuccess (d.afterCall c (.reply ⟨.success, payload⟩)) c budget)
      (GivesUp b.idleScans budget c (.reply ⟨.success, payload⟩))
      (.ofFailure c .success later) := by
  rw [givesUp_success_iff]
  unfold afterSuccess
  split
  · have hlisted : (d.afterCall .listDevices (.reply ⟨.success, payload⟩)).record.cardListed =
        !payload.devicesOrNil.isEmpty := rfl
    rw [hlisted]
    split
    · next hp =>
      refine .inr ⟨?_, verdict_forward _ _⟩
      simpa using hp
    · next hp =>
      refine .inl ⟨.inl ⟨rfl, ?_⟩, rfl, rfl⟩
      simpa using hp
  · have hnetworks : (d.afterCall .networkList (.reply ⟨.success, payload⟩)).record.networks =
        payload.networksOrNil := rfl
    rw [hnetworks]
    split
    · next hp =>
      have hp : payload.networksOrNil = [] := by simpa using hp
      have hmessage : Message.ofFailure .networkList .success later = .noNetwork := rfl
      have hdecides := decides_countIdleScan b
        (d.afterCall .networkList (.reply ⟨.success, payload⟩)) budget
      simpa [hp, hmessage] using hdecides
    · next hp =>
      refine .inr ⟨?_, verdict_forward _ _⟩
      rintro (⟨hc, -⟩ | ⟨-, -, hnil⟩)
      · simp at hc
      · simp [hnil] at hp
  · exact .inr ⟨by simp, verdict_afterStatus _ _⟩
  · next hlist hnetworks _ =>
    refine .inr ⟨?_, verdict_forward _ _⟩
    rintro (⟨rfl, -⟩ | ⟨rfl, -⟩)
    · exact hlist rfl
    · exact hnetworks rfl

theorem decides_afterFailure (hc : c ≠ .powerOn) (ho : o.response = .failed)
    (later : List (Request × Outcome)) :
    Decides (b.afterFailure d c budget) (GivesUp b.idleScans budget c o)
      (.ofFailure c .failed later) := by
  rw [givesUp_failed_iff ho]
  unfold afterFailure
  split
  · have hmessage : Message.ofFailure .networkList .failed later = .noNetwork := rfl
    simpa [hmessage] using decides_countIdleScan b d budget
  · exact .inl ⟨by simp, rfl, rfl⟩
  · next hnetworks hlist =>
    have hmessage : Message.ofFailure c .failed later = .callFailure :=
      (if_neg hnetworks).trans (if_neg hlist)
    rw [hmessage]
    exact .inl ⟨⟨hc, fun hn => absurd hn hnetworks⟩, rfl, rfl⟩

theorem decides_afterResponse
    (h : (b.afterResponse (d.afterCall c o) c budget o.response).Runs acts s) :
    Decides s (GivesUp b.idleScans budget c o) (.ofFailure c o.response (calls acts)) := by
  unfold afterResponse at h
  split at h
  · next ho =>
    obtain ⟨reply, rfl⟩ := Outcome.exists_reply (o := o) (by simp [ho])
    obtain ⟨response, payload⟩ := reply
    obtain rfl : response = .success := ho
    obtain ⟨rfl, rfl⟩ := Dialog.runs_done_iff.mp h
    exact decides_afterSuccess _
  next hsuccess =>
  split at h
  · next hc =>
    obtain ⟨rfl, rfl⟩ := Dialog.runs_done_iff.mp h
    refine .inr ⟨?_, verdict_forward _ _⟩
    subst hc
    rintro ⟨⟩ <;> contradiction
  next hc =>
  split at h
  · next hl =>
    obtain ⟨⟨d', message⟩, first, rest, rfl, hloss, hrest⟩ := Dialog.runs_bind_iff.mp h
    obtain ⟨rfl, rfl⟩ := Dialog.runs_done_iff.mp hrest
    have hmessage := Driver.runs_lossMessage hl c hloss
    rw [List.append_nil, ← hmessage]
    exact .inl ⟨.lost hc hl, rfl, rfl⟩
  next hl =>
  split at h
  · next ho =>
    obtain ⟨rfl, rfl⟩ := Dialog.runs_done_iff.mp h
    rw [ho]
    exact decides_afterFailure hc ho _
  · next ho =>
    obtain ⟨rfl, rfl⟩ := Dialog.runs_done_iff.mp h
    refine .inr ⟨?_, by simp⟩
    intro hgrounds
    cases hgrounds with
    | lost hc hl' => exact hl hl'
    | failed hc hn ho' => exact ho ho'
    | noCard hp => exact hsuccess rfl
    | noNetwork hbudget ho' =>
      rcases ho' with ho' | ⟨payload, rfl, -⟩
      · exact ho ho'
      · exact hsuccess rfl

/-- A step that costs no call has nothing to give up over. -/
theorem decides_step
    (hapi : ∀ c, script[b.cursor.place]? = some c → c.needsOpenApi = true → d.record.apiOpen = true)
    (h : (b.step d budget).Runs acts s) :
    (calls acts = [] ∧ s.verdict ≠ .failed) ∨
      ∃ r o later, calls acts = (r, o) :: later ∧
        Decides s (GivesUp b.idleScans budget r.command o)
          (.ofFailure r.command o.response later) := by
  obtain ⟨c, d₁, r, first, rest, hc, rfl, hattempt, hrest⟩ := runs_step h
  have hapi := hapi c hc
  rcases Driver.runs_attempt hattempt with ⟨hsettled, rfl⟩ | ⟨o, hasked, rfl, rfl, rfl⟩
  · have hsuccess : r = .success := response_of_settled? (List.mem_of_getElem? hc) hapi hsettled
    have hplain : Driver.alwaysAsks c ≠ true := by
      intro hasks
      simp [Driver.settled?_of_alwaysAsks hasks hapi] at hsettled
    rw [afterResponse, if_pos hsuccess] at hrest
    obtain ⟨rfl, rfl⟩ := Dialog.runs_done_iff.mp hrest
    refine .inl ⟨rfl, ?_⟩
    cases c with
    | listDevices | networkList | deviceStatus => exact absurd rfl hplain
    | _ => exact verdict_forward _ _
  · have hdecides := decides_afterResponse hrest
    exact .inr ⟨⟨c, d.callArgs c .nothing⟩, o, calls rest, by simp, hdecides⟩

end Bringup

namespace Attach

variable {a : Attach} {d d₁ : Driver} {preferred : String} {c : Command} {o : Outcome}
  {r : Request} {later : List (Request × Outcome)} {acts : List Act} {s : Step Attach}

/-- The step ends with a message exactly if the card is lost. -/
def Loses (s : Step Attach) (r : Request) (o : Outcome) (later : List (Request × Outcome)) : Prop :=
  if o.response.meansCardLost then
    s.verdict = .failed ∧ s.message = some (.ofFailure r.command o.response later)
  else s.verdict = .failed → s.message = none

theorem loses_loseCard (hl : o.response.meansCardLost = true)
    (h : (a.loseCard d o.response).Runs acts s) : Loses s r o (calls acts) := by
  obtain ⟨message, hloss, hs⟩ := runs_loseCard h
  have hmessage := Driver.runs_lossMessage hl r.command hloss
  rw [Loses, if_pos hl, hs, ← hmessage]
  exact ⟨rfl, rfl⟩

theorem loses_of_not_lost (hl : o.response.meansCardLost ≠ true) (hs : s.message = none) :
    Loses s r o later := by
  rw [Loses, if_neg hl]
  exact fun _ => hs

theorem message_afterStatus (a : Attach) (d : Driver) : (a.afterStatus d).message = none := by
  unfold afterStatus
  split
  iterate 2
    split <;> rfl
  · rfl
  · split <;> rfl
  · rfl

theorem loses_step (hapi : d.record.apiOpen = true) (h : (a.step d preferred).Runs acts s) :
    (calls acts = [] ∧ s.verdict ≠ .failed) ∨
      ∃ r o later, calls acts = (r, o) :: later ∧
        (r.command = .connect ∨ r.command = .deviceStatus ∨ r.command = .linkStatus) ∧
        Loses s r o later := by
  rcases runs_step h with ⟨-, h⟩ | ⟨-, h⟩ | ⟨-, h⟩
  · rcases runs_request h with
      ⟨rfl, rfl⟩ | ⟨network, d₁, response, first, rest, -, rfl, hattempt, hend⟩
    · exact .inl ⟨rfl, by simp [leave]⟩
    · obtain ⟨o, rfl, -, rfl⟩ := Driver.runs_attempt_of_alwaysAsks rfl (fun _ => hapi) hattempt
      refine .inr ⟨_, o, calls rest, rfl, .inl rfl, ?_⟩
      rcases hend with ⟨hr, rfl, rfl⟩ | ⟨hl, hlose⟩ | ⟨⟨-, hl⟩, rfl, rfl⟩
      · refine loses_of_not_lost ?_ rfl
        rcases hr with hr | hr <;> simp [hr, Response.meansCardLost]
      · exact loses_loseCard hl hlose
      · exact loses_of_not_lost hl rfl
  · obtain ⟨d₁, response, first, rest, rfl, hattempt, hend⟩ := runs_checkRadio h
    obtain ⟨o, rfl, -, rfl⟩ := Driver.runs_attempt_of_alwaysAsks rfl (fun _ => hapi) hattempt
    refine .inr ⟨_, o, calls rest, rfl, .inr (.inl rfl), ?_⟩
    rcases hend with ⟨hl, hlose⟩ | ⟨hr, rfl, rfl⟩ | ⟨⟨-, hl⟩, rfl, rfl⟩
    · exact loses_loseCard hl hlose
    · exact loses_of_not_lost (by simp [hr, Response.meansCardLost]) (message_afterStatus _ _)
    · exact loses_of_not_lost hl rfl
  · obtain ⟨d₁, response, first, rest, rfl, hattempt, hend⟩ := runs_checkLink h
    obtain ⟨o, rfl, -, rfl⟩ := Driver.runs_attempt_of_alwaysAsks rfl (fun _ => hapi) hattempt
    refine .inr ⟨_, o, calls rest, rfl, .inr (.inr rfl), ?_⟩
    rcases hend with ⟨hr, hfinish⟩ | ⟨hr, rfl, rfl⟩ | ⟨hl, hlose⟩ | ⟨hl, rfl, rfl⟩
    · obtain ⟨-, hs⟩ := runs_finish hfinish
      refine loses_of_not_lost ?_ (by rw [hs]; rfl)
      rcases hr with hr | ⟨hr, -⟩ <;> simp [hr, Response.meansCardLost]
    · exact loses_of_not_lost (by simp [hr, Response.meansCardLost]) rfl
    · exact loses_loseCard hl hlose
    · exact loses_of_not_lost hl rfl

end Attach

namespace Machine

variable {m n : Machine} {cs : List (Request × Outcome)} {message : Message} {acts : List Act}

@[simp]
theorem partingMessage_entered (m : Machine) (s : Stage) :
    (m.entered s).partingMessage = m.partingMessage := rfl

theorem GivesUp.stage (h : m.GivesUp cs message) :
    m.stage = .initializing ∨ m.stage = .connecting := by
  cases h with
  | bringup hphase => exact .inl (by rw [Machine.stage, hphase]; rfl)
  | attach hphase => exact .inr (by rw [Machine.stage, hphase]; rfl)

theorem GivesUp.goal (h : m.GivesUp cs message) : m.goal ≠ .ready := by
  cases h with
  | bringup hphase hgoal => rintro he; simp [he, Goal.isUpward] at hgoal
  | attach hphase hgoal => simp [hgoal]

theorem GivesUp.message_eq {r : Request} {o : Outcome} {later : List (Request × Outcome)}
    (h : m.GivesUp ((r, o) :: later) message) : message = .ofFailure r.command o.response later := by
  cases h <;> rfl

theorem not_givesUp_nil : ¬m.GivesUp [] message := nofun

/-- The session was given up with the message. -/
structure GivenUp (n : Machine) (message : Message) : Prop where
  goal : n.goal = .ready
  latest : n.latestMessage = some message
  parting : n.partingMessage = some message

/-- The calls give the session up on their grounds, or leave the goal and the parting message. -/
def Judges (m : Machine) (cs : List (Request × Outcome)) (n : Machine) : Prop :=
  (∃ message, m.GivesUp cs message ∧ n.GivenUp message ∧
      n.stage = if m.stage = .initializing then .disconnecting else .ready) ∨
    ((∀ message, ¬m.GivesUp cs message) ∧ n.goal = m.goal ∧ n.partingMessage = m.partingMessage)

theorem judges_nil (hgoal : n.goal = m.goal) (hparting : n.partingMessage = m.partingMessage) :
    m.Judges [] n :=
  .inr ⟨fun _ => not_givesUp_nil, hgoal, hparting⟩

theorem judges_of_stage (hbringup : m.stage ≠ .initializing) (hattach : m.stage ≠ .connecting)
    (hgoal : n.goal = m.goal) (hparting : n.partingMessage = m.partingMessage) :
    m.Judges cs n := by
  refine .inr ⟨fun message hgives => ?_, hgoal, hparting⟩
  rcases hgives.stage with hstage | hstage
  · exact hbringup hstage
  · exact hattach hstage

section Bringup

variable {b : Bringup} {s : Step Bringup}

theorem goal_afterBringup (hv : s.verdict ≠ .failed) : (m.afterBringup s).goal = m.goal := by
  unfold afterBringup
  cases hverdict : s.verdict with
  | failed => exact absurd hverdict hv
  | _ => rfl

theorem partingMessage_afterBringup (hv : s.verdict ≠ .failed) :
    (m.afterBringup s).partingMessage = m.partingMessage := by
  unfold afterBringup
  cases hverdict : s.verdict with
  | failed => exact absurd hverdict hv
  | _ => rfl

theorem givenUp_afterBringup (hv : s.verdict = .failed) (hmessage : s.message = some message) :
    (m.afterBringup s).GivenUp message := by
  unfold afterBringup
  simp only [hv, hmessage]
  exact ⟨rfl, rfl, rfl⟩

theorem judges_bringup (hphase : m.phase = .initializing b) (hgoal : m.goal.isUpward = true)
    (hm : m.Sound) (step : (b.step m.driver m.settings.scanAllowance).Runs acts s) :
    m.Judges (calls acts) (m.afterBringup s) := by
  have hstage : m.stage = .initializing := by rw [stage, hphase]; rfl
  have hapi : ∀ c, Bringup.script[b.cursor.place]? = some c → c.needsOpenApi = true →
      m.driver.record.apiOpen = true := by
    intro c hc
    exact hm.apiOpen_of_command? (by rw [hphase]; exact hc)
  rcases b.decides_step hapi step with ⟨hnone, hv⟩ | ⟨r, o, later, hcalls, hdecides⟩
  · rw [hnone]
    exact judges_nil (goal_afterBringup hv) (partingMessage_afterBringup hv)
  rw [hcalls]
  rcases hdecides with ⟨hgrounds, hv, hmessage⟩ | ⟨hgrounds, hv⟩
  · refine .inl ⟨_, .bringup hphase hgoal hgrounds, givenUp_afterBringup hv hmessage, ?_⟩
    rw [stage_afterBringup, hv, if_pos hstage]
  · refine .inr ⟨?_, goal_afterBringup hv, partingMessage_afterBringup hv⟩
    intro message hgives
    cases hgives with
    | bringup hphase' _ h =>
      obtain rfl := Phase.initializing.inj (hphase.symm.trans hphase')
      exact hgrounds h
    | attach hphase' => simp [hphase] at hphase'

end Bringup

section Attach

variable {a : Attach} {s : Step Attach}

theorem goal_afterAttach (h : s.verdict = .failed → s.message = none) :
    (m.afterAttach s).goal = m.goal := by
  unfold afterAttach
  cases hv : s.verdict with
  | failed => simp [h hv]
  | _ => rfl

theorem partingMessage_afterAttach (h : s.verdict = .failed → s.message = none) :
    (m.afterAttach s).partingMessage = m.partingMessage := by
  unfold afterAttach
  cases hv : s.verdict with
  | failed => simp [h hv]
  | _ => rfl

theorem givenUp_afterAttach (hv : s.verdict = .failed) (hmessage : s.message = some message) :
    (m.afterAttach s).GivenUp message := by
  unfold afterAttach
  simp only [hv, hmessage]
  exact ⟨rfl, rfl, rfl⟩

theorem judges_attach (hphase : m.phase = .connecting a) (hgoal : m.goal = .connected)
    (hm : m.Sound) (step : (a.step m.driver m.preferred).Runs acts s) :
    m.Judges (calls acts) (m.afterAttach s) := by
  have hstage : m.stage = .connecting := by rw [stage, hphase]; rfl
  have hapi := (hm.isOpen (.inr (.inl hstage))).1
  rcases Attach.loses_step hapi step with ⟨hnone, hv⟩ | ⟨r, o, later, hcalls, hr, hloses⟩
  · rw [hnone]
    have hquiet : s.verdict = .failed → s.message = none := fun hfail => absurd hfail hv
    exact judges_nil (goal_afterAttach hquiet) (partingMessage_afterAttach hquiet)
  rw [hcalls]
  unfold Attach.Loses at hloses
  split at hloses
  · next hl =>
    obtain ⟨hv, hmessage⟩ := hloses
    refine .inl ⟨_, .attach hphase hgoal hr hl, givenUp_afterAttach hv hmessage, ?_⟩
    rw [stage_afterAttach, hv, if_neg (by simp [hstage])]
  · next hl =>
    refine .inr ⟨?_, goal_afterAttach hloses, partingMessage_afterAttach hloses⟩
    intro message hgives
    cases hgives with
    | bringup hphase' => simp [hphase] at hphase'
    | attach _ _ _ hl' => exact hl hl'

end Attach

theorem Turn.judges (h : m.Turn cs n) (hm : m.Sound) : m.Judges cs n := by
  cases h with
  | idle => exact judges_nil rfl rfl
  | leave => exact judges_nil rfl rfl
  | bringup hphase hgoal step => exact judges_bringup hphase hgoal hm step
  | attach hphase hgoal step => exact judges_attach hphase hgoal hm step
  | @monitor w s sample acts hphase =>
    have hstage : m.stage = .connected := by rw [stage, hphase]; rfl
    refine judges_of_stage (by simp [hstage]) (by simp [hstage]) ?_ ?_
    all_goals
      unfold afterMonitor
      cases s.verdict <;> rfl
  | @teardown t s acts hphase =>
    have hstage : m.stage = .disconnecting := by rw [stage, hphase]; rfl
    refine judges_of_stage (by simp [hstage]) (by simp [hstage]) ?_ ?_
    all_goals
      unfold afterTeardown
      split <;> rfl

@[simp]
theorem partingMessage_greeted (m : Machine) : m.greeted.partingMessage = m.partingMessage := by
  unfold greeted
  split <;> rfl

theorem givesUp_greeted_iff : m.greeted.GivesUp cs message ↔ m.GivesUp cs message := by
  constructor
  · intro h
    cases h with
    | bringup hphase hgoal h =>
      exact .bringup (by simpa using hphase) (by simpa using hgoal) (by simpa using h)
    | attach hphase hgoal hr ho => exact .attach (by simpa using hphase) (by simpa using hgoal) hr ho
  · intro h
    cases h with
    | bringup hphase hgoal h =>
      exact .bringup (by simpa using hphase) (by simpa using hgoal) (by simpa using h)
    | attach hphase hgoal hr ho => exact .attach (by simpa using hphase) (by simpa using hgoal) hr ho

theorem judges_greeted_iff : m.greeted.Judges cs n ↔ m.Judges cs n := by
  simp only [Judges, givesUp_greeted_iff, goal_greeted, partingMessage_greeted, stage_greeted]

theorem judges_tick (hm : m.Reachable) (h : (m.carryOut .tick).Runs acts n) :
    m.Judges (calls acts) n :=
  judges_greeted_iff.mp ((turn_tick h).1.judges (sound_greeted hm.sound))

/-- A tick changes the goal or the parting message exactly if its first call is grounds to give the
session up. Then the goal and both messages change together and the session leaves by the teardown,
if it was initializing, or for its rest. The message says that the card is invalid exactly if a
fresh enumeration still lists a card after an invalid device. -/
theorem gives_up_iff (hm : m.Reachable) (h : (m.carryOut .tick).Runs acts n) :
    (n.goal ≠ m.goal ∨ n.partingMessage ≠ m.partingMessage ↔
        ∃ message, m.GivesUp (calls acts) message) ∧
      ∀ message, m.GivesUp (calls acts) message →
        n.goal = .ready ∧ n.latestMessage = some message ∧ n.partingMessage = some message ∧
        n.stage = (if m.stage = .initializing then .disconnecting else .ready) ∧
        (message.text = "Card is invalid." ↔
          ∃ r o later, calls acts = (r, o) :: later ∧ o.response = .invalidDevice ∧
            findsCard later = true) := by
  rcases judges_tick hm h with ⟨message, hgives, hup, hstage⟩ | ⟨hnone, hgoal, hparting⟩
  · have hchanged : n.goal ≠ m.goal := by
      rw [hup.goal]
      exact hgives.goal.symm
    refine ⟨iff_of_true (.inl hchanged) ⟨message, hgives⟩, fun message' hgives' => ?_⟩
    obtain ⟨r, o, later, hcalls⟩ : ∃ r o later, calls acts = (r, o) :: later := by
      cases hcalls : calls acts with
      | nil => exact absurd (hcalls ▸ hgives) not_givesUp_nil
      | cons call later => exact ⟨call.1, call.2, later, rfl⟩
    rw [hcalls] at hgives hgives' ⊢
    obtain rfl : message' = message := hgives'.message_eq.trans hgives.message_eq.symm
    refine ⟨hup.goal, hup.latest, hup.parting, hstage, ?_⟩
    rw [hgives.message_eq, Message.text_ofFailure_iff]
    constructor
    · intro hinvalid
      exact ⟨r, o, later, rfl, hinvalid⟩
    · rintro ⟨r', o', later', he, hinvalid⟩
      obtain ⟨hcall, rfl⟩ := List.cons.inj he
      obtain ⟨rfl, rfl⟩ := Prod.mk.inj hcall
      exact hinvalid
  · refine ⟨iff_of_false ?_ ?_, fun message hgives => absurd hgives (hnone message)⟩
    · simp [hgoal, hparting]
    · rintro ⟨message, hgives⟩
      exact hnone message hgives

/-- A card with a device that cannot be opened any more. -/
def brokenCard (r : Request) : Outcome :=
  if r.command = .deviceOpen then .reply ⟨.invalidDevice, .nothing⟩ else obligingCard r

/-- The first initialization, about to open the device. -/
def aboutToOpen : Machine := ((start {}).rehearse (ascent 3)).2

/-- The card is still listed, so it counts as broken. -/
theorem gives_up_iff_broken :
    ∃ acts n, (aboutToOpen.carryOut .tick).Runs acts n ∧ n.goal = .ready ∧
      n.stage = .disconnecting ∧ ∃ message, n.partingMessage = some message ∧
        message.text = "Card is invalid." := by
  have hrun := Dialog.runs_recorder (aboutToOpen.carryOut .tick) brokenCard
  have hreach : aboutToOpen.Reachable := ⟨{}, _, run_rehearse (start {}) (ascent 3)⟩
  obtain ⟨hchanged, hall⟩ := gives_up_iff hreach hrun
  obtain ⟨message, hgives⟩ := hchanged.mp (.inl (by decide +kernel))
  obtain ⟨hgoal, -, hparting, hstage, hinvalid⟩ := hall message hgives
  refine ⟨_, _, hrun, hgoal, hstage.trans (by decide +kernel), message, hparting,
    hinvalid.mpr ⟨_, _, _, rfl, rfl, by decide +kernel⟩⟩

end Machine

end Wimax
