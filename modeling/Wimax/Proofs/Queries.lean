import Wimax.Bench
import Wimax.Proofs.OpenDriver

/-!
What a caller learns from a query. Each query has a gate of stages, and outside it nothing happens.
Inside it there is one call at most, and the end of that call alone decides what the caller is told:
nothing that was known before shows in an answer. The session goes on as if nobody had asked.
-/

namespace Wimax

namespace Query

/-- The stages in which callers may put a query. -/
def gate : Query → List Stage
  | connectedNsp | statistics | linkStatus => [.connected]
  | _ => [.initialized, .connecting, .connected]

def gateFault : Query → Fault
  | connectedNsp | statistics | linkStatus => .noConnection
  | _ => .noDevice

theorem refusal?_eq (q : Query) (s : Stage) :
    q.refusal? s = if s ∈ q.gate then none else some q.gateFault := by
  cases q <;> cases s <;> rfl

theorem takesQueries_of_mem_gate {q : Query} {s : Stage} (h : s ∈ q.gate) :
    s = .initialized ∨ s = .connecting ∨ s = .connected := by
  revert h
  cases q <;> simp [gate] <;> tauto

/-- The request that a query sends with the given networks in sight. Two of them are about the first
network and need one with a name. -/
def sent? (q : Query) (networks : List Network) : Option Request :=
  match q, networks with
  | contacts, [] | provisioning, [] => none
  | contacts, n :: _ | provisioning, n :: _ =>
    if n.name = "" then none else some ⟨q.command, .network n.name⟩
  | decidePackage d, _ => some ⟨q.command, .decision d⟩
  | _, _ => some ⟨q.command, .nothing⟩

/-- The answer that a payload of the right kind brings. -/
def carried? : Query → Payload → Option Answer
  | deviceList, .devices ds => some (.devices ds)
  | networkList, .networks ns => some (.networks ns)
  | connectedNsp, .attachment a => some (.attachment a)
  | statistics, .traffic t => some (.traffic t)
  | linkStatus, .link l => some (.link l)
  | deviceInfo, .identity i => some (.identity i)
  | packageInfo, .package p => some (.package p)
  | contacts, .contacts cs => some (.contacts cs)
  | provisioning, .provisioned b => some (.provisioned b)
  | _, _ => none

/-- The answer when success comes without the right payload: lists are empty then. -/
def bare? : Query → Option Answer
  | deviceList => some (.devices [])
  | networkList => some (.networks [])
  | contacts => some (.contacts [])
  | wideScan | decidePackage _ => some .accepted
  | _ => none

/-- What the caller is told when the call of a query ends like this under a time limit. -/
def told (q : Query) (limit : Option Nat) : Outcome → Except Fault Answer
  | .reply reply =>
    if reply.response = .success then
      match (q.carried? reply.payload).or q.bare? with
      | some answer => .ok answer
      | none => .error (.noReading q.command)
    else .error (.refused q.command reply.response)
  | .fault text => .error (.cardFault text)
  | .timedOut => .error (.callTimeout q.command (.ofMillis (limit.getD 0)))

theorem read?_afterCall (q : Query) (r : Record) {reply : Reply} (h : reply.response = .success) :
    q.read? (r.afterCall q.command (.reply reply)) = (q.carried? reply.payload).or q.bare? := by
  obtain ⟨response, payload⟩ := reply
  obtain rfl : response = .success := h
  cases q <;> cases payload <;> rfl

theorem conclude_afterCall (q : Query) (d : Driver) (o : Outcome) :
    q.conclude (d.afterCall q.command o).record (d.callResult q.command o) =
      q.told d.settings.callLimit o := by
  cases o with
  | reply reply =>
    simp only [Driver.callResult, conclude, told, Driver.record_afterCall]
    split_ifs with h
    · cases hread : (q.carried? reply.payload).or q.bare? <;>
        simp only [(read?_afterCall q _ h).trans hread]
    · rfl
  | _ => rfl

end Query

namespace Driver

theorem queriedNetwork?_cons {r : Record} {n : Network} {ns : List Network}
    (h : r.networks = n :: ns) :
    queriedNetwork? r = if n.name = "" then none else some n.name := by
  by_cases hn : n.name = "" <;> simp [queriedNetwork?, h, hn, Option.filter]

/-- With an open interface a query is refused at most for want of a network. -/
theorem perform_query {d : Driver} (hopen : d.record.apiOpen = true) (q : Query) :
    d.perform q.command q.args =
      match q.sent? d.record.networks with
      | none => .done (d, .ok .failed)
      | some request =>
        .ask request fun o => .done (d.afterCall q.command o, d.callResult q.command o) := by
  have hlocal : localResponse? d.record q.command = none := by
    cases q <;> simp [localResponse?, Query.command, Command.isReserved, hopen]
  rw [perform_eq]
  cases q with
  | contacts | provisioning =>
    cases hns : d.record.networks with
    | nil =>
      simp only [Query.command] at hlocal ⊢
      simp [settled?, hlocal, sentArgs?, queriedNetwork?, hns, Query.sent?]
    | cons n ns =>
      simp only [Query.command] at hlocal ⊢
      by_cases hn : n.name = "" <;>
        simp [settled?, callArgs, hlocal, sentArgs?, queriedNetwork?_cons hns, hn, Query.sent?,
          Query.command]
  | _ =>
    simp only [Query.command] at hlocal ⊢
    simp [settled?, callArgs, hlocal, sentArgs?, Query.args, Query.sent?, Query.command]

end Driver

theorem Bench.answer_of_stall {b : Bench} {r : Request} {limit millis : Nat} {ending : Ending}
    (hcue : (b.card.takeCue r.command).1 = some (.stall millis ending)) (hlong : limit < millis) :
    ((Bench.world (some limit)).answer b r).1 = .timedOut := by
  have hbegin : b.card.begin r =
      (.hangs millis ending, ({ b.card with log := r :: b.card.log }.takeCue r.command).2) := by
    have hcue' : ({ b.card with log := r :: b.card.log }.takeCue r.command).1 =
        some (.stall millis ending) := hcue
    simp only [Card.begin, hcue']
  simp [world, begin, hbegin, hang, hlong, finish]

namespace Machine

variable {m n : Machine} {q : Query} {acts : List Act}

theorem ask_of_not_mem_gate (hs : m.stage ∉ q.gate) : m.ask q = .done (m, .error q.gateFault) := by
  rw [ask, Query.refusal?_eq, if_neg hs]

theorem ask_of_mem_gate (h : m.Reachable) (hs : m.stage ∈ q.gate) :
    m.ask q =
      match q.sent? m.driver.record.networks with
      | none => .done (m, .error (.refused q.command .failed))
      | some request => .ask request fun o =>
          .done ({ m with driver := m.driver.afterCall q.command o },
            q.told m.driver.settings.callLimit o) := by
  have hopen : m.driver.record.apiOpen = true :=
    (h.sound.isOpen (Query.takesQueries_of_mem_gate hs)).1
  rw [ask, Query.refusal?_eq, if_pos hs]
  dsimp only
  rw [Driver.perform_query hopen]
  cases q.sent? m.driver.record.networks with
  | none => rfl
  | some request =>
    rw [Dialog.ask_bind]
    congr 1
    funext o
    rw [Dialog.done_bind, Query.conclude_afterCall]
    rfl

/-- Nothing but what the driver has reported differs: the session goes on as it was. -/
structure SameSession (m n : Machine) : Prop where
  eq : n = { m with driver := n.driver }
  settings : n.driver.settings = m.driver.settings
  apiOpen : n.driver.record.apiOpen = m.driver.record.apiOpen
  deviceOpen : n.driver.record.deviceOpen = m.driver.record.deviceOpen
  subscriptions : n.driver.record.subscriptions = m.driver.record.subscriptions

theorem SameSession.refl (m : Machine) : m.SameSession m := ⟨rfl, rfl, rfl, rfl, rfl⟩

theorem sameSession_afterCall (m : Machine) (q : Query) (o : Outcome) :
    m.SameSession { m with driver := m.driver.afterCall q.command o } := by
  constructor <;> cases o <;> cases q <;> rfl

/-- Whatever a query comes to, the session is not disturbed and observers hear nothing. -/
theorem sameSession_ask (h : m.Reachable) {answer : Except Fault Answer}
    (run : (m.ask q).Runs acts (n, answer)) : m.SameSession n ∧ ∀ e, .publish e ∉ acts := by
  by_cases hs : m.stage ∈ q.gate
  · rw [ask_of_mem_gate h hs] at run
    cases hsent : q.sent? m.driver.record.networks with
    | none =>
      simp only [hsent, Dialog.runs_done_iff, Prod.mk.injEq] at run
      obtain ⟨rfl, rfl, -⟩ := run
      exact ⟨.refl n, by simp⟩
    | some request =>
      simp only [hsent, Dialog.runs_ask_iff, Dialog.runs_done_iff, Prod.mk.injEq] at run
      obtain ⟨o, _, rfl, rfl, rfl, -⟩ := run
      exact ⟨sameSession_afterCall m q o, by simp⟩
  · rw [ask_of_not_mem_gate hs] at run
    simp only [Dialog.runs_done_iff, Prod.mk.injEq] at run
    obtain ⟨rfl, rfl, -⟩ := run
    exact ⟨.refl n, by simp⟩

/-- Queries are gated, fresh and free of effects on the session. Outside its gate a query is turned
away. Inside it the query sends one request, unless it is about a network and there is none to name;
what the caller is told hangs on the end of that call alone, and a call that outlasts the time limit
is told as a timeout. -/
theorem queries_by_outcome (h : m.Reachable) (q : Query) :
    (m.stage ∉ q.gate → m.ask q = .done (m, .error q.gateFault)) ∧
      (m.stage ∈ q.gate → q.sent? m.driver.record.networks = none →
        m.ask q = .done (m, .error (.refused q.command .failed))) ∧
      (m.stage ∈ q.gate → ∀ request, q.sent? m.driver.record.networks = some request →
        m.ask q = (.ask request fun o =>
            .done ({ m with driver := m.driver.afterCall q.command o },
              q.told m.driver.settings.callLimit o)) ∧
          ∀ limit millis ending (b : Bench), m.driver.settings.callLimit = some limit →
            (b.card.takeCue request.command).1 = some (.stall millis ending) → limit < millis →
            ((m.ask q).onBench (some limit) b).1.2 =
              .error (.callTimeout q.command (.ofMillis limit))) ∧
      ∀ acts n answer, (m.ask q).Runs acts (n, answer) →
        m.SameSession n ∧ ∀ e, .publish e ∉ acts := by
  refine ⟨ask_of_not_mem_gate, ?_, ?_, fun _ _ _ => sameSession_ask h⟩
  · intro hs hsent
    rw [ask_of_mem_gate h hs, hsent]
  · intro hs request hsent
    have hask := ask_of_mem_gate h hs
    rw [hsent] at hask
    refine ⟨hask, fun limit millis ending b hlimit hcue hlong => ?_⟩
    rw [hask]
    simp only [Dialog.onBench, Dialog.run, Bench.answer_of_stall hcue hlong, Query.told, hlimit,
      Option.getD_some]

/-- A card that hangs for too long over the provisioning. -/
def hangingBench : Bench := { card := { cues := [(.provisioningStatus, .stall 40000)] } }

theorem queries_by_outcome_ascent :
    ((((start {}).rehearse (ascent 21)).2.ask .provisioning).onBench (some 30000)
      hangingBench).1.2 = .error (.callTimeout .provisioningStatus (.ofMillis 30000)) := by
  have hreachable : ((start {}).rehearse (ascent 21)).2.Reachable := ⟨{}, _, run_rehearse _ _⟩
  have hstage : ((start {}).rehearse (ascent 21)).2.stage ∈ Query.provisioning.gate := by
    decide +kernel
  have hsent : Query.provisioning.sent?
      ((start {}).rehearse (ascent 21)).2.driver.record.networks =
        some ⟨.provisioningStatus, .network "CLEAR"⟩ := by decide +kernel
  have hlimit : ((start {}).rehearse (ascent 21)).2.driver.settings.callLimit = some 30000 := by
    decide +kernel
  obtain ⟨-, -, hopen, -⟩ := queries_by_outcome hreachable .provisioning
  exact (hopen hstage _ hsent).2 30000 40000 .uncued hangingBench hlimit rfl (by decide)

end Machine

end Wimax
