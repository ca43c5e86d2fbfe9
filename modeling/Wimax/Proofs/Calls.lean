import Wimax.Proofs.Histories

/-!
What a command comes to. It is settled at once or costs exactly one call, and afterwards the flags
of the record are those before, changed by what the command that owns them was answered.
-/

namespace Wimax

/-- What the end of a call counts as for a script. -/
def Outcome.response : Outcome → Response
  | .reply answer => answer.response
  | .fault _ | .timedOut => .failed

theorem Outcome.exists_reply {o : Outcome} (h : o.response ≠ .failed) :
    ∃ reply, o = .reply reply := by
  cases o with
  | reply reply => exact ⟨reply, rfl⟩
  | _ => simp [response] at h

theorem Reply.eq_of_status? {r : Reply} {status : RadioStatus}
    (h : r.successPayload.status? = some status) :
    r = ⟨.success, .radio status r.successPayload.phase?⟩ := by
  obtain ⟨response, payload⟩ := r
  by_cases hr : response = .success
  · subst hr
    cases payload <;> simp_all [successPayload, Payload.status?, Payload.phase?]
  · simp [successPayload, hr, Payload.status?] at h

namespace Record

def atCall (r : Record) (c : Command) : Record :=
  match c with
  | .unsubscribe ch => r.setSubscribed ch false
  | c => Driver.beforeCall r c

def afterCall (r : Record) (c : Command) (o : Outcome) : Record :=
  match o, c with
  | .reply reply, .subscribe ch => if reply.response.isSuccess then r.setSubscribed ch true else r
  | .reply reply, c => (r.atCall c).store c reply
  | _, c => r.atCall c

theorem apiOpen_afterCall {r : Record} {c : Command} {o : Outcome} :
    (r.afterCall c o).apiOpen = true ↔
      (r.apiOpen = true ∧ ¬(c = .apiClose ∧ o.response = .success)) ∨
        (c = .apiOpen ∧ o.response = .success) := by
  cases o with
  | reply reply =>
    by_cases hs : reply.response = .success <;> cases c <;>
      simp [afterCall, atCall, Driver.beforeCall, store, Outcome.response, closed, setDevices,
        setSubscribed, clearAttachmentFigures, Response.isSuccess, hs]
  | _ =>
    cases c <;>
      simp [afterCall, atCall, Driver.beforeCall, Outcome.response, setSubscribed,
        clearAttachmentFigures]

theorem deviceOpen_afterCall {r : Record} {c : Command} {o : Outcome} :
    (r.afterCall c o).deviceOpen = true ↔
      (r.deviceOpen = true ∧ ¬(c = .deviceClose ∧ ∃ reply, o = .reply reply) ∧
          ¬(c = .apiClose ∧ o.response = .success)) ∨
        (c = .deviceOpen ∧ o.response = .success) := by
  cases o with
  | reply reply =>
    by_cases hs : reply.response = .success <;> cases c <;>
      simp [afterCall, atCall, Driver.beforeCall, store, Outcome.response, closed, setDevices,
        setSubscribed, clearAttachmentFigures, Response.isSuccess, hs]
  | _ =>
    cases c <;>
      simp [afterCall, atCall, Driver.beforeCall, Outcome.response, setSubscribed,
        clearAttachmentFigures]

theorem has_afterCall {r : Record} {c : Command} {o : Outcome} {ch : Channel} :
    (r.afterCall c o).subscriptions.has ch = true ↔
      (r.subscriptions.has ch = true ∧ c ≠ .unsubscribe ch ∧
          ¬(c = .apiClose ∧ o.response = .success)) ∨
        (c = .subscribe ch ∧ o.response = .success) := by
  cases o with
  | reply reply =>
    by_cases hs : reply.response = .success <;> cases c <;>
      simp [afterCall, atCall, Driver.beforeCall, store, Outcome.response, closed, setDevices,
        setSubscribed, clearAttachmentFigures, Response.isSuccess, hs, or_comm, and_comm]
  | _ =>
    cases c <;>
      simp [afterCall, atCall, Driver.beforeCall, Outcome.response, setSubscribed,
        clearAttachmentFigures, and_comm]

theorem networks_afterCall {r : Record} {c : Command} (o : Outcome) (hc : c ≠ .networkList) :
    (r.afterCall c o).networks = r.networks := by
  cases o with
  | reply reply =>
    cases c <;> simp [afterCall, atCall, Driver.beforeCall, store, closed, setDevices,
      setSubscribed, clearAttachmentFigures, apply_ite] at hc ⊢
  | _ =>
    cases c <;> simp [afterCall, atCall, Driver.beforeCall, setSubscribed, clearAttachmentFigures]

end Record

namespace Driver

variable {d d' : Driver} {c : Command} {args : Args} {acts : List Act}

/-- The end of a command that costs no call: the driver after it and the response. -/
def settled? (d : Driver) (c : Command) (args : Args) : Option (Driver × Response) :=
  match c with
  | .subscribe ch =>
    if d.record.subscriptions.has ch then some (d, .success)
    else if d.settings.notices then none
    else some ({ d with record := d.record.setSubscribed ch true }, .success)
  | .unsubscribe ch =>
    if d.record.subscriptions.has ch then
      if d.settings.notices then none
      else some ({ d with record := d.record.setSubscribed ch false }, .success)
    else some (d, .success)
  | c =>
    match localResponse? d.record c with
    | some response => some (d, response)
    | none => if (sentArgs? d.record c args).isSome then none else some (d, .failed)

def callArgs (d : Driver) (c : Command) (args : Args) : Args :=
  match c with
  | .subscribe _ | .unsubscribe _ => .nothing
  | c => (sentArgs? d.record c args).getD .nothing

def callResult (d : Driver) (c : Command) (o : Outcome) : Except Fault Response :=
  match o with
  | .reply reply => .ok reply.response
  | .fault text => .error (.cardFault text)
  | .timedOut => .error (d.timeoutFault c)

def afterCall (d : Driver) (c : Command) (o : Outcome) : Driver :=
  { d with record := d.record.afterCall c o }

@[simp]
theorem record_afterCall (d : Driver) (c : Command) (o : Outcome) :
    (d.afterCall c o).record = d.record.afterCall c o := rfl

@[simp]
theorem settings_afterCall (d : Driver) (c : Command) (o : Outcome) :
    (d.afterCall c o).settings = d.settings := rfl

/-- A command is settled or costs exactly one call. -/
theorem perform_eq (d : Driver) (c : Command) (args : Args) :
    d.perform c args =
      match d.settled? c args with
      | some (d', response) => .done (d', .ok response)
      | none =>
        .ask ⟨c, d.callArgs c args⟩ fun o => .done (d.afterCall c o, d.callResult c o) := by
  cases c with
  | subscribe ch =>
    simp only [perform, subscribe, settled?, call]
    split
    · rfl
    · split
      · congr 1
        funext o
        cases o <;> rfl
      · rfl
  | unsubscribe ch =>
    simp only [perform, unsubscribe, settled?, call]
    split
    · split
      · congr 1
        funext o
        cases o <;> rfl
      · rfl
    · rfl
  | _ =>
    simp only [perform, settled?, callArgs]
    generalize localResponse? d.record _ = settled
    generalize sentArgs? d.record _ args = sent
    cases settled with
    | some response => rfl
    | none =>
      cases sent with
      | none => rfl
      | some args =>
        simp only [Option.isSome_some, ↓reduceIte, call, Option.getD_some]
        congr 1
        funext o
        cases o <;> rfl

theorem attempt_eq (d : Driver) (c : Command) (args : Args) :
    d.attempt c args =
      match d.settled? c args with
      | some (d', response) => .done (d', response)
      | none => .ask ⟨c, d.callArgs c args⟩ fun o => .done (d.afterCall c o, o.response) := by
  rw [attempt, perform_eq]
  cases d.settled? c args with
  | some _ => rfl
  | none =>
    simp only [Dialog.ask_bind]
    congr 1
    funext o
    cases o <;> simp [callResult, Outcome.response]

theorem runs_perform {result : Except Fault Response}
    (h : (d.perform c args).Runs acts (d', result)) :
    (∃ response, d.settled? c args = some (d', response) ∧ acts = [] ∧ result = .ok response) ∨
      ∃ o, d.settled? c args = none ∧ acts = [.call ⟨c, d.callArgs c args⟩ o] ∧
        d' = d.afterCall c o ∧ result = d.callResult c o := by
  rw [perform_eq] at h
  cases hs : d.settled? c args with
  | some p =>
    simp only [hs, Dialog.runs_done_iff, Prod.mk.injEq] at h
    obtain ⟨rfl, rfl, rfl⟩ := h
    exact .inl ⟨_, rfl, rfl, rfl⟩
  | none =>
    simp only [hs, Dialog.runs_ask_iff, Dialog.runs_done_iff, Prod.mk.injEq] at h
    obtain ⟨o, _, rfl, rfl, rfl, rfl⟩ := h
    exact .inr ⟨o, rfl, rfl, rfl, rfl⟩

theorem runs_attempt {response : Response} (h : (d.attempt c args).Runs acts (d', response)) :
    (d.settled? c args = some (d', response) ∧ acts = []) ∨
      ∃ o, d.settled? c args = none ∧ acts = [.call ⟨c, d.callArgs c args⟩ o] ∧
        d' = d.afterCall c o ∧ response = o.response := by
  rw [attempt_eq] at h
  cases hs : d.settled? c args with
  | some p =>
    simp only [hs, Dialog.runs_done_iff, Prod.mk.injEq] at h
    obtain ⟨rfl, rfl, rfl⟩ := h
    exact .inl ⟨rfl, rfl⟩
  | none =>
    simp only [hs, Dialog.runs_ask_iff, Dialog.runs_done_iff, Prod.mk.injEq] at h
    obtain ⟨o, _, rfl, rfl, rfl, rfl⟩ := h
    exact .inr ⟨o, rfl, rfl, rfl, rfl⟩

/-- The card is always asked to attach and for what the phases decide by. -/
def alwaysAsks : Command → Bool
  | .listDevices | .deviceStatus | .networkList | .connect | .linkStatus | .ipInterface => true
  | _ => false

theorem settled?_of_alwaysAsks (hc : alwaysAsks c = true)
    (hapi : c.needsOpenApi = true → d.record.apiOpen = true) : d.settled? c args = none := by
  have hneeds : (c.needsOpenApi && !d.record.apiOpen) = false := by
    cases hn : c.needsOpenApi with
    | true => simp [hapi hn]
    | false => rfl
  cases c <;> simp [alwaysAsks] at hc <;>
    simp [settled?, localResponse?, hneeds, Command.isReserved, sentArgs?]

theorem runs_attempt_of_alwaysAsks {response : Response} (hc : alwaysAsks c = true)
    (hapi : c.needsOpenApi = true → d.record.apiOpen = true)
    (h : (d.attempt c args).Runs acts (d', response)) :
    ∃ o, acts = [.call ⟨c, d.callArgs c args⟩ o] ∧ d' = d.afterCall c o ∧
      response = o.response := by
  rcases runs_attempt h with ⟨hs, -⟩ | ⟨o, -, hacts, hd, hr⟩
  · simp [settled?_of_alwaysAsks hc hapi] at hs
  · exact ⟨o, hacts, hd, hr⟩

theorem callsOnly_attempt (d : Driver) (c : Command) (args : Args) :
    (d.attempt c args).CallsOnly (· = c) := by
  rw [attempt_eq]
  cases d.settled? c args with
  | some p => exact Dialog.callsOnly_done p
  | none => exact ⟨rfl, fun o => Dialog.callsOnly_done _⟩

theorem callsOnly_perform (d : Driver) (c : Command) (args : Args) :
    (d.perform c args).CallsOnly (· = c) := by
  rw [perform_eq]
  cases d.settled? c args with
  | some p => exact Dialog.callsOnly_done _
  | none => exact ⟨rfl, fun o => Dialog.callsOnly_done _⟩

def looksForCard (c : Command) : Prop := c = .apiOpen ∨ c = .listDevices

theorem callsOnly_cardPresent (d : Driver) : d.cardPresent.CallsOnly looksForCard := by
  apply ((callsOnly_attempt _ _ _).mono fun c => Or.inl).bind
  intro first
  apply ((callsOnly_attempt _ _ _).mono fun c => Or.inr).bind
  intro last
  exact Dialog.callsOnly_done _

theorem callsOnly_lossMessage (d : Driver) (response : Response) :
    (d.lossMessage response).CallsOnly looksForCard := by
  unfold lossMessage
  split
  · exact (callsOnly_cardPresent d).bind fun _ => Dialog.callsOnly_done _
  · exact Dialog.callsOnly_done _

end Driver

end Wimax
