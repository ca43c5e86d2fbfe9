import Wimax.Proofs.Steps

/-!
Dialogs of drivers that differ in their readings at most. A command asks the same of the card for
both and leaves both with the reading it has brought, unless it failed. So a step of a phase, which
reads only what its own commands have brought, goes the same way for both.
-/

namespace Wimax

namespace Dialog

variable {α β γ δ σ : Type} {R : α → β → Prop} {S : γ → δ → Prop}

/-- The dialogs ask and publish the same, whatever the card answers, and end with related
results. -/
inductive Alike (R : α → β → Prop) : Dialog α → Dialog β → Prop
  | done {a : α} {b : β} (h : R a b) : Alike R (done a) (done b)
  | ask (r : Request) {next : Outcome → Dialog α} {next' : Outcome → Dialog β}
      (h : ∀ o, Alike R (next o) (next' o)) : Alike R (ask r next) (ask r next')
  | publish (e : Event) {next : Dialog α} {next' : Dialog β} (h : Alike R next next') :
      Alike R (publish e next) (publish e next')

theorem Alike.bind {d : Dialog α} {d' : Dialog β} {f : α → Dialog γ} {f' : β → Dialog δ}
    (h : Alike R d d') (hf : ∀ a b, R a b → Alike S (f a) (f' b)) :
    Alike S (d >>= f) (d' >>= f') := by
  induction h with
  | done h => exact hf _ _ h
  | ask r _ ih => exact .ask r ih
  | publish e _ ih => exact .publish e ih

end Dialog

namespace Record

/-- The records differ in their readings at most. The list of networks is not one of them. -/
structure Alike (r s : Record) : Prop where
  networks : r.networks = s.networks
  apiOpen : r.apiOpen = s.apiOpen
  deviceOpen : r.deviceOpen = s.deviceOpen
  subscriptions : r.subscriptions = s.subscriptions

/-- The records agree on the reading that the command brings. -/
def AgreeOn (c : Command) (r s : Record) : Prop :=
  match c with
  | .listDevices => r.devices = s.devices
  | .deviceStatus => r.status = s.status ∧ r.phase = s.phase
  | .linkStatus => r.link = s.link
  | .statistics => r.traffic = s.traffic
  | .connectedNsp => r.attachment = s.attachment
  | .deviceInfo => r.identity = s.identity
  | .packageInfo => r.package = s.package
  | .provisioningStatus => r.provisioned = s.provisioned
  | .contactInfo => r.contacts = s.contacts
  | _ => True

variable {r s : Record} {c : Command} {o : Outcome}

theorem Alike.setSubscribed (h : r.Alike s) (ch : Channel) (on : Bool) :
    (r.setSubscribed ch on).Alike (s.setSubscribed ch on) where
  networks := h.networks
  apiOpen := h.apiOpen
  deviceOpen := h.deviceOpen
  subscriptions := by simp [Record.setSubscribed, h.subscriptions]

theorem Alike.atCall (h : r.Alike s) (c : Command) : (r.atCall c).Alike (s.atCall c) := by
  unfold Record.atCall Driver.beforeCall
  split
  · exact h.setSubscribed _ _
  · split
    · exact ⟨h.networks, h.apiOpen, h.deviceOpen, h.subscriptions⟩
    · exact h

theorem Alike.store (h : r.Alike s) (c : Command) (reply : Reply) :
    (r.store c reply).Alike (s.store c reply) := by
  obtain ⟨hn, ha, hd, hs⟩ := h
  cases c with
  | apiClose =>
    simp only [Record.store]
    split
    · exact ⟨hn, rfl, rfl, rfl⟩
    · exact ⟨hn, ha, hd, hs⟩
  | _ => constructor <;> simp [Record.store, setDevices, hn, ha, hd, hs]

theorem Alike.afterCall (h : r.Alike s) (c : Command) (o : Outcome) :
    (r.afterCall c o).Alike (s.afterCall c o) := by
  unfold Record.afterCall
  split
  · split
    · exact h.setSubscribed _ _
    · exact h
  · exact (h.atCall c).store c _
  · exact h.atCall c

theorem agreeOn_afterCall (c : Command) (reply : Reply) :
    AgreeOn c (r.afterCall c (.reply reply)) (s.afterCall c (.reply reply)) := by
  cases c with
  | deviceStatus => exact ⟨rfl, rfl⟩
  | _ => first | rfl | trivial

end Record

namespace Driver

open Dialog (Alike)

/-- The drivers differ in their readings at most. -/
structure Alike (d d' : Driver) : Prop where
  settings : d.settings = d'.settings
  record : d.record.Alike d'.record

/-- The ends of a command: nothing but readings differs, and not the one it has brought. -/
structure Fresh (c : Command) (p q : Driver × Response) : Prop where
  driver : p.1.Alike q.1
  response : p.2 = q.2
  reading : p.2 ≠ .failed → Record.AgreeOn c p.1.record q.1.record

variable {d d' : Driver} {c : Command} {args : Args}

theorem Alike.localResponse?_eq (h : d.Alike d') (c : Command) :
    localResponse? d.record c = localResponse? d'.record c := by
  simp only [localResponse?, h.record.apiOpen, h.record.deviceOpen]

theorem Alike.sentArgs?_eq (h : d.Alike d') (c : Command) (args : Args) :
    sentArgs? d.record c args = sentArgs? d'.record c args := by
  simp only [sentArgs?, queriedNetwork?, h.record.networks]

theorem Alike.callArgs_eq (h : d.Alike d') (c : Command) (args : Args) :
    d.callArgs c args = d'.callArgs c args := by
  simp only [callArgs, h.sentArgs?_eq]

theorem Alike.afterCall (h : d.Alike d') (c : Command) (o : Outcome) :
    (d.afterCall c o).Alike (d'.afterCall c o) := ⟨h.settings, h.record.afterCall c o⟩

theorem agreeOn_of_localResponse? {r s t : Record} {response : Response}
    (h : localResponse? t c = some response) (hne : response ≠ .failed) : Record.AgreeOn c r s := by
  cases c with
  | listDevices | linkStatus | statistics =>
    simp [localResponse?, Command.isReserved, Command.needsOpenApi] at h
  | deviceStatus | connectedNsp | deviceInfo | packageInfo | provisioningStatus | contactInfo =>
    simp [localResponse?, Command.isReserved, Command.needsOpenApi] at h
    exact absurd h.2.symm hne
  | _ => trivial

theorem Alike.settled? (h : d.Alike d') (c : Command) (args : Args) :
    Option.Rel (Fresh c) (d.settled? c args) (d'.settled? c args) := by
  cases c with
  | subscribe ch =>
    simp only [Driver.settled?, h.record.subscriptions, h.settings]
    split_ifs
    · exact .some ⟨h, rfl, fun _ => trivial⟩
    · exact .none
    · exact .some ⟨⟨rfl, h.record.setSubscribed ch true⟩, rfl, fun _ => trivial⟩
  | unsubscribe ch =>
    simp only [Driver.settled?, h.record.subscriptions, h.settings]
    split_ifs
    · exact .none
    · exact .some ⟨⟨rfl, h.record.setSubscribed ch false⟩, rfl, fun _ => trivial⟩
    · exact .some ⟨h, rfl, fun _ => trivial⟩
  | _ =>
    simp only [Driver.settled?, h.localResponse?_eq, h.sentArgs?_eq]
    split
    · next hlocal => exact .some ⟨h, rfl, agreeOn_of_localResponse? hlocal⟩
    · split_ifs
      · exact .none
      · exact .some ⟨h, rfl, fun hne => absurd rfl hne⟩

theorem alike_attempt (h : d.Alike d') (c : Command) (args : Args) :
    Dialog.Alike (Fresh c) (d.attempt c args) (d'.attempt c args) := by
  rw [attempt_eq, attempt_eq]
  have hsettled := h.settled? c args
  cases hs : d.settled? c args <;> cases hs' : d'.settled? c args <;> rw [hs, hs'] at hsettled
  · rw [h.callArgs_eq]
    refine .ask _ fun o => .done ⟨h.afterCall c o, rfl, fun hne => ?_⟩
    cases o with
    | reply reply => exact Record.agreeOn_afterCall c reply
    | _ => exact absurd rfl hne
  · cases hsettled
  · cases hsettled
  · cases hsettled with
    | some hfresh => exact .done hfresh

/-- After a command that both perform, what goes the same way goes on with its reading. -/
theorem alike_attempt_bind {α β : Type} {S : α → β → Prop} {f : Driver × Response → Dialog α}
    {f' : Driver × Response → Dialog β} (h : d.Alike d')
    (hf : ∀ d₁ d₁' r, d₁.Alike d₁' → (r ≠ .failed → Record.AgreeOn c d₁.record d₁'.record) →
      Dialog.Alike S (f (d₁, r)) (f' (d₁', r))) :
    Dialog.Alike S (d.attempt c args >>= f) (d'.attempt c args >>= f') := by
  apply (alike_attempt h c args).bind
  intro p q hpq
  obtain ⟨d₁, r⟩ := p
  obtain ⟨d₁', _⟩ := q
  obtain ⟨hd, rfl, hread⟩ := hpq
  exact hf d₁ d₁' r hd hread

/-- The ends of a command for a caller. -/
structure FreshResult (c : Command) (p q : Driver × Except Fault Response) : Prop where
  driver : p.1.Alike q.1
  result : p.2 = q.2
  reading : p.2 = .ok .success → Record.AgreeOn c p.1.record q.1.record

theorem alike_perform (h : d.Alike d') (c : Command) (args : Args) :
    Dialog.Alike (FreshResult c) (d.perform c args) (d'.perform c args) := by
  rw [perform_eq, perform_eq]
  have hsettled := h.settled? c args
  cases hs : d.settled? c args <;> cases hs' : d'.settled? c args <;> rw [hs, hs'] at hsettled
  · rw [h.callArgs_eq]
    refine .ask _ fun o => .done ⟨h.afterCall c o, ?_, fun hok => ?_⟩
    · simp only [callResult, timeoutFault, h.settings]
    · cases o with
      | reply reply => exact Record.agreeOn_afterCall c reply
      | _ => simp [callResult] at hok
  · cases hsettled
  · cases hsettled
  · cases hsettled with
    | some hfresh =>
      refine .done ⟨hfresh.driver, by rw [hfresh.response], fun hok => hfresh.reading ?_⟩
      intro hfailed
      simp_all

theorem alike_cardPresent (h : d.Alike d') :
    Dialog.Alike (fun p q => p.1.Alike q.1 ∧ p.2 = q.2) d.cardPresent d'.cardPresent := by
  apply alike_attempt_bind h
  intro d₁ d₁' _ hd _
  apply alike_attempt_bind hd
  intro d₁ d₁' response hd hread
  refine .done ⟨hd, ?_⟩
  cases hs : response.isSuccess with
  | false => rfl
  | true =>
    have hdevices : d₁.record.devices = d₁'.record.devices := by
      apply hread
      rintro rfl
      simp at hs
    simp [Record.cardListed, hdevices]

theorem alike_lossMessage (h : d.Alike d') (response : Response) :
    Dialog.Alike (fun p q => p.1.Alike q.1 ∧ p.2 = q.2) (d.lossMessage response)
      (d'.lossMessage response) := by
  unfold lossMessage
  split
  · apply (alike_cardPresent h).bind
    intro p q hpq
    exact .done ⟨hpq.1, by rw [hpq.2]⟩
  · exact .done ⟨h, rfl⟩

end Driver

/-- The steps differ in the readings of the driver at most. -/
structure Step.Alike {φ : Type} (s s' : Step φ) : Prop where
  phase : s.phase = s'.phase
  driver : s.driver.Alike s'.driver
  verdict : s.verdict = s'.verdict
  message : s.message = s'.message

namespace Bringup

variable {b : Bringup} {d d' : Driver} {c : Command} {r : Response}

theorem alike_forward (b : Bringup) (h : d.Alike d') :
    (b.forward d).Alike (b.forward d') := ⟨rfl, h, rfl, rfl⟩

theorem alike_countIdleScan (b : Bringup) (budget : Nat) (h : d.Alike d') :
    (b.countIdleScan d budget).Alike (b.countIdleScan d' budget) := by
  unfold countIdleScan
  split <;> exact ⟨rfl, h, rfl, rfl⟩

theorem alike_afterStatus (b : Bringup) (h : d.Alike d') (hs : d.record.status = d'.record.status) :
    (b.afterStatus d).Alike (b.afterStatus d') := by
  unfold afterStatus
  rw [hs]
  split
  iterate 3 exact alike_forward b h
  · split
    · split <;> exact ⟨rfl, h, rfl, rfl⟩
    · split <;> exact ⟨rfl, h, rfl, rfl⟩
  · exact ⟨rfl, h, rfl, rfl⟩

theorem alike_afterSuccess (b : Bringup) (budget : Nat) (h : d.Alike d')
    (hread : Record.AgreeOn c d.record d'.record) :
    (b.afterSuccess d c budget).Alike (b.afterSuccess d' c budget) := by
  cases c with
  | listDevices =>
    have hdevices : d.record.devices = d'.record.devices := hread
    have hlisted : d.record.cardListed = d'.record.cardListed := by
      simp only [Record.cardListed, hdevices]
    unfold afterSuccess
    dsimp only
    rw [hlisted]
    split <;> exact ⟨rfl, h, rfl, rfl⟩
  | networkList =>
    simp only [afterSuccess, h.record.networks]
    split
    · exact alike_countIdleScan b budget h
    · exact alike_forward _ h
  | deviceStatus => exact alike_afterStatus b h hread.1
  | _ => exact alike_forward b h

theorem alike_afterFailure (b : Bringup) (c : Command) (budget : Nat) (h : d.Alike d') :
    (b.afterFailure d c budget).Alike (b.afterFailure d' c budget) := by
  unfold afterFailure
  split
  · exact alike_countIdleScan b budget h
  · exact ⟨rfl, h, rfl, rfl⟩
  · exact ⟨rfl, h, rfl, rfl⟩

theorem alike_afterResponse (b : Bringup) (budget : Nat) (h : d.Alike d')
    (hread : r ≠ .failed → Record.AgreeOn c d.record d'.record) :
    Dialog.Alike Step.Alike (b.afterResponse d c budget r) (b.afterResponse d' c budget r) := by
  unfold afterResponse
  split
  · next hr =>
    have hagree := hread (by rw [hr]; decide)
    exact .done (alike_afterSuccess b budget h hagree)
  split
  · exact .done (alike_forward b h)
  split
  · apply (Driver.alike_lossMessage h r).bind
    intro p q hpq
    exact .done ⟨rfl, hpq.1, rfl, congrArg some hpq.2⟩
  split
  · exact .done (alike_afterFailure b c budget h)
  · exact .done ⟨rfl, h, rfl, rfl⟩

theorem alike_step (b : Bringup) (budget : Nat) (h : d.Alike d') :
    Dialog.Alike Step.Alike (b.step d budget) (b.step d' budget) := by
  unfold step
  split
  · exact .done ⟨rfl, h, rfl, rfl⟩
  · apply Driver.alike_attempt_bind h
    intro d₁ d₁' response hd hread
    exact alike_afterResponse _ budget hd hread

end Bringup

namespace Attach

variable {a : Attach} {d d' : Driver} {r : Response}

/-- The ends of the step of an attachment. The link that is reported with its success has been
probed in the same step. -/
structure AlikeStep (s s' : Step Attach) : Prop where
  step : s.Alike s'
  link : s.verdict = .finished → s.driver.record.link = s'.driver.record.link

theorem alikeStep_of_unfinished {s s' : Step Attach} (h : s.Alike s') (hv : s.verdict ≠ .finished) :
    AlikeStep s s' := ⟨h, fun hf => absurd hf hv⟩

theorem alike_loseCard (a : Attach) (r : Response) (h : d.Alike d') :
    Dialog.Alike AlikeStep (a.loseCard d r) (a.loseCard d' r) := by
  apply (Driver.alike_lossMessage h r).bind
  intro p q hpq
  refine .done (alikeStep_of_unfinished ⟨rfl, hpq.1, rfl, congrArg some hpq.2⟩ ?_)
  exact Verdict.noConfusion

theorem alike_request (a : Attach) (preferred : String) (h : d.Alike d') :
    Dialog.Alike AlikeStep (a.request d preferred) (a.request d' preferred) := by
  have htarget : target? d.record preferred = target? d'.record preferred := by
    simp only [target?, Record.findNetwork?, h.record.networks]
  unfold request
  rw [htarget]
  split
  · exact .done (alikeStep_of_unfinished ⟨rfl, h, rfl, rfl⟩ Verdict.noConfusion)
  · apply Driver.alike_attempt_bind h
    intro d₁ d₁' response hd _
    dsimp only
    split
    · exact .done (alikeStep_of_unfinished ⟨rfl, hd, rfl, rfl⟩ Verdict.noConfusion)
    split
    · exact alike_loseCard a response hd
    · exact .done (alikeStep_of_unfinished ⟨rfl, hd, rfl, rfl⟩ Verdict.noConfusion)

theorem alike_afterStatus (a : Attach) (h : d.Alike d')
    (hread : Record.AgreeOn .deviceStatus d.record d'.record) :
    AlikeStep (a.afterStatus d) (a.afterStatus d') := by
  have halike : (a.afterStatus d).Alike (a.afterStatus d') ∧
      (a.afterStatus d).verdict ≠ .finished := by
    unfold afterStatus
    rw [hread.1, hread.2]
    split
    iterate 2
      split <;> exact ⟨⟨rfl, h, rfl, rfl⟩, Verdict.noConfusion⟩
    · exact ⟨⟨rfl, h, rfl, rfl⟩, Verdict.noConfusion⟩
    · split <;> exact ⟨⟨rfl, h, rfl, rfl⟩, Verdict.noConfusion⟩
    · exact ⟨⟨rfl, h, rfl, rfl⟩, Verdict.noConfusion⟩
  exact alikeStep_of_unfinished halike.1 halike.2

theorem alike_checkRadio (a : Attach) (h : d.Alike d') :
    Dialog.Alike AlikeStep (a.checkRadio d) (a.checkRadio d') := by
  apply Driver.alike_attempt_bind h
  intro d₁ d₁' response hd hread
  dsimp only
  split
  · exact alike_loseCard a response hd
  split
  · next hr => exact .done (alike_afterStatus a hd (hread (by rw [hr]; decide)))
  · exact .done (alikeStep_of_unfinished ⟨rfl, hd, rfl, rfl⟩ Verdict.noConfusion)

/-- The request for the interface keeps the link that was just probed. -/
theorem alike_finish (a : Attach) (h : d.Alike d') (hlink : d.record.link = d'.record.link) :
    Dialog.Alike AlikeStep (a.finish d) (a.finish d') := by
  have hask : ∀ d : Driver, d.attempt .ipInterface .nothing =
      .ask ⟨.ipInterface, .nothing⟩ fun o => .done (d.afterCall .ipInterface o, o.response) := by
    intro d
    rw [Driver.attempt_eq]
    rfl
  have hkeeps : ∀ (d : Driver) o, (d.afterCall .ipInterface o).record.link = d.record.link := by
    intro d o
    cases o <;> rfl
  unfold finish
  rw [hask, hask]
  refine .ask _ fun o => .done ⟨⟨rfl, h.afterCall .ipInterface o, rfl, rfl⟩, fun _ => ?_⟩
  exact (hkeeps d o).trans (hlink.trans (hkeeps d' o).symm)

theorem alike_checkLink (a : Attach) (h : d.Alike d') :
    Dialog.Alike AlikeStep (a.checkLink d) (a.checkLink d') := by
  apply Driver.alike_attempt_bind h
  intro d₁ d₁' response hd hread
  dsimp only
  split
  · next hr => exact alike_finish a hd (hread (by rw [hr]; decide))
  split
  · next hr =>
    have hlink : d₁.record.link = d₁'.record.link := hread (by rw [hr]; decide)
    rw [hlink]
    split
    · exact alike_finish a hd hlink
    · exact .done (alikeStep_of_unfinished ⟨rfl, hd, rfl, rfl⟩ Verdict.noConfusion)
  split
  · exact alike_loseCard a response hd
  · exact .done (alikeStep_of_unfinished ⟨rfl, hd, rfl, rfl⟩ Verdict.noConfusion)

theorem alike_step (a : Attach) (preferred : String) (h : d.Alike d') :
    Dialog.Alike AlikeStep (a.step d preferred) (a.step d' preferred) := by
  rw [step_eq, step_eq]
  split
  · exact alike_request _ preferred h
  split
  · exact alike_checkRadio _ h
  · exact alike_checkLink _ h

end Attach

namespace Monitor

variable {w : Monitor} {d d' : Driver} {r : Response}

theorem alike_afterStatus (w : Monitor) (h : d.Alike d')
    (hread : r ≠ .failed → Record.AgreeOn .deviceStatus d.record d'.record) :
    (w.afterStatus d r).Alike (w.afterStatus d' r) := by
  unfold afterStatus
  dsimp only
  split
  · next hr =>
    have hstatus := (hread (by rw [hr]; decide)).1
    rw [hstatus]
    split
    · exact ⟨rfl, h, rfl, rfl⟩
    · split <;> exact ⟨rfl, h, rfl, rfl⟩
    · exact ⟨rfl, h, rfl, rfl⟩
  · exact ⟨rfl, h, rfl, rfl⟩

theorem alike_step (w : Monitor) (h : d.Alike d') :
    Dialog.Alike (fun p q => p.1.Alike q.1 ∧ p.2 = q.2) (w.step d) (w.step d') := by
  unfold step
  split
  · exact .done ⟨⟨rfl, h, rfl, rfl⟩, rfl⟩
  · next c cursor hpick =>
    apply Driver.alike_attempt_bind h
    intro d₁ d₁' response hd hread
    dsimp only
    split
    · next hc =>
      subst hc
      exact .done ⟨alike_afterStatus _ hd hread, rfl⟩
    · next hc =>
      have hmem : c ∈ script := by
        obtain ⟨c', hc', hpick'⟩ := w.cursor.exists_pick (by simp [script])
        rw [hpick] at hpick'
        obtain ⟨rfl, -⟩ := Prod.mk.inj (Option.some.inj hpick')
        exact List.mem_of_getElem? hc'
      have hlast : c = .linkStatus := by simpa [script, hc] using hmem
      subst hlast
      refine .done ⟨⟨rfl, hd, rfl, rfl⟩, ?_⟩
      unfold sample?
      split
      · next hr =>
        have hlink : d₁.record.link = d₁'.record.link := hread (by rw [hr]; decide)
        rw [hlink]
      · rfl

end Monitor

namespace Teardown

theorem alike_step {d d' : Driver} (t : Teardown) (h : d.Alike d') :
    Dialog.Alike Step.Alike (t.step d) (t.step d') := by
  unfold step
  split
  · exact .done ⟨rfl, h, rfl, rfl⟩
  · apply Driver.alike_attempt_bind h
    intro d₁ d₁' response hd _
    exact .done ⟨rfl, hd, rfl, rfl⟩

end Teardown

end Wimax
