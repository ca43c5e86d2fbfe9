import Wimax.Proofs.Calls

/-!
The flags of the record as the trace of the commands carried out. A command that was answered with
success shows in the flags and goes on showing until a command is performed that undoes it, and a
device or a channel is open only while the interface is.
-/

namespace Wimax

/-- The first command can undo what the second one has done to the flags. -/
def Command.undoes : Command → Command → Bool
  | apiOpen, apiClose | deviceOpen, apiClose | subscribe _, apiClose => true
  | apiClose, apiOpen | apiClose, deviceOpen | apiClose, subscribe _ => true
  | deviceOpen, deviceClose | deviceClose, deviceOpen => true
  | subscribe ch, unsubscribe ch' | unsubscribe ch, subscribe ch' => ch == ch'
  | _, _ => false

/-- The command lowers no flag, and raises that of the interface at most. -/
def Command.isHarmless : Command → Bool
  | deviceOpen | deviceClose | apiClose | subscribe _ | unsubscribe _ => false
  | _ => true

theorem Command.undoes_of_isHarmless {c c' : Command} (hc : c.isHarmless = true)
    (hc' : c' ≠ .apiClose) : c.undoes c' = false := by
  cases c <;> cases c' <;> simp_all [undoes, isHarmless]

namespace Record

structure Closed (r : Record) : Prop where
  api : r.apiOpen = false
  device : r.deviceOpen = false
  channel : ∀ ch, r.subscriptions.has ch = false

/-- The flags are as a command that succeeds leaves them. -/
def Shows (r : Record) : Command → Prop
  | .apiOpen => r.apiOpen = true
  | .deviceOpen => r.deviceOpen = true
  | .subscribe ch => r.subscriptions.has ch = true
  | .unsubscribe ch => r.subscriptions.has ch = false
  | .deviceClose => r.deviceOpen = false
  | .apiClose => r.Closed
  | _ => True

/-- Parts of the driver are open only while its interface is. -/
structure Coherent (r : Record) : Prop where
  device : r.deviceOpen = true → r.apiOpen = true
  channel : ∀ ch, r.subscriptions.has ch = true → r.apiOpen = true

theorem Coherent.closed {r : Record} (h : r.Coherent) (hr : r.apiOpen = false) : r.Closed where
  api := hr
  device := by
    by_contra hd
    simp [h.device (by simpa using hd)] at hr
  channel := by
    intro ch
    by_contra hc
    simp [h.channel ch (by simpa using hc)] at hr

theorem closed_empty : ({} : Record).Closed := ⟨rfl, rfl, by simp⟩

theorem Closed.coherent {r : Record} (h : r.Closed) : r.Coherent where
  device hd := by simp [h.device] at hd
  channel ch hc := by simp [h.channel] at hc

theorem shows_afterCall {r : Record} {c : Command} {o : Outcome} (h : o.response = .success) :
    (r.afterCall c o).Shows c := by
  cases c with
  | apiOpen => simp [Shows, apiOpen_afterCall, h]
  | deviceOpen => simp [Shows, deviceOpen_afterCall, h]
  | subscribe ch => simp [Shows, has_afterCall, h]
  | unsubscribe ch => simp [Shows, ← Bool.not_eq_true, has_afterCall]
  | deviceClose =>
    obtain ⟨reply, rfl⟩ : ∃ reply, o = .reply reply := by
      cases o <;> simp_all [Outcome.response]
    simp [Shows, ← Bool.not_eq_true, deviceOpen_afterCall]
  | apiClose =>
    constructor <;>
      simp [← Bool.not_eq_true, apiOpen_afterCall, deviceOpen_afterCall, has_afterCall, h]
  | _ => trivial

theorem Shows.afterCall {r : Record} {c c' : Command} (h : r.Shows c') (hc : c.undoes c' = false)
    (o : Outcome) : (r.afterCall c o).Shows c' := by
  cases c' with
  | apiOpen =>
    refine apiOpen_afterCall.mpr (.inl ⟨h, ?_⟩)
    rintro ⟨rfl, -⟩
    simp [Command.undoes] at hc
  | deviceOpen =>
    refine deviceOpen_afterCall.mpr (.inl ⟨h, ?_, ?_⟩) <;>
    · rintro ⟨rfl, -⟩
      simp [Command.undoes] at hc
  | subscribe ch =>
    refine has_afterCall.mpr (.inl ⟨h, ?_, ?_⟩)
    · rintro rfl
      simp [Command.undoes] at hc
    · rintro ⟨rfl, -⟩
      simp [Command.undoes] at hc
  | unsubscribe ch =>
    simp only [Shows, ← Bool.not_eq_true, has_afterCall] at h ⊢
    rintro (⟨hch, -⟩ | ⟨rfl, -⟩)
    · exact h hch
    · simp [Command.undoes] at hc
  | deviceClose =>
    simp only [Shows, ← Bool.not_eq_true, deviceOpen_afterCall] at h ⊢
    rintro (⟨hd, -⟩ | ⟨rfl, -⟩)
    · exact h hd
    · simp [Command.undoes] at hc
  | apiClose =>
    obtain ⟨ha, hd, hs⟩ := h
    refine ⟨?_, ?_, fun ch => ?_⟩
    · rw [← Bool.not_eq_true, apiOpen_afterCall]
      rintro (⟨h, -⟩ | ⟨rfl, -⟩)
      · simp [ha] at h
      · simp [Command.undoes] at hc
    · rw [← Bool.not_eq_true, deviceOpen_afterCall]
      rintro (⟨h, -⟩ | ⟨rfl, -⟩)
      · simp [hd] at h
      · simp [Command.undoes] at hc
    · rw [← Bool.not_eq_true, has_afterCall]
      rintro (⟨h, -⟩ | ⟨rfl, -⟩)
      · simp [hs] at h
      · simp [Command.undoes] at hc
  | _ => trivial

theorem Coherent.afterCall {r : Record} {c : Command} (h : r.Coherent)
    (hd : c = .deviceOpen → r.apiOpen = true) (hs : ∀ ch, c = .subscribe ch → r.apiOpen = true)
    (o : Outcome) : (r.afterCall c o).Coherent where
  device := by
    rw [deviceOpen_afterCall, apiOpen_afterCall]
    rintro (⟨hr, -, ha⟩ | ⟨rfl, -⟩)
    · exact .inl ⟨h.device hr, ha⟩
    · exact .inl ⟨hd rfl, by simp⟩
  channel ch := by
    rw [has_afterCall, apiOpen_afterCall]
    rintro (⟨hr, -, ha⟩ | ⟨rfl, -⟩)
    · exact .inl ⟨h.channel ch hr, ha⟩
    · exact .inl ⟨hs ch rfl, by simp⟩

end Record

namespace Driver

open Record

variable {d d' : Driver} {c c' : Command} {args : Args} {response : Response} {acts : List Act}

theorem shows_of_localResponse? {r : Record} (h : localResponse? r c = some .success)
    (hr : r.Coherent) : r.Shows c := by
  cases c with
  | apiOpen => simpa [Shows, localResponse?, Command.isReserved, Command.needsOpenApi] using h
  | deviceOpen => simpa [Shows, localResponse?, Command.isReserved, Command.needsOpenApi] using h
  | deviceClose =>
    have ha : r.apiOpen = false := by
      simpa [localResponse?, Command.isReserved, Command.needsOpenApi] using h
    exact (hr.closed ha).device
  | apiClose =>
    have ha : r.apiOpen = false := by
      simpa [localResponse?, Command.isReserved, Command.needsOpenApi] using h
    exact hr.closed ha
  | subscribe ch => simp [localResponse?, Command.isReserved, Command.needsOpenApi] at h
  | unsubscribe ch => simp [localResponse?, Command.isReserved, Command.needsOpenApi] at h
  | _ => trivial

/-- A command that costs no call leaves the driver alone, or does what success would do. -/
theorem afterCall_of_settled? (h : d.settled? c args = some (d', response)) :
    (d' = d ∧ (response = .success → d.record.Coherent → d.record.Shows c)) ∨
      (response = .success ∧ d' = d.afterCall c (.reply ⟨.success, .nothing⟩)) := by
  cases c with
  | subscribe ch =>
    simp only [settled?] at h
    split at h
    · next hs =>
      obtain ⟨rfl, rfl⟩ : d = d' ∧ _ = response := by simpa using h
      exact .inl ⟨rfl, fun _ _ => hs⟩
    · split at h
      · simp at h
      · obtain ⟨rfl, rfl⟩ : _ = d' ∧ _ = response := by simpa using h
        exact .inr ⟨rfl, rfl⟩
  | unsubscribe ch =>
    simp only [settled?] at h
    split at h
    · split at h
      · simp at h
      · obtain ⟨rfl, rfl⟩ : _ = d' ∧ _ = response := by simpa using h
        exact .inr ⟨rfl, rfl⟩
    · next hs =>
      obtain ⟨rfl, rfl⟩ : d = d' ∧ _ = response := by simpa using h
      exact .inl ⟨rfl, fun _ _ => by simpa [Shows] using hs⟩
  | _ =>
    simp only [settled?] at h
    split at h
    · next r hl =>
      obtain ⟨rfl, rfl⟩ : d = d' ∧ r = response := by simpa using h
      refine .inl ⟨rfl, ?_⟩
      rintro rfl hr
      exact shows_of_localResponse? hl hr
    · split at h
      · simp at h
      · obtain ⟨rfl, rfl⟩ : d = d' ∧ _ = response := by simpa using h
        exact .inl ⟨rfl, fun h => by simp at h⟩

/-- The driver after a command: as before it, or as after a call of it. -/
def Served (d : Driver) (c : Command) (d' : Driver) : Prop := d' = d ∨ ∃ o, d' = d.afterCall c o

theorem served_attempt (h : (d.attempt c args).Runs acts (d', response)) : d.Served c d' := by
  rcases runs_attempt h with ⟨hs, -⟩ | ⟨o, -, -, hd, -⟩
  · rcases afterCall_of_settled? hs with ⟨hd, -⟩ | ⟨-, hd⟩
    · exact .inl hd
    · exact .inr ⟨_, hd⟩
  · exact .inr ⟨o, hd⟩

theorem served_perform {result : Except Fault Response}
    (h : (d.perform c args).Runs acts (d', result)) : d.Served c d' := by
  rcases runs_perform h with ⟨response, hs, -, -⟩ | ⟨o, -, -, hd, -⟩
  · rcases afterCall_of_settled? hs with ⟨hd, -⟩ | ⟨-, hd⟩
    · exact .inl hd
    · exact .inr ⟨_, hd⟩
  · exact .inr ⟨o, hd⟩

theorem shows_attempt (hr : d.record.Coherent)
    (h : (d.attempt c args).Runs acts (d', .success)) : d'.record.Shows c := by
  rcases runs_attempt h with ⟨hs, -⟩ | ⟨o, -, -, rfl, ho⟩
  · rcases afterCall_of_settled? hs with ⟨rfl, hshow⟩ | ⟨-, rfl⟩
    · exact hshow rfl hr
    · exact shows_afterCall rfl
  · exact shows_afterCall ho.symm

theorem Served.settings (h : d.Served c d') : d'.settings = d.settings := by
  rcases h with rfl | ⟨o, rfl⟩ <;> rfl

theorem Served.networks (h : d.Served c d') (hc : c ≠ .networkList) :
    d'.record.networks = d.record.networks := by
  rcases h with rfl | ⟨o, rfl⟩
  · rfl
  · exact Record.networks_afterCall o hc

theorem Served.shows (h : d.Served c d') (hc : c.undoes c' = false) (hs : d.record.Shows c') :
    d'.record.Shows c' := by
  rcases h with rfl | ⟨o, rfl⟩
  · exact hs
  · exact hs.afterCall hc o

theorem Served.coherent (h : d.Served c d') (hr : d.record.Coherent)
    (hd : c = .deviceOpen → d.record.apiOpen = true)
    (hs : ∀ ch, c = .subscribe ch → d.record.apiOpen = true) : d'.record.Coherent := by
  rcases h with rfl | ⟨o, rfl⟩
  · exact hr
  · exact hr.afterCall hd hs o

theorem has_attempt_unsubscribe {ch : Channel}
    (h : (d.attempt (.unsubscribe ch) args).Runs acts (d', response)) :
    d'.record.subscriptions.has ch = false := by
  rcases runs_attempt h with ⟨hs, -⟩ | ⟨o, -, -, rfl, -⟩
  · rcases afterCall_of_settled? hs with ⟨rfl, hshow⟩ | ⟨-, rfl⟩
    · simp only [settled?] at hs
      split at hs
      · split at hs
        · simp at hs
        · simp only [Option.some.injEq, Prod.mk.injEq] at hs
          rw [← hs.1]
          simp [setSubscribed]
      · simp_all
    · simp [← Bool.not_eq_true, has_afterCall]
  · simp [← Bool.not_eq_true, has_afterCall]

/-- The driver after a look for the card. -/
def Looked (d d' : Driver) : Prop := ∃ d₁, d.Served .apiOpen d₁ ∧ d₁.Served .listDevices d'

theorem Looked.refl (d : Driver) : d.Looked d := ⟨d, .inl rfl, .inl rfl⟩

theorem looked_cardPresent {present : Bool} (h : d.cardPresent.Runs acts (d', present)) :
    d.Looked d' := by
  obtain ⟨⟨d₁, r₁⟩, first, rest, rfl, h₁, h⟩ := Dialog.runs_bind_iff.mp h
  obtain ⟨⟨d₂, r₂⟩, first', rest', rfl, h₂, h⟩ := Dialog.runs_bind_iff.mp h
  simp only [Dialog.pure_eq, Dialog.runs_done_iff, Prod.mk.injEq] at h
  obtain ⟨rfl, rfl, -⟩ := h
  exact ⟨d₁, served_attempt h₁, served_attempt h₂⟩

theorem looked_lossMessage {m : Message} (h : (d.lossMessage response).Runs acts (d', m)) :
    d.Looked d' := by
  unfold lossMessage at h
  split at h
  · obtain ⟨⟨d₁, present⟩, first, rest, rfl, h₁, h⟩ := Dialog.runs_bind_iff.mp h
    simp only [Dialog.pure_eq, Dialog.runs_done_iff, Prod.mk.injEq] at h
    obtain ⟨rfl, rfl, -⟩ := h
    exact looked_cardPresent h₁
  · simp only [Dialog.runs_done_iff, Prod.mk.injEq] at h
    obtain ⟨rfl, rfl, -⟩ := h
    exact .refl _

/-- No flag was lowered, and none but that of the interface raised. -/
structure Keeps (d d' : Driver) : Prop where
  settings : d'.settings = d.settings
  coherent : d.record.Coherent → d'.record.Coherent
  shows : ∀ c, c ≠ .apiClose → d.record.Shows c → d'.record.Shows c

theorem Keeps.refl (d : Driver) : d.Keeps d := ⟨rfl, id, fun _ _ => id⟩

theorem Keeps.trans {d₁ d₂ d₃ : Driver} (h₁ : d₁.Keeps d₂) (h₂ : d₂.Keeps d₃) : d₁.Keeps d₃ where
  settings := h₂.settings.trans h₁.settings
  coherent h := h₂.coherent (h₁.coherent h)
  shows c hc h := h₂.shows c hc (h₁.shows c hc h)

theorem Served.keeps (h : d.Served c d') (hc : c.isHarmless = true) : d.Keeps d' where
  settings := h.settings
  coherent hr := by
    refine h.coherent hr ?_ ?_
    · rintro rfl
      simp [Command.isHarmless] at hc
    · rintro ch rfl
      simp [Command.isHarmless] at hc
  shows c' hc' hs := h.shows (Command.undoes_of_isHarmless hc hc') hs

theorem Looked.keeps (h : d.Looked d') : d.Keeps d' := by
  obtain ⟨d₁, h₁, h₂⟩ := h
  exact (h₁.keeps rfl).trans (h₂.keeps rfl)

end Driver

end Wimax
