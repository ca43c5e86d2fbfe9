import Wimax.Proofs.CallTrace

/-!
The flags of the record as a function of the history. Which parts of the driver are open can be read
off the calls and their ends alone, whatever is asked of the driver and whatever the card does, and
the card never sees a call that is redundant or out of order by that reading.
-/

namespace Wimax

theorem snoc_eq_split_iff {α : Type} {cs before after : List α} {last call : α} :
    cs ++ [last] = before ++ call :: after ↔
      (after = [] ∧ before = cs ∧ call = last) ∨
        ∃ rest, after = rest ++ [last] ∧ cs = before ++ call :: rest := by
  constructor
  · intro h
    rcases List.eq_nil_or_concat after with rfl | ⟨rest, final, rfl⟩
    · obtain ⟨hcs, hcall⟩ := List.append_inj' h rfl
      exact .inl ⟨rfl, hcs.symm, by simpa using hcall.symm⟩
    · have hsplit : cs ++ [last] = (before ++ call :: rest) ++ [final] := by simpa using h
      obtain ⟨hcs, hlast⟩ := List.append_inj' hsplit rfl
      exact .inr ⟨rest, by simpa using hlast.symm, hcs⟩
  · rintro (⟨rfl, rfl, rfl⟩ | ⟨rest, rfl, rfl⟩)
    · rfl
    · simp

/-- The history holds a call that satisfies `p`, and none since that satisfies `q`. -/
def Since (p q : Request × Outcome → Prop) (cs : List (Request × Outcome)) : Prop :=
  ∃ before call after, cs = before ++ call :: after ∧ p call ∧ ∀ later ∈ after, ¬q later

section Since

variable {p q : Request × Outcome → Prop} {cs : List (Request × Outcome)}
  {call : Request × Outcome}

theorem not_since_nil : ¬Since p q [] := by
  rintro ⟨before, call, after, he, -⟩
  simp at he

theorem since_snoc_iff : Since p q (cs ++ [call]) ↔ (Since p q cs ∧ ¬q call) ∨ p call := by
  constructor
  · rintro ⟨before, first, after, he, hp, hafter⟩
    rcases snoc_eq_split_iff.mp he with ⟨-, -, rfl⟩ | ⟨rest, rfl, rfl⟩
    · exact .inr hp
    · refine .inl ⟨⟨before, first, rest, rfl, hp, ?_⟩, hafter call (by simp)⟩
      exact fun later hlater => hafter later (List.mem_append_left _ hlater)
  · rintro (⟨⟨before, first, after, rfl, hp, hafter⟩, hq⟩ | hp)
    · refine ⟨before, first, after ++ [call], by simp, hp, ?_⟩
      intro later hlater
      rcases List.mem_append.mp hlater with hlater | hlater
      · exact hafter later hlater
      · rwa [List.mem_singleton.mp hlater]
    · exact ⟨cs, call, [], rfl, hp, by simp⟩

end Since

/-- A call of the command was answered with success. -/
def Succeeds (c : Command) (call : Request × Outcome) : Prop :=
  call.1.command = c ∧ call.2.response = .success

/-- A call of the command was answered. -/
def IsAnswered (c : Command) (call : Request × Outcome) : Prop :=
  call.1.command = c ∧ ∃ reply, call.2 = .reply reply

/-- By the history the interface is open. -/
def OpensApi (cs : List (Request × Outcome)) : Prop :=
  Since (Succeeds .apiOpen) (Succeeds .apiClose) cs

/-- By the history the device is open. Any answer to its closing counts. -/
def OpensDevice (cs : List (Request × Outcome)) : Prop :=
  Since (Succeeds .deviceOpen)
    (fun call => IsAnswered .deviceClose call ∨ Succeeds .apiClose call) cs

/-- By the history the channel is subscribed to. A cancellation counts whatever becomes of it. -/
def Subscribes (ch : Channel) (cs : List (Request × Outcome)) : Prop :=
  Since (Succeeds (.subscribe ch))
    (fun call => call.1.command = .unsubscribe ch ∨ Succeeds .apiClose call) cs

/-- A call of the command is neither redundant nor out of order after the history `before`. -/
structure InOrder (notices : Bool) (before : List (Request × Outcome)) (c : Command) : Prop where
  reserved : c.isReserved = false
  apiOpen : c = .apiOpen → ¬OpensApi before
  needsApi : c = .apiClose ∨ c = .deviceClose ∨ c.needsOpenApi = true → OpensApi before
  deviceOpen : c = .deviceOpen → ¬OpensDevice before
  subscribe : ∀ ch, c = .subscribe ch → notices = true ∧ ¬Subscribes ch before
  unsubscribe : ∀ ch, c = .unsubscribe ch → notices = true ∧ Subscribes ch before

namespace Driver

variable {d d' : Driver} {c : Command} {args : Args} {cs : List (Request × Outcome)} {o : Outcome}

/-- The flags are those of the history. -/
structure Mirrors (d : Driver) (cs : List (Request × Outcome)) : Prop where
  api : d.record.apiOpen = true ↔ OpensApi cs
  device : d.record.deviceOpen = true ↔ OpensDevice cs
  channel : d.settings.notices = true →
    ∀ ch, d.record.subscriptions.has ch = true ↔ Subscribes ch cs

theorem mirrors_nil (settings : DriverSettings) : ({ settings } : Driver).Mirrors [] where
  api := iff_of_false (by simp) not_since_nil
  device := iff_of_false (by simp) not_since_nil
  channel _ ch := iff_of_false (by simp) not_since_nil

theorem Mirrors.settle {response : Response} (h : d.Mirrors cs)
    (hs : d.settled? c args = some (d', response)) : d'.Mirrors cs := by
  rcases driver_of_settled? hs with rfl | ⟨hn, ch, on, -, rfl⟩
  · exact h
  · refine ⟨h.api, h.device, fun hnotices => ?_⟩
    have hnotices : d.settings.notices = true := hnotices
    simp [hn] at hnotices

theorem Mirrors.call (h : d.Mirrors cs) (args : Args) (o : Outcome) :
    (d.afterCall c o).Mirrors (cs ++ [(⟨c, args⟩, o)]) where
  api := by
    rw [OpensApi, since_snoc_iff, record_afterCall, Record.apiOpen_afterCall, h.api]
    rfl
  device := by
    rw [OpensDevice, since_snoc_iff, record_afterCall, Record.deviceOpen_afterCall, h.device,
      not_or]
    rfl
  channel hn ch := by
    rw [Subscribes, since_snoc_iff, record_afterCall, Record.has_afterCall, h.channel hn ch,
      not_or]
    rfl

theorem guards_of_localResponse? {r : Record} (h : localResponse? r c = none) :
    c.isReserved = false ∧ (c = .apiOpen → r.apiOpen = false) ∧
      (c = .apiClose ∨ c = .deviceClose ∨ c.needsOpenApi = true → r.apiOpen = true) ∧
      (c = .deviceOpen → r.deviceOpen = false) := by
  unfold localResponse? at h
  split at h
  · simp at h
  next hreserved =>
  split at h
  · simp at h
  next hneeds =>
  refine ⟨by simpa using hreserved, ?_, ?_, ?_⟩
  · rintro rfl
    simpa using h
  · rintro (rfl | rfl | hc)
    · simpa using h
    · simpa using h
    · simpa [hc] using hneeds
  · rintro rfl
    simpa using h

theorem localResponse?_of_settled? (hs : d.settled? c args = none)
    (hsub : ∀ ch, c ≠ .subscribe ch) (hun : ∀ ch, c ≠ .unsubscribe ch) :
    localResponse? d.record c = none := by
  cases hlocal : localResponse? d.record c with
  | none => rfl
  | some response =>
    cases c <;> simp [settled?, hlocal] at hs hsub hun

theorem inOrder_of_settled? (h : d.Mirrors cs) (hs : d.settled? c args = none) :
    InOrder d.settings.notices cs c := by
  by_cases hsub : ∃ ch, c = .subscribe ch
  · obtain ⟨ch, rfl⟩ := hsub
    simp only [settled?] at hs
    split_ifs at hs with hch hn
    refine ⟨rfl, by simp, by simp [Command.needsOpenApi], by simp, ?_, by simp⟩
    intro ch' he
    obtain rfl := Command.subscribe.inj he
    exact ⟨hn, fun hc => hch ((h.channel hn ch).mpr hc)⟩
  by_cases hun : ∃ ch, c = .unsubscribe ch
  · obtain ⟨ch, rfl⟩ := hun
    simp only [settled?] at hs
    split_ifs at hs with hch hn
    refine ⟨rfl, by simp, by simp [Command.needsOpenApi], by simp, by simp, ?_⟩
    intro ch' he
    obtain rfl := Command.unsubscribe.inj he
    exact ⟨hn, (h.channel hn ch).mp hch⟩
  have hlocal := localResponse?_of_settled? hs (fun ch he => hsub ⟨ch, he⟩)
    (fun ch he => hun ⟨ch, he⟩)
  obtain ⟨hreserved, hapi, hneeds, hdevice⟩ := guards_of_localResponse? hlocal
  refine ⟨hreserved, ?_, fun hc => h.api.mp (hneeds hc), ?_, ?_, ?_⟩
  · intro hc hopen
    simp [h.api.mpr hopen] at hapi
    exact hapi hc
  · intro hc hopen
    simp [h.device.mpr hopen] at hdevice
    exact hdevice hc
  · exact fun ch he => absurd ⟨ch, he⟩ hsub
  · exact fun ch he => absurd ⟨ch, he⟩ hun

/-- What is asked of a driver. -/
inductive Job
  | perform (c : Command) (args : Args)
  | attempt (c : Command) (args : Args)
  | cardPresent
  deriving DecidableEq, Repr

def doJob (d : Driver) : Job → Dialog Driver
  | .perform c args => do
    let (d, _) ← d.perform c args
    return d
  | .attempt c args => do
    let (d, _) ← d.attempt c args
    return d
  | .cardPresent => do
    let (d, _) ← d.cardPresent
    return d

/-- `d.Works jobs acts d'` when the jobs, done in this order, can have the history `acts` and lead
from `d` to `d'`. -/
inductive Works (d : Driver) : List Job → List Act → Driver → Prop
  | nil : d.Works [] [] d
  | snoc {jobs : List Job} {acts more : List Act} {d₁ d₂ : Driver} {job : Job}
      (prior : d.Works jobs acts d₁) (last : (d₁.doJob job).Runs more d₂) :
      d.Works (jobs ++ [job]) (acts ++ more) d₂

theorem traces_doJob (d : Driver) (job : Job) : (d.doJob job).Traces d id := by
  cases job with
  | perform c args => exact (d.traces_perform c args).bind fun _ => Dialog.traces_done rfl
  | attempt c args => exact (d.traces_attempt c args).bind fun _ => Dialog.traces_done rfl
  | cardPresent => exact d.traces_cardPresent.bind fun _ => Dialog.traces_done rfl

theorem Works.trace {jobs : List Job} {acts : List Act} (h : d.Works jobs acts d') :
    d.Trace (calls acts) d' := by
  induction h with
  | nil => exact .nil
  | snoc _ last ih =>
    rw [calls_append]
    exact ih.trans (traces_doJob _ _ _ _ last)

/-- Along a trace the flags stay in step with the history, and every call is in order. -/
theorem Trace.mirrors {settings : DriverSettings} (h : ({ settings } : Driver).Trace cs d) :
    d.settings = settings ∧ d.Mirrors cs ∧
      ∀ before r o after, cs = before ++ (r, o) :: after →
        InOrder settings.notices before r.command := by
  -- The guards read the flags, so a call is in order because the flags before it mirror the history.
  induction h with
  | nil => exact ⟨rfl, mirrors_nil settings, by simp⟩
  | @settle cs d₁ d₂ c args response prior hs ih =>
    obtain ⟨hsettings, hmirrors, horder⟩ := ih
    refine ⟨?_, hmirrors.settle hs, horder⟩
    rcases driver_of_settled? hs with rfl | ⟨-, ch, on, -, rfl⟩
    · exact hsettings
    · exact hsettings
  | @call cs d₁ c args prior hs o ih =>
    obtain ⟨hsettings, hmirrors, horder⟩ := ih
    refine ⟨hsettings, hmirrors.call _ o, ?_⟩
    intro before r o' after he
    rcases snoc_eq_split_iff.mp he with ⟨-, rfl, hcall⟩ | ⟨rest, -, rfl⟩
    · obtain ⟨rfl, -⟩ := Prod.mk.inj hcall
      rw [← hsettings]
      exact inOrder_of_settled? hmirrors hs
    · exact horder before r o' rest rfl

/-- Whatever is asked of a driver and whatever the card does, the flags of the record are those that
the calls and their ends tell, and each call is in order after the calls before it. -/
theorem flags_mirror_history {settings : DriverSettings} {jobs : List Job} {acts : List Act}
    (h : ({ settings } : Driver).Works jobs acts d) :
    (d.record.apiOpen = true ↔ OpensApi (calls acts)) ∧
      (d.record.deviceOpen = true ↔ OpensDevice (calls acts)) ∧
      (settings.notices = true →
        ∀ ch, d.record.subscriptions.has ch = true ↔ Subscribes ch (calls acts)) ∧
      ∀ before r o after, calls acts = before ++ (r, o) :: after →
        InOrder settings.notices before r.command := by
  obtain ⟨hsettings, hmirrors, horder⟩ := h.trace.mirrors
  exact ⟨hmirrors.api, hmirrors.device, fun hn => hmirrors.channel (hsettings ▸ hn), horder⟩

/-- A driver that has looked for its card. -/
def looked : Driver :=
  ((({ settings := {} } : Driver).doJob .cardPresent).run (recorder obligingCard) []).1

/-- The same driver with its device open. -/
def opened : Driver :=
  ((looked.doJob (.attempt .deviceOpen .nothing)).run (recorder obligingCard) []).1

/-- A device whose closing was not answered is still open. -/
theorem flags_mirror_history_unanswered :
    ∃ acts d, ({ settings := {} } : Driver).Works
        [.cardPresent, .attempt .deviceOpen .nothing, .perform .deviceClose .nothing] acts d ∧
      OpensApi (calls acts) ∧ OpensDevice (calls acts) := by
  have hlook := Dialog.runs_recorder
    (({ settings := {} } : Driver).doJob .cardPresent) obligingCard
  have hopen := Dialog.runs_recorder (looked.doJob (.attempt .deviceOpen .nothing)) obligingCard
  have hclose := Dialog.runs_recorder (opened.doJob (.perform .deviceClose .nothing))
    fun _ => .timedOut
  have hworks := Works.snoc (.snoc (.snoc .nil hlook) hopen) hclose
  obtain ⟨hapi, hdevice, -⟩ := flags_mirror_history hworks
  exact ⟨_, _, hworks, hapi.mp (by decide +kernel), hdevice.mp (by decide +kernel)⟩

end Driver

end Wimax
