import Wimax.Phase
import Wimax.Proofs.Flags

/-!
What one step of a scripted phase can do: which command it performs, where the cursor stands
afterwards, and with which verdict the step ends.
-/

namespace Wimax

namespace Cursor

variable {script : List Command} {c : Cursor script}

/-- The cursor placed on the command to run next. -/
def placed (c : Cursor script) : Cursor script := ⟨some c.place⟩

@[simp]
theorem position_placed (c : Cursor script) : c.placed.position = some c.place := rfl

theorem place_some {i : Nat} (h : i < script.length) : (⟨some i⟩ : Cursor script).place = i := by
  simp [place, h]

@[simp]
theorem place_none : (⟨none⟩ : Cursor script).place = 0 := rfl

@[simp]
theorem place_placed (c : Cursor script) : c.placed.place = c.place := by
  rcases c with ⟨_ | i⟩
  · simp [placed, place]
  · by_cases h : i < script.length <;> simp [placed, place, h]

theorem exists_pick (c : Cursor script) (h : script ≠ []) :
    ∃ command, script[c.place]? = some command ∧ c.pick = some (command, c.placed) := by
  have hlt := c.place_lt h
  refine ⟨script[c.place], List.getElem?_eq_getElem hlt, ?_⟩
  simp [pick, List.getElem?_eq_getElem hlt, placed]

theorem forward_placed (c : Cursor script) :
    c.placed.forward =
      if c.place + 1 < script.length then (false, ⟨some (c.place + 1)⟩) else (true, ⟨none⟩) := rfl

end Cursor

namespace Bringup

variable {b : Bringup} {d : Driver} {c : Command} {budget i : Nat} {passed : Prop}
  {acts : List Act} {s : Step Bringup}

theorem place_lt (b : Bringup) : b.cursor.place < 16 := b.cursor.place_lt (by simp [script])

/-- How a step at place `i` may go on. Only a passed command lets the cursor move on, and the visit
ends behind the last one. From there the cursor may also go back to the probe before the network
list. -/
def Advances (i : Nat) (passed : Prop) (s : Step Bringup) : Prop :=
  match s.verdict with
  | .finished => passed ∧ i + 1 = script.length
  | .failed => True
  | .underway | .scanning =>
    s.phase.cursor.place = i ∨ (i = 15 ∧ s.phase.cursor.place = 13) ∨
      (passed ∧ s.phase.cursor.place = i + 1)

/-- What the success of a command at place `i` must have brought to let the script go on. -/
def Suffices (i : Nat) (d : Driver) : Command → Prop
  | .listDevices => d.record.cardListed = true
  | .networkList => d.record.networks ≠ []
  | .deviceStatus =>
    (∃ status, d.record.status = some status ∧
        (status = .ready ∨ status = .uninitialized ∨ status = .dataConnected)) ∨
      script[i + 1]? = some .powerOn
  | _ => True

theorem advances_forward (hb : b.cursor.position = some i) (hi : i < script.length)
    (hp : passed) : Advances i passed (b.forward d) := by
  have hnext : b.cursor.nextPlace = i + 1 := by simp [Cursor.nextPlace, hb]
  simp only [forward, Cursor.forward, hnext]
  by_cases hlt : i + 1 < script.length
  · simp only [hlt, ↓reduceIte]
    exact .inr (.inr ⟨hp, Cursor.place_some hlt⟩)
  · simp only [hlt, ↓reduceIte]
    exact ⟨hp, by omega⟩

theorem advances_stay (hb : b.cursor.position = some i) (hi : i < script.length) :
    Advances i passed ⟨b, d, .underway, none⟩ := by
  have hplace : b.cursor.place = i := by simp [Cursor.place, hb, hi]
  exact .inl hplace

theorem advances_scan (hb : b.cursor.position = some i) (hi : i < script.length) :
    Advances i passed (b.scan d) := by
  have hplace : b.cursor.place = i := by simp [Cursor.place, hb, hi]
  exact .inl hplace

theorem advances_countIdleScan (hb : b.cursor.position = some i) (hi : i < script.length) :
    Advances i passed (b.countIdleScan d budget) := by
  unfold countIdleScan
  split
  · trivial
  · exact advances_scan (b := { b with idleScans := b.idleScans + 1 }) hb hi

theorem eq_of_before? (hb : b.cursor.position = some i) (hi : i < script.length)
    (h : b.cursor.before? = some .networkList) : i = 15 := by
  have hplaces : ∀ j < 15, script[j]? = some .networkList → j = 14 := by decide
  cases i with
  | zero => simp [Cursor.before?, hb] at h
  | succ j =>
    rw [Cursor.before?, hb] at h
    rw [hplaces j (Nat.lt_of_succ_lt_succ hi) h]

theorem advances_afterStatus (hb : b.cursor.position = some i) (hi : i < script.length)
    (hp : Suffices i d .deviceStatus → passed) : Advances i passed (b.afterStatus d) := by
  have hsettled : ∀ status, d.record.status = some status →
      status = .ready ∨ status = .uninitialized ∨ status = .dataConnected →
      Advances i passed (b.forward d) := fun status hs hstatus =>
    advances_forward hb hi (hp (.inl ⟨status, hs, hstatus⟩))
  unfold afterStatus
  split
  · next hs => exact hsettled _ hs (.inl rfl)
  · next hs => exact hsettled _ hs (.inr (.inl rfl))
  · next hs => exact hsettled _ hs (.inr (.inr rfl))
  · split
    · split
      · next hbefore =>
        obtain rfl := eq_of_before? hb hi hbefore
        have hback : b.cursor.back 2 = ⟨some 13⟩ := by simp [Cursor.back, hb]
        refine .inr (.inl ⟨rfl, ?_⟩)
        change (b.cursor.back 2).place = 13
        rw [hback]
        exact Cursor.place_some (by decide)
      · exact advances_scan hb hi
    · split
      · next hafter =>
        exact advances_forward hb hi (hp (.inr (by simpa [Cursor.after?, hb] using hafter)))
      · exact advances_stay hb hi
  · exact advances_stay hb hi

theorem advances_afterSuccess (hb : b.cursor.position = some i) (hi : i < script.length)
    (hp : Suffices i d c → passed) : Advances i passed (b.afterSuccess d c budget) := by
  unfold afterSuccess
  split
  · split
    · next hcard => exact advances_forward hb hi (hp hcard)
    · trivial
  · split
    · exact advances_countIdleScan hb hi
    · next hnetworks =>
      have hne : d.record.networks ≠ [] := by simpa using hnetworks
      exact advances_forward (b := { b with idleScans := 0 }) hb hi (hp hne)
  · exact advances_afterStatus hb hi hp
  · next hlist hnetworks hstatus =>
    refine advances_forward hb hi (hp ?_)
    unfold Suffices
    split
    · exact absurd rfl hlist
    · exact absurd rfl hnetworks
    · exact absurd rfl hstatus
    · trivial

theorem advances_afterFailure (hb : b.cursor.position = some i) (hi : i < script.length) :
    Advances i passed (b.afterFailure d c budget) := by
  unfold afterFailure
  split
  · exact advances_countIdleScan hb hi
  · trivial
  · trivial

@[simp]
theorem driver_countIdleScan (b : Bringup) (d : Driver) (budget : Nat) :
    (b.countIdleScan d budget).driver = d := by
  unfold countIdleScan
  split <;> rfl

@[simp]
theorem driver_afterStatus (b : Bringup) (d : Driver) : (b.afterStatus d).driver = d := by
  unfold afterStatus
  split
  iterate 3 rfl
  · split
    · split <;> rfl
    · split <;> rfl
  · rfl

@[simp]
theorem driver_afterSuccess (b : Bringup) (d : Driver) (c : Command) (budget : Nat) :
    (b.afterSuccess d c budget).driver = d := by
  unfold afterSuccess
  split
  · split <;> rfl
  · split
    · exact driver_countIdleScan b d budget
    · rfl
  · exact driver_afterStatus b d
  · rfl

@[simp]
theorem driver_afterFailure (b : Bringup) (d : Driver) (c : Command) (budget : Nat) :
    (b.afterFailure d c budget).driver = d := by
  unfold afterFailure
  split
  · exact driver_countIdleScan b d budget
  · rfl
  · rfl

theorem runs_afterResponse {r : Response} (hb : b.cursor.position = some i)
    (hi : i < script.length) (h : (b.afterResponse d c budget r).Runs acts s) :
    d.Looked s.driver ∧ Advances i (r = .success ∧ Suffices i d c ∨ c = .powerOn) s := by
  unfold afterResponse at h
  split at h
  · next hr =>
    obtain ⟨rfl, rfl⟩ := Dialog.runs_done_iff.mp h
    rw [driver_afterSuccess]
    exact ⟨.refl d, advances_afterSuccess hb hi fun hs => .inl ⟨hr, hs⟩⟩
  split at h
  · next hc =>
    obtain ⟨rfl, rfl⟩ := Dialog.runs_done_iff.mp h
    exact ⟨.refl d, advances_forward hb hi (.inr hc)⟩
  split at h
  · obtain ⟨⟨d', m⟩, first, rest, rfl, h₁, h₂⟩ := Dialog.runs_bind_iff.mp h
    obtain ⟨rfl, rfl⟩ := Dialog.runs_done_iff.mp h₂
    exact ⟨Driver.looked_lossMessage h₁, trivial⟩
  split at h
  · obtain ⟨rfl, rfl⟩ := Dialog.runs_done_iff.mp h
    rw [driver_afterFailure]
    exact ⟨.refl d, advances_afterFailure hb hi⟩
  · obtain ⟨rfl, rfl⟩ := Dialog.runs_done_iff.mp h
    exact ⟨.refl d, advances_stay hb hi⟩

theorem runs_step (h : (b.step d budget).Runs acts s) :
    ∃ c d₁ r first rest, script[b.cursor.place]? = some c ∧ acts = first ++ rest ∧
      (d.attempt c .nothing).Runs first (d₁, r) ∧
      (Bringup.afterResponse { b with cursor := b.cursor.placed } d₁ c budget r).Runs rest s := by
  obtain ⟨c, hc, hpick⟩ := b.cursor.exists_pick (by simp [script])
  simp only [step, hpick] at h
  obtain ⟨⟨d₁, r⟩, first, rest, rfl, h₁, h₂⟩ := Dialog.runs_bind_iff.mp h
  exact ⟨c, d₁, r, first, rest, hc, rfl, h₁, h₂⟩

/-- With the interface open where it must be, only success comes without a call. -/
theorem response_of_settled? {d' : Driver} {r : Response} (hc : c ∈ script)
    (hapi : c.needsOpenApi = true → d.record.apiOpen = true)
    (hs : d.settled? c .nothing = some (d', r)) : r = .success := by
  cases c with
  | subscribe ch => grind [Driver.settled?]
  | unsubscribe ch => simp [script] at hc
  | _ =>
    first
    | grind [Driver.settled?, Driver.localResponse?, Command.isReserved, Command.needsOpenApi,
        Driver.sentArgs?]
    | simp [script] at hc

theorem mem_script_of_looksForCard {c : Command} (h : Driver.looksForCard c) : c ∈ script := by
  rcases h with rfl | rfl <;> decide

theorem callsOnly_afterResponse (b : Bringup) (d : Driver) (c : Command) (budget : Nat)
    (r : Response) : (b.afterResponse d c budget r).CallsOnly Driver.looksForCard := by
  unfold afterResponse
  split_ifs
  any_goals exact Dialog.callsOnly_done _
  exact (Driver.callsOnly_lossMessage d r).bind fun _ => Dialog.callsOnly_done _

theorem callsOnly_step (b : Bringup) (d : Driver) (budget : Nat) :
    (b.step d budget).CallsOnly (· ∈ script) := by
  obtain ⟨c, hc, hpick⟩ := b.cursor.exists_pick (by simp [script])
  simp only [step, hpick]
  refine ((Driver.callsOnly_attempt _ _ _).mono ?_).bind ?_
  · rintro _ rfl
    exact List.mem_of_getElem? hc
  · rintro ⟨d₁, r⟩
    exact (callsOnly_afterResponse _ _ _ _ _).mono fun _ => mem_script_of_looksForCard

end Bringup

/-- The response of an accepted connect request. -/
def Response.attaches (r : Response) : Prop := r = .success ∨ r = .alreadyConnected

namespace Attach

variable {a : Attach} {d d' : Driver} {preferred : String} {acts : List Act} {r : Response}
  {s : Step Attach}

@[simp]
theorem driver_afterStatus (a : Attach) (d : Driver) : (a.afterStatus d).driver = d := by
  unfold afterStatus
  split
  iterate 2
    split <;> rfl
  · rfl
  · split <;> rfl
  · rfl

theorem runs_loseCard (h : (a.loseCard d r).Runs acts s) :
    ∃ m, (d.lossMessage r).Runs acts (s.driver, m) ∧ s = a.leave s.driver .failed (some m) := by
  obtain ⟨⟨d', m⟩, first, rest, rfl, h₁, h₂⟩ := Dialog.runs_bind_iff.mp h
  obtain ⟨rfl, rfl⟩ := Dialog.runs_done_iff.mp h₂
  exact ⟨m, by simpa [leave] using h₁, rfl⟩

theorem runs_request (h : (a.request d preferred).Runs acts s) :
    (acts = [] ∧ s = a.leave d .scanning none) ∨
      ∃ n d₁ r first rest, target? d.record preferred = some n ∧ acts = first ++ rest ∧
        (d.attempt .connect (.connect n.name n.id "")).Runs first (d₁, r) ∧
        ((r.attaches ∧ rest = [] ∧ s = a.forward d₁) ∨
          (r.meansCardLost = true ∧ (a.loseCard d₁ r).Runs rest s) ∨
          ((¬r.attaches ∧ r.meansCardLost ≠ true) ∧ rest = [] ∧ s = a.stay d₁)) := by
  unfold request at h
  split at h
  · exact .inl (Dialog.runs_done_iff.mp h)
  · next n htarget =>
    obtain ⟨⟨d₁, r⟩, first, rest, rfl, h₁, h₂⟩ := Dialog.runs_bind_iff.mp h
    refine .inr ⟨n, d₁, r, first, rest, htarget, rfl, h₁, ?_⟩
    dsimp only at h₂
    split at h₂
    · next hr =>
      obtain ⟨rfl, rfl⟩ := Dialog.runs_done_iff.mp h₂
      exact .inl ⟨hr, rfl, rfl⟩
    split at h₂
    · next hl => exact .inr (.inl ⟨hl, h₂⟩)
    · next hr hl =>
      obtain ⟨rfl, rfl⟩ := Dialog.runs_done_iff.mp h₂
      exact .inr (.inr ⟨⟨hr, hl⟩, rfl, rfl⟩)

theorem runs_checkRadio (h : (a.checkRadio d).Runs acts s) :
    ∃ d₁ r first rest, acts = first ++ rest ∧
      (d.attempt .deviceStatus .nothing).Runs first (d₁, r) ∧
      ((r.meansCardLost = true ∧ (a.loseCard d₁ r).Runs rest s) ∨
        (r = .success ∧ rest = [] ∧ s = a.afterStatus d₁) ∨
        ((r ≠ .success ∧ r.meansCardLost ≠ true) ∧ rest = [] ∧ s = a.stay d₁)) := by
  obtain ⟨⟨d₁, r⟩, first, rest, rfl, h₁, h₂⟩ := Dialog.runs_bind_iff.mp h
  refine ⟨d₁, r, first, rest, rfl, h₁, ?_⟩
  dsimp only at h₂
  split at h₂
  · next hl => exact .inl ⟨hl, h₂⟩
  next hl =>
  split at h₂
  · next hr =>
    obtain ⟨rfl, rfl⟩ := Dialog.runs_done_iff.mp h₂
    exact .inr (.inl ⟨hr, rfl, rfl⟩)
  · next hr =>
    obtain ⟨rfl, rfl⟩ := Dialog.runs_done_iff.mp h₂
    exact .inr (.inr ⟨⟨hr, hl⟩, rfl, rfl⟩)

theorem runs_finish (h : (a.finish d).Runs acts s) :
    (∃ r, (d.attempt .ipInterface .nothing).Runs acts (s.driver, r)) ∧
      s = a.leave s.driver .finished none := by
  obtain ⟨⟨d', r⟩, first, rest, rfl, h₁, h₂⟩ := Dialog.runs_bind_iff.mp h
  obtain ⟨rfl, rfl⟩ := Dialog.runs_done_iff.mp h₂
  exact ⟨⟨r, by simpa [leave] using h₁⟩, rfl⟩

theorem runs_checkLink (h : (a.checkLink d).Runs acts s) :
    ∃ d₁ r first rest, acts = first ++ rest ∧
      (d.attempt .linkStatus .nothing).Runs first (d₁, r) ∧
      (((r = .success ∨ r = .linkNotConnected ∧ d₁.record.link.isSome = true) ∧
          (a.finish d₁).Runs rest s) ∨
        (r = .linkNotConnected ∧ rest = [] ∧ s = a.leave d₁ .scanning none) ∨
        (r.meansCardLost = true ∧ (a.loseCard d₁ r).Runs rest s) ∨
        (r.meansCardLost ≠ true ∧ rest = [] ∧ s = a.stay d₁)) := by
  obtain ⟨⟨d₁, r⟩, first, rest, rfl, h₁, h₂⟩ := Dialog.runs_bind_iff.mp h
  refine ⟨d₁, r, first, rest, rfl, h₁, ?_⟩
  dsimp only at h₂
  split at h₂
  · next hr => exact .inl ⟨.inl hr, h₂⟩
  split at h₂
  · next hr =>
    split at h₂
    · next hlink => exact .inl ⟨.inr ⟨hr, hlink⟩, h₂⟩
    · exact .inr (.inl ⟨hr, Dialog.runs_done_iff.mp h₂⟩)
  split at h₂
  · next hl => exact .inr (.inr (.inl ⟨hl, h₂⟩))
  · next hl => exact .inr (.inr (.inr ⟨hl, Dialog.runs_done_iff.mp h₂⟩))

theorem step_eq (a : Attach) (d : Driver) (preferred : String) :
    a.step d preferred =
      if a.cursor.place = 0 then request ⟨a.cursor.placed⟩ d preferred
      else if a.cursor.place = 1 then checkRadio ⟨a.cursor.placed⟩ d
      else checkLink ⟨a.cursor.placed⟩ d := by
  obtain ⟨c, hc, hpick⟩ := a.cursor.exists_pick (by simp [script])
  have hlt := a.cursor.place_lt (by simp [script])
  simp only [step, hpick]
  generalize a.cursor.place = i at hc hlt ⊢
  have hi : i < 4 := hlt
  obtain rfl | rfl | rfl | rfl : i = 0 ∨ i = 1 ∨ i = 2 ∨ i = 3 := by omega
  · obtain rfl : Command.connect = c := by simpa [script] using hc
    rfl
  · obtain rfl : Command.deviceStatus = c := by simpa [script] using hc
    rfl
  · obtain rfl : Command.linkStatus = c := by simpa [script] using hc
    rfl
  · obtain rfl : Command.ipInterface = c := by simpa [script] using hc
    rfl

theorem runs_step (h : (a.step d preferred).Runs acts s) :
    (a.cursor.place = 0 ∧ (request ⟨a.cursor.placed⟩ d preferred).Runs acts s) ∨
      (a.cursor.place = 1 ∧ (checkRadio ⟨a.cursor.placed⟩ d).Runs acts s) ∨
      (2 ≤ a.cursor.place ∧ (checkLink ⟨a.cursor.placed⟩ d).Runs acts s) := by
  rw [step_eq] at h
  split_ifs at h with h₀ h₁
  · exact .inl ⟨h₀, h⟩
  · exact .inr (.inl ⟨h₁, h⟩)
  · exact .inr (.inr ⟨by omega, h⟩)

theorem attempt_connect (d : Driver) (args : Args) :
    d.attempt .connect args =
      .ask ⟨.connect, args⟩ fun o => .done (d.afterCall .connect o, o.response) := by
  rw [Driver.attempt_eq]
  rfl

theorem runs_step_first (hplace : a.cursor.place = 0) (h : (a.step d preferred).Runs acts s) :
    (acts = [] ∧ s.verdict = .scanning) ∨
      ∃ args o rest, acts = .call ⟨.connect, args⟩ o :: rest ∧
        ((o.response.attaches ∧ rest = [] ∧ s.verdict = .underway ∧ s.phase.cursor.place = 1) ∨
          (o.response.meansCardLost = true ∧ s.verdict = .failed ∧ s.message.isSome = true) ∨
          (¬o.response.attaches ∧ rest = [] ∧ s.verdict = .underway ∧
            s.phase.cursor.place = 0)) := by
  rw [step_eq, if_pos hplace] at h
  rcases runs_request h with ⟨rfl, rfl⟩ | ⟨n, d₁, r, first, rest, -, rfl, h₁, h₂⟩
  · exact .inl ⟨rfl, rfl⟩
  · rw [attempt_connect] at h₁
    obtain ⟨o, _, rfl, hd⟩ := Dialog.runs_ask_iff.mp h₁
    obtain ⟨rfl, he⟩ := Dialog.runs_done_iff.mp hd
    obtain ⟨rfl, rfl⟩ := Prod.mk.inj he
    refine .inr ⟨_, o, rest, rfl, ?_⟩
    rcases h₂ with ⟨hr, rfl, rfl⟩ | ⟨hr, h₂⟩ | ⟨hr, rfl, rfl⟩
    · refine .inl ⟨hr, rfl, rfl, ?_⟩
      simp only [forward, Cursor.forward_placed, hplace]
      rfl
    · obtain ⟨m, -, hs⟩ := runs_loseCard h₂
      rw [hs]
      exact .inr (.inl ⟨hr, rfl, rfl⟩)
    · refine .inr (.inr ⟨hr.1, rfl, rfl, ?_⟩)
      simp only [stay, Cursor.placed, hplace]
      rfl

theorem keeps_loseCard (h : (a.loseCard d r).Runs acts s) : d.Keeps s.driver := by
  obtain ⟨m, hm, -⟩ := runs_loseCard h
  exact (Driver.looked_lossMessage hm).keeps

theorem keeps_step (h : (a.step d preferred).Runs acts s) : d.Keeps s.driver := by
  rcases runs_step h with ⟨-, h⟩ | ⟨-, h⟩ | ⟨-, h⟩
  · rcases runs_request h with ⟨-, rfl⟩ | ⟨n, d₁, r, first, rest, -, -, h₁, h₂⟩
    · exact .refl d
    · have hk : d.Keeps d₁ := (Driver.served_attempt h₁).keeps rfl
      rcases h₂ with ⟨-, -, rfl⟩ | ⟨-, h₂⟩ | ⟨-, -, rfl⟩
      · exact hk
      · exact hk.trans (keeps_loseCard h₂)
      · exact hk
  · obtain ⟨d₁, r, first, rest, -, h₁, h₂⟩ := runs_checkRadio h
    have hk : d.Keeps d₁ := (Driver.served_attempt h₁).keeps rfl
    rcases h₂ with ⟨-, h₂⟩ | ⟨-, -, rfl⟩ | ⟨-, -, rfl⟩
    · exact hk.trans (keeps_loseCard h₂)
    · rwa [driver_afterStatus]
    · exact hk
  · obtain ⟨d₁, r, first, rest, -, h₁, h₂⟩ := runs_checkLink h
    have hk : d.Keeps d₁ := (Driver.served_attempt h₁).keeps rfl
    rcases h₂ with ⟨-, h₂⟩ | ⟨-, -, rfl⟩ | ⟨-, h₂⟩ | ⟨-, -, rfl⟩
    · obtain ⟨⟨r', h₃⟩, -⟩ := runs_finish h₂
      exact hk.trans ((Driver.served_attempt h₃).keeps rfl)
    · exact hk
    · exact hk.trans (keeps_loseCard h₂)
    · exact hk

/-- What an attachment asks for once its request is accepted. -/
def probes : List Command := [.deviceStatus, .linkStatus, .ipInterface, .apiOpen, .listDevices]

theorem mem_probes_of_looksForCard {c : Command} (h : Driver.looksForCard c) : c ∈ probes := by
  rcases h with rfl | rfl <;> decide

theorem callsOnly_loseCard (a : Attach) (d : Driver) (r : Response) :
    (a.loseCard d r).CallsOnly (· ∈ probes) :=
  ((Driver.callsOnly_lossMessage _ _).mono fun _ => mem_probes_of_looksForCard).bind
    fun _ => Dialog.callsOnly_done _

theorem callsOnly_checkRadio (a : Attach) (d : Driver) :
    (a.checkRadio d).CallsOnly (· ∈ probes) := by
  refine ((Driver.callsOnly_attempt _ _ _).mono ?_).bind ?_
  · rintro _ rfl
    decide
  · rintro ⟨d₁, r⟩
    dsimp only
    split_ifs
    · exact callsOnly_loseCard _ _ _
    all_goals exact Dialog.callsOnly_done _

theorem callsOnly_finish (a : Attach) (d : Driver) : (a.finish d).CallsOnly (· ∈ probes) := by
  refine ((Driver.callsOnly_attempt _ _ _).mono ?_).bind fun _ => Dialog.callsOnly_done _
  rintro _ rfl
  decide

theorem callsOnly_checkLink (a : Attach) (d : Driver) :
    (a.checkLink d).CallsOnly (· ∈ probes) := by
  refine ((Driver.callsOnly_attempt _ _ _).mono ?_).bind ?_
  · rintro _ rfl
    decide
  · rintro ⟨d₁, r⟩
    dsimp only
    split_ifs
    · exact callsOnly_finish _ _
    · exact callsOnly_finish _ _
    · exact Dialog.callsOnly_done _
    · exact callsOnly_loseCard _ _ _
    · exact Dialog.callsOnly_done _

theorem callsOnly_request (a : Attach) (d : Driver) (preferred : String) :
    (a.request d preferred).CallsOnly fun c => c = .connect ∨ c ∈ probes := by
  unfold request
  split
  · exact Dialog.callsOnly_done _
  · refine ((Driver.callsOnly_attempt _ _ _).mono fun _ => .inl).bind ?_
    rintro ⟨d₁, r⟩
    dsimp only
    split_ifs
    · exact Dialog.callsOnly_done _
    · exact (callsOnly_loseCard _ _ _).mono fun _ => .inr
    · exact Dialog.callsOnly_done _

theorem callsOnly_step (a : Attach) (d : Driver) (preferred : String) :
    (a.step d preferred).CallsOnly fun c => (c = .connect ∧ a.cursor.place = 0) ∨ c ∈ probes := by
  rw [step_eq]
  split_ifs with h₀ h₁
  · exact (callsOnly_request _ _ _).mono fun _ => Or.imp_left fun h => ⟨h, h₀⟩
  · exact (callsOnly_checkRadio _ _).mono fun _ => .inr
  · exact (callsOnly_checkLink _ _).mono fun _ => .inr

end Attach

namespace Monitor

variable {m : Monitor} {d : Driver} {acts : List Act} {s : Step Monitor} {sample : Option Int}

theorem place_lt (m : Monitor) : m.cursor.place < 2 := m.cursor.place_lt (by simp [script])

theorem runs_step (h : (m.step d).Runs acts (s, sample)) :
    ∃ c d₁ r, script[m.cursor.place]? = some c ∧ (d.attempt c .nothing).Runs acts (d₁, r) ∧
      ((c = .deviceStatus ∧ sample = none ∧
          s = Monitor.afterStatus { m with cursor := m.cursor.placed } d₁ r) ∨
        (c ≠ .deviceStatus ∧ sample = sample? d₁ r ∧
          s = Monitor.endRound { m with cursor := m.cursor.placed } d₁)) := by
  obtain ⟨c, hc, hpick⟩ := m.cursor.exists_pick (by simp [script])
  simp only [step, hpick] at h
  obtain ⟨⟨d₁, r⟩, first, rest, rfl, h₁, h₂⟩ := Dialog.runs_bind_iff.mp h
  dsimp only at h₂
  split at h₂
  · next hd =>
    simp only [Dialog.pure_eq, Dialog.runs_done_iff, Prod.mk.injEq] at h₂
    obtain ⟨rfl, rfl, rfl⟩ := h₂
    exact ⟨c, d₁, r, hc, by simpa using h₁, .inl ⟨hd, rfl, rfl⟩⟩
  · next hd =>
    simp only [Dialog.pure_eq, Dialog.runs_done_iff, Prod.mk.injEq] at h₂
    obtain ⟨rfl, rfl, rfl⟩ := h₂
    exact ⟨c, d₁, r, hc, by simpa using h₁, .inr ⟨hd, rfl, rfl⟩⟩

theorem callsOnly_step (m : Monitor) (d : Driver) : (m.step d).CallsOnly (· ∈ script) := by
  obtain ⟨c, hc, hpick⟩ := m.cursor.exists_pick (by simp [script])
  simp only [step, hpick]
  refine ((Driver.callsOnly_attempt _ _ _).mono ?_).bind ?_
  · rintro _ rfl
    exact List.mem_of_getElem? hc
  · rintro ⟨d₁, r⟩
    dsimp only
    split_ifs
    all_goals exact Dialog.callsOnly_done _

theorem isHarmless_of_mem {c : Command} (h : c ∈ script) : c.isHarmless = true := by
  revert c
  decide

@[simp]
theorem driver_afterStatus (m : Monitor) (d : Driver) (r : Response) :
    (m.afterStatus d r).driver = d := by
  unfold afterStatus
  dsimp only
  split
  · split
    · rfl
    · split <;> rfl
    · rfl
  · rfl

theorem keeps_step (h : (m.step d).Runs acts (s, sample)) : d.Keeps s.driver := by
  obtain ⟨c, d₁, r, hc, h₁, h₂⟩ := runs_step h
  have hk : d.Keeps d₁ :=
    (Driver.served_attempt h₁).keeps (isHarmless_of_mem (List.mem_of_getElem? hc))
  rcases h₂ with ⟨-, -, rfl⟩ | ⟨-, -, rfl⟩
  · rwa [driver_afterStatus]
  · exact hk

end Monitor

namespace Teardown

variable {t : Teardown} {d : Driver} {acts : List Act} {s : Step Teardown}

theorem place_lt (t : Teardown) : t.cursor.place < 11 := t.cursor.place_lt (by simp [script])

theorem runs_step (h : (t.step d).Runs acts s) :
    ∃ c r, script[t.cursor.place]? = some c ∧ (d.attempt c .nothing).Runs acts (s.driver, r) ∧
      ((t.cursor.place + 1 < script.length ∧ s.verdict = .underway ∧
          s.phase.cursor.place = t.cursor.place + 1) ∨
        (t.cursor.place + 1 = script.length ∧ s.verdict = .finished)) := by
  obtain ⟨c, hc, hpick⟩ := t.cursor.exists_pick (by simp [script])
  have hlt := t.cursor.place_lt (by simp [script])
  simp only [step, hpick] at h
  obtain ⟨⟨d₁, r⟩, first, rest, rfl, h₁, h₂⟩ := Dialog.runs_bind_iff.mp h
  obtain ⟨rfl, rfl⟩ := Dialog.runs_done_iff.mp h₂
  refine ⟨c, r, hc, by simpa using h₁, ?_⟩
  rw [Cursor.forward_placed]
  by_cases hnext : t.cursor.place + 1 < script.length
  · rw [if_pos hnext]
    exact .inl ⟨hnext, rfl, Cursor.place_some hnext⟩
  · rw [if_neg hnext]
    exact .inr ⟨by omega, rfl⟩

theorem callsOnly_step (t : Teardown) (d : Driver) : (t.step d).CallsOnly (· ∈ script) := by
  obtain ⟨c, hc, hpick⟩ := t.cursor.exists_pick (by simp [script])
  simp only [step, hpick]
  refine ((Driver.callsOnly_attempt _ _ _).mono ?_).bind fun _ => Dialog.callsOnly_done _
  rintro _ rfl
  exact List.mem_of_getElem? hc

end Teardown

end Wimax
