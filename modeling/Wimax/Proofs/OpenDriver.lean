import Wimax.Proofs.Moves

/-!
The flags of the driver by the phase. While a script runs they show what its commands before the
cursor have done, so that from the end of the initialization on the driver is open.
-/

namespace Wimax

namespace Bringup

theorem undoes_of_mem : ∀ c ∈ script, ∀ c' ∈ script, c.undoes c' = false := by decide

theorem ne_apiClose_of_mem : ∀ c ∈ script, c ≠ .apiClose := by decide

theorem mem_take_add_one {script : List Command} {i : Nat} {c c' : Command}
    (hc : script[i]? = some c) (h : c' ∈ script.take (i + 1)) : c' ∈ script.take i ∨ c' = c := by
  rw [List.take_add_one, hc] at h
  simpa using h

theorem apiOpen_mem_take {i : Nat} {c : Command} (hc : script[i]? = some c)
    (hne : c ≠ .apiOpen) : .apiOpen ∈ script.take i := by
  cases i with
  | zero => exact absurd (Option.some.inj hc).symm hne
  | succ i => simp [script]

theorem coherent_served {i : Nat} {c : Command} {d d' : Driver} (hc : script[i]? = some c)
    (hr : d.record.Coherent) (hshows : ∀ c ∈ script.take i, d.record.Shows c)
    (h : d.Served c d') : d'.record.Coherent := by
  have hopen : c ≠ .apiOpen → d.record.apiOpen = true := fun hne =>
    hshows _ (apiOpen_mem_take hc hne)
  refine h.coherent hr ?_ ?_
  · rintro rfl
    exact hopen (by decide)
  · rintro ch rfl
    exact hopen (by simp)

/-- What holds of the commands before a place, and of the one there once it is passed, goes on to
hold of those before the place after the step. -/
theorem Advances.take {i : Nat} {passed : Prop} {s : Step Bringup} {p : Command → Prop}
    (h : Advances i passed s) (hkeep : ∀ c ∈ script.take i, p c)
    (hnext : passed → ∀ c ∈ script.take (i + 1), p c) :
    match s.verdict with
    | .underway | .scanning => ∀ c ∈ script.take s.phase.cursor.place, p c
    | .finished => ∀ c ∈ script, p c
    | .failed => True := by
  have hgoes : s.phase.cursor.place = i ∨ (i = 15 ∧ s.phase.cursor.place = 13) ∨
      (passed ∧ s.phase.cursor.place = i + 1) → ∀ c ∈ script.take s.phase.cursor.place, p c := by
    rintro (hplace | ⟨hi, hplace⟩ | ⟨hpassed, hplace⟩) c hc
    · exact hkeep c (by rwa [hplace] at hc)
    · exact hkeep c (List.take_subset_take_left script (by omega) hc)
    · rw [hplace] at hc
      exact hnext hpassed c hc
  unfold Advances at h
  cases hv : s.verdict with
  | underway =>
    simp only [hv] at h
    exact hgoes h
  | scanning =>
    simp only [hv] at h
    exact hgoes h
  | finished =>
    simp only [hv] at h
    have hall := hnext h.1
    rwa [h.2, List.take_length] at hall
  | failed => trivial

theorem shows_step {b : Bringup} {d : Driver} {budget : Nat} {acts : List Act} {s : Step Bringup}
    (hr : d.record.Coherent) (hshows : ∀ c ∈ script.take b.cursor.place, d.record.Shows c)
    (h : (b.step d budget).Runs acts s) :
    s.driver.record.Coherent ∧
      match s.verdict with
      | .underway | .scanning =>
        ∀ c ∈ script.take s.phase.cursor.place, s.driver.record.Shows c
      | .finished => ∀ c ∈ script, s.driver.record.Shows c
      | .failed => True := by
  obtain ⟨c, d₁, r, first, rest, hc, rfl, h₁, h₂⟩ := runs_step h
  have hmem : c ∈ script := List.mem_of_getElem? hc
  have hlt : b.cursor.place < script.length := (List.getElem?_eq_some_iff.mp hc).1
  have hserved := Driver.served_attempt h₁
  obtain ⟨hlooked, hadv⟩ :=
    runs_afterResponse (b := { b with cursor := b.cursor.placed }) rfl hlt h₂
  have hkeep : ∀ c' ∈ script.take b.cursor.place, s.driver.record.Shows c' := by
    intro c' hc'
    have hmem' := List.mem_of_mem_take hc'
    refine hlooked.keeps.shows c' (ne_apiClose_of_mem c' hmem') ?_
    exact hserved.shows (undoes_of_mem c hmem c' hmem') (hshows c' hc')
  refine ⟨hlooked.keeps.coherent (coherent_served hc hr hshows hserved), hadv.take hkeep ?_⟩
  intro hpassed c' hc'
  rcases mem_take_add_one hc hc' with hc' | rfl
  · exact hkeep c' hc'
  · refine hlooked.keeps.shows _ (ne_apiClose_of_mem _ hmem) ?_
    rcases hpassed with ⟨rfl, -⟩ | rfl
    · exact Driver.shows_attempt hr h₁
    · trivial

end Bringup

namespace Teardown

/-- The cancellations, which come first. -/
def cancellations : List Command := Channel.all.map .unsubscribe

theorem undoes_of_mem : ∀ c ∈ script, ∀ c' ∈ cancellations, c.undoes c' = false := by decide

theorem ne_apiClose_of_mem : ∀ c ∈ cancellations, c ≠ .apiClose := by decide

theorem opens_of_mem : ∀ c ∈ script, c ≠ .deviceOpen ∧ ∀ ch ∈ Channel.all, c ≠ .subscribe ch := by
  decide

theorem script_of_cancellations {i : Nat} {c : Command} (h : cancellations[i]? = some c) :
    script[i]? = some c := by
  have hlt : i < cancellations.length := (List.getElem?_eq_some_iff.mp h).1
  change (cancellations ++ [.disconnect, .deviceClose, .apiClose])[i]? = _
  rwa [List.getElem?_append_left hlt]

theorem shows_step {t : Teardown} {d : Driver} {acts : List Act} {s : Step Teardown}
    (hr : d.record.Coherent)
    (hshows : ∀ c ∈ cancellations.take t.cursor.place, d.record.Shows c)
    (h : (t.step d).Runs acts s) :
    s.driver.record.Coherent ∧
      if s.verdict = .finished then ∀ c ∈ cancellations, s.driver.record.Shows c
      else ∀ c ∈ cancellations.take s.phase.cursor.place, s.driver.record.Shows c := by
  obtain ⟨c, r, hc, h₁, hend⟩ := runs_step h
  have hmem : c ∈ script := List.mem_of_getElem? hc
  have hserved := Driver.served_attempt h₁
  have hnext : ∀ c' ∈ cancellations.take (t.cursor.place + 1), s.driver.record.Shows c' := by
    intro c' hc'
    have hmem' := List.mem_of_mem_take hc'
    rw [List.take_add_one] at hc'
    rcases List.mem_append.mp hc' with hc' | hc'
    · exact hserved.shows (undoes_of_mem c hmem c' hmem') (hshows c' hc')
    · have hplace : cancellations[t.cursor.place]? = some c' := by simpa using hc'
      obtain rfl : c = c' := Option.some.inj (hc.symm.trans (script_of_cancellations hplace))
      obtain ⟨ch, -, rfl⟩ := List.mem_map.mp hmem'
      exact Driver.has_attempt_unsubscribe h₁
  refine ⟨hserved.coherent hr ?_ ?_, ?_⟩
  · intro hd
    exact absurd hd (opens_of_mem c hmem).1
  · intro ch hch
    exact absurd hch ((opens_of_mem c hmem).2 ch ch.mem_all)
  · rcases hend with ⟨-, hv, hplace⟩ | ⟨hplace, hv⟩
    · rw [if_neg (by simp [hv]), hplace]
      exact hnext
    · rw [if_pos hv]
      rw [hplace] at hnext
      exact hnext

end Teardown

/-- The commands whose effects last in a phase. -/
def Phase.lasting : Phase → List Command
  | ready => []
  | initializing b => Bringup.script.take b.cursor.place
  | initialized | connecting _ | connected _ => Bringup.script
  | disconnecting t => Teardown.cancellations.take t.cursor.place
  | disconnected => Teardown.cancellations

theorem Phase.ne_apiClose_of_mem_lasting {p : Phase} {c : Command} (h : c ∈ p.lasting) :
    c ≠ .apiClose := by
  cases p with
  | ready => simp [lasting] at h
  | initializing b => exact Bringup.ne_apiClose_of_mem c (List.mem_of_mem_take h)
  | disconnecting t => exact Teardown.ne_apiClose_of_mem c (List.mem_of_mem_take h)
  | disconnected => exact Teardown.ne_apiClose_of_mem c h
  | _ => exact Bringup.ne_apiClose_of_mem c h

namespace Machine

variable {m n : Machine} {op : Operation} {acts : List Act} {s : Stage}
  {cs : List (Request × Outcome)}

/-- The flags show what the phase relies on. -/
structure Sound (m : Machine) : Prop where
  coherent : m.driver.record.Coherent
  shows : ∀ c ∈ m.phase.lasting, m.driver.record.Shows c

theorem sound_start (settings : Settings) : (start settings).Sound where
  coherent := Record.closed_empty.coherent
  shows c hc := by simp [start, Phase.lasting] at hc

theorem Sound.keeps (h : m.Sound) (hd : m.driver.Keeps n.driver)
    (hp : ∀ c ∈ n.phase.lasting, c ∈ m.phase.lasting) : n.Sound where
  coherent := hd.coherent h.coherent
  shows c hc := hd.shows c (Phase.ne_apiClose_of_mem_lasting hc) (h.shows c (hp c hc))

theorem mem_lasting_of_turn? (hs : m.turn? = some s) :
    ∀ c ∈ (Phase.fresh s).lasting, c ∈ m.phase.lasting := by
  intro c hc
  rcases turn?_mem hs with ⟨hphase, rfl⟩ | ⟨-, rfl⟩ | rfl | rfl
  · rw [hphase]
    exact hc
  all_goals simp [Phase.fresh, Phase.lasting] at hc

theorem Turn.sound (h : m.Turn cs n) (hm : m.Sound) : n.Sound := by
  cases h with
  | idle => exact hm
  | leave hs => exact hm.keeps (.refl _) (mem_lasting_of_turn? hs)
  | @bringup b s acts hphase hg step =>
    have hshows := hm.shows
    rw [hphase] at hshows
    obtain ⟨hr, hend⟩ := Bringup.shows_step hm.coherent hshows step
    refine ⟨by simpa using hr, ?_⟩
    rw [driver_afterBringup]
    unfold afterBringup
    cases hv : s.verdict with
    | failed => simp [Phase.fresh, Phase.lasting]
    | _ =>
      simp only [hv] at hend ⊢
      exact hend
  | @attach a s acts hphase hg step =>
    refine hm.keeps (by simpa using Attach.keeps_step step) ?_
    rw [hphase]
    unfold afterAttach
    intro c hc
    cases hv : s.verdict with
    | underway =>
      simp only [hv] at hc
      exact hc
    | scanning => simp [hv, Phase.fresh, Phase.lasting] at hc
    | finished =>
      simp only [hv] at hc
      exact hc
    | failed => cases hmsg : s.message <;> simp [hv, hmsg, Phase.fresh, Phase.lasting] at hc
  | @monitor w s sample acts hphase hg step =>
    refine hm.keeps (by simpa using Monitor.keeps_step step) ?_
    rw [hphase]
    unfold afterMonitor
    intro c hc
    cases hv : s.verdict <;> simp only [hv] at hc <;> exact hc
  | @teardown t s acts hphase step =>
    have hshows := hm.shows
    rw [hphase] at hshows
    obtain ⟨hr, hend⟩ := Teardown.shows_step hm.coherent hshows step
    refine ⟨by simpa using hr, ?_⟩
    rw [driver_afterTeardown]
    unfold afterTeardown
    by_cases hv : s.verdict = .finished
    · simp only [hv, ↓reduceIte] at hend ⊢
      exact hend
    · simp only [hv, ↓reduceIte] at hend ⊢
      exact hend

theorem sound_greeted (hm : m.Sound) : m.greeted.Sound :=
  ⟨by simpa using hm.coherent, by simpa using hm.shows⟩

/-- Every operation keeps the flags in step with the phase. -/
theorem Sound.carryOut (hm : m.Sound) (h : (m.carryOut op).Runs acts n) : n.Sound := by
  cases carries_carryOut h with
  | tick hturn => exact hturn.sound (sound_greeted hm)
  | giveUp _ hn =>
    rw [hn]
    exact hm.keeps (.refl _) (by simp [Phase.fresh, Phase.lasting])
  | store hn =>
    rw [hn]
    exact ⟨hm.coherent, hm.shows⟩
  | unmoved _ hn => exact hm.keeps hn.driver (by simp [hn.phase])

theorem sound_run {settings : Settings} {steps : List (Operation × List Act)}
    (run : Run (start settings) steps m) : m.Sound := by
  induction run with
  | nil => exact sound_start settings
  | snoc prior last ih => exact ih.carryOut last

theorem Reachable.sound (h : m.Reachable) : m.Sound := by
  obtain ⟨settings, steps, run⟩ := h
  exact sound_run run

/-- From the end of the initialization to the teardown the driver is open. -/
theorem Sound.isOpen (hm : m.Sound)
    (hs : m.stage = .initialized ∨ m.stage = .connecting ∨ m.stage = .connected) :
    m.driver.record.apiOpen = true ∧ m.driver.record.deviceOpen = true ∧
      ∀ ch, m.driver.record.subscriptions.has ch = true := by
  have hall : ∀ c ∈ Bringup.script, m.driver.record.Shows c := by
    have hshows := hm.shows
    simp only [stage] at hs
    cases hphase : m.phase <;> simp_all [Phase.stage, Phase.lasting]
  refine ⟨hall .apiOpen (by decide), hall .deviceOpen (by decide), fun ch => ?_⟩
  refine hall (.subscribe ch) ?_
  cases ch <;> decide

theorem command?_of_needsOpenApi {p : Phase} {c : Command} (hc : p.command? = some c)
    (hneeds : c.needsOpenApi = true) :
    (c = .powerOn ∨ c = .deviceStatus) ∧ ∀ t, p ≠ .disconnecting t := by
  have hb : ∀ c ∈ Bringup.script, c.needsOpenApi = true → c = .powerOn ∨ c = .deviceStatus := by
    decide
  have ha : ∀ c ∈ Attach.script, c.needsOpenApi = true → c = .powerOn ∨ c = .deviceStatus := by
    decide
  have hw : ∀ c ∈ Monitor.script, c.needsOpenApi = true → c = .powerOn ∨ c = .deviceStatus := by
    decide
  have ht : ∀ c ∈ Teardown.script, c.needsOpenApi = false := by decide
  cases p with
  | initializing b => exact ⟨hb c (List.mem_of_getElem? hc) hneeds, by simp⟩
  | connecting a => exact ⟨ha c (List.mem_of_getElem? hc) hneeds, by simp⟩
  | connected w => exact ⟨hw c (List.mem_of_getElem? hc) hneeds, by simp⟩
  | disconnecting t => simp [ht c (List.mem_of_getElem? hc)] at hneeds
  | _ => simp [Phase.command?] at hc

theorem Sound.apiOpen_of_command? (hm : m.Sound) {c : Command} (hc : m.phase.command? = some c)
    (hneeds : c.needsOpenApi = true) : m.driver.record.apiOpen = true := by
  cases hphase : m.phase with
  | initializing b =>
    have hshows := hm.shows
    rw [hphase] at hc hshows
    refine hshows .apiOpen (Bringup.apiOpen_mem_take hc ?_)
    rintro rfl
    simp [Command.needsOpenApi] at hneeds
  | connecting a => exact (hm.isOpen (by simp [stage, hphase, Phase.stage])).1
  | connected w => exact (hm.isOpen (by simp [stage, hphase, Phase.stage])).1
  | disconnecting t => exact absurd hphase ((command?_of_needsOpenApi hc hneeds).2 t)
  | _ => simp [hphase, Phase.command?] at hc

theorem Turn.sends (h : m.Turn cs n) {c : Command} (hturn : m.turn? = none)
    (hc : m.phase.command? = some c) (hneeds : c.needsOpenApi = true)
    (hsettled : m.driver.settled? c .nothing = none) :
    ∃ request o rest, cs = (request, o) :: rest ∧ request.command = c := by
  have hfirst : ∀ {d' r first}, (m.driver.attempt c .nothing).Runs first (d', r) →
      ∃ o, calls first = [(⟨c, m.driver.callArgs c .nothing⟩, o)] := by
    intro d' r first h₁
    rcases Driver.runs_attempt h₁ with ⟨hs, -⟩ | ⟨o, -, rfl, -, -⟩
    · simp [hsettled] at hs
    · exact ⟨o, rfl⟩
  cases h with
  | idle hm hnone => simp [hnone] at hc
  | leave hs => simp [hturn] at hs
  | @bringup b s acts hphase hg step =>
    obtain ⟨c', d₁, r, first, rest, hc', rfl, h₁, -⟩ := Bringup.runs_step step
    rw [hphase] at hc
    obtain rfl : c' = c := Option.some.inj (hc'.symm.trans hc)
    obtain ⟨o, ho⟩ := hfirst h₁
    exact ⟨_, o, calls rest, by rw [calls_append, ho]; rfl, rfl⟩
  | @attach a s acts hphase hg step =>
    rw [hphase] at hc
    rcases Attach.runs_step step with ⟨hplace, -⟩ | ⟨hplace, h₁⟩ | ⟨hplace, -⟩
    · simp only [Phase.command?, hplace] at hc
      obtain rfl : Command.connect = c := Option.some.inj hc
      simp [Command.needsOpenApi] at hneeds
    · simp only [Phase.command?, hplace] at hc
      obtain rfl : Command.deviceStatus = c := Option.some.inj hc
      obtain ⟨d₁, r, first, rest, rfl, h₂, -⟩ := Attach.runs_checkRadio h₁
      obtain ⟨o, ho⟩ := hfirst h₂
      exact ⟨_, o, calls rest, by rw [calls_append, ho]; rfl, rfl⟩
    · have hlast : ∀ c ∈ Attach.script.drop 2, c.needsOpenApi = false := by decide
      have hmem : c ∈ Attach.script.drop 2 := by
        refine List.mem_of_getElem? (i := a.cursor.place - 2) ?_
        rw [List.getElem?_drop, Nat.add_sub_cancel' hplace]
        exact hc
      simp [hlast c hmem] at hneeds
  | @monitor w s sample acts hphase hg step =>
    obtain ⟨c', d₁, r, hc', h₁, -⟩ := Monitor.runs_step step
    rw [hphase] at hc
    obtain rfl : c' = c := Option.some.inj (hc'.symm.trans hc)
    obtain ⟨o, ho⟩ := hfirst h₁
    exact ⟨_, o, [], ho, rfl⟩
  | @teardown t s acts hphase step => exact absurd hphase ((command?_of_needsOpenApi hc hneeds).2 t)

/-- The driver is open from the end of the initialization to the teardown, its parts never outlast
its interface, and no channel outlasts the teardown. So a step whose command needs the interface
finds it open and sends the command. -/
theorem open_driver {settings : Settings} {steps : List (Operation × List Act)}
    (run : Run (start settings) steps m) :
    (m.stage = .initialized ∨ m.stage = .connecting ∨ m.stage = .connected →
        m.driver.record.apiOpen = true ∧ m.driver.record.deviceOpen = true ∧
          ∀ ch, m.driver.record.subscriptions.has ch = true) ∧
      (m.driver.record.deviceOpen = true ∨ (∃ ch, m.driver.record.subscriptions.has ch = true) →
        m.driver.record.apiOpen = true) ∧
      (m.stage = .disconnected → ∀ ch, m.driver.record.subscriptions.has ch = false) ∧
      ∀ c, m.phase.command? = some c → c.needsOpenApi = true →
        Driver.localResponse? m.driver.record c = none ∧
          (m.turn? = none → ∀ acts n, (m.carryOut .tick).Runs acts n →
            ∃ request o rest, calls acts = (request, o) :: rest ∧ request.command = c) := by
  have hm := sound_run run
  refine ⟨hm.isOpen, ?_, ?_, ?_⟩
  · rintro (hd | ⟨ch, hch⟩)
    · exact hm.coherent.device hd
    · exact hm.coherent.channel ch hch
  · intro hstage ch
    have hshows := hm.shows
    rw [phase_of_disconnected hstage] at hshows
    exact hshows (.unsubscribe ch) (List.mem_map_of_mem ch.mem_all)
  · intro c hc hneeds
    have hapi := hm.apiOpen_of_command? hc hneeds
    obtain ⟨hcmd, -⟩ := command?_of_needsOpenApi hc hneeds
    have hlocal : Driver.localResponse? m.driver.record c = none := by
      rcases hcmd with rfl | rfl <;>
        simp [Driver.localResponse?, Command.isReserved, Command.needsOpenApi, hapi]
    refine ⟨hlocal, fun hturn acts n h => ?_⟩
    have hsettled : m.driver.settled? c .nothing = none := by
      rcases hcmd with rfl | rfl <;> simp [Driver.settled?, hlocal, Driver.sentArgs?]
    refine (turn_tick h).1.sends ?_ (by simpa using hc) hneeds (by simpa using hsettled)
    rw [turn?_greeted, hturn]

theorem open_driver_ascent :
    ((start {}).rehearse (ascent 21)).2.stage = .connected ∧
      ((start {}).rehearse (ascent 21)).2.driver.record.deviceOpen = true := by
  have hstage : ((start {}).rehearse (ascent 21)).2.stage = .connected := by decide +kernel
  exact ⟨hstage, ((open_driver (run_rehearse (start {}) (ascent 21))).1 (.inr (.inr hstage))).2.1⟩

end Machine

end Wimax
