import Wimax.Proofs.OpenDriver
import Wimax.Proofs.ReportHistory

/-!
What becomes of an open driver. Every way down goes through a teardown that releases it, but for
one: an attachment that fails on the radio drops to rest with the driver as it is.
-/

namespace Wimax

instance (r : Response) : Decidable r.attaches :=
  inferInstanceAs (Decidable (r = .success ∨ r = .alreadyConnected))

/-- Every accepted connect request is followed by a request to disconnect. -/
def Detached : List (Request × Outcome) → Prop
  | [] => True
  | call :: rest =>
    (call.1.command = .connect ∧ call.2.response.attaches →
      ∃ later ∈ rest, later.1.command = .disconnect) ∧ Detached rest

def decideDetached : (cs : List (Request × Outcome)) → Decidable (Detached cs)
  | [] => .isTrue trivial
  | _ :: rest => @instDecidableAnd _ _ inferInstance (decideDetached rest)

instance : DecidablePred Detached := decideDetached

section Detached

variable {cs ds : List (Request × Outcome)} {call : Request × Outcome}

theorem detached_of_ne_connect (h : ∀ call ∈ cs, call.1.command ≠ .connect) : Detached cs := by
  induction cs with
  | nil => trivial
  | cons call cs ih =>
    refine ⟨fun hc => absurd hc.1 (h call (by simp)), ih fun c hc => h c (by simp [hc])⟩

theorem detached_append (hd : Detached ds)
    (h : Detached cs ∨ ∃ call ∈ ds, call.1.command = .disconnect) : Detached (cs ++ ds) := by
  induction cs with
  | nil => exact hd
  | cons call cs ih =>
    rw [List.cons_append]
    rcases h with ⟨hcall, hcs⟩ | ⟨later, hlater, he⟩
    · refine ⟨fun hc => ?_, ih (.inl hcs)⟩
      obtain ⟨later, hlater, he⟩ := hcall hc
      exact ⟨later, by simp [hlater], he⟩
    · exact ⟨fun _ => ⟨later, by simp [hlater], he⟩, ih (.inr ⟨later, hlater, he⟩)⟩

theorem Detached.of_append (h : Detached (cs ++ ds))
    (hd : ∀ call ∈ ds, call.1.command ≠ .disconnect) : Detached cs := by
  induction cs with
  | nil => trivial
  | cons call cs ih =>
    obtain ⟨hcall, hrest⟩ := h
    refine ⟨fun hc => ?_, ih hrest⟩
    obtain ⟨later, hlater, he⟩ := hcall hc
    rcases List.mem_append.mp hlater with hlater | hlater
    · exact ⟨later, hlater, he⟩
    · exact absurd he (hd later hlater)

theorem not_detached_append_request {r : Request} {o : Outcome} (hr : r.command = .connect)
    (ho : o.response.attaches) : ¬Detached (cs ++ [(r, o)]) := by
  induction cs with
  | nil =>
    rintro ⟨h, -⟩
    obtain ⟨later, hlater, -⟩ := h ⟨hr, ho⟩
    simp at hlater
  | cons call cs ih =>
    rintro ⟨-, h⟩
    exact ih h

end Detached

def Operation.isNotice : Operation → Bool
  | notice _ => true
  | _ => false

/-- No notice is taken, the card stays in its place, and it carries a teardown out. -/
structure Undisturbed (steps : List (Operation × List Act)) : Prop where
  notices : ∀ step ∈ steps, step.1.isNotice = false
  card : ∀ call ∈ calls (actsOf steps), call.2.response.meansCardLost = false
  teardown : ∀ call ∈ calls (actsOf steps), call.1.command ∈ Teardown.script →
    call.2.response = .success

theorem Undisturbed.of_append {first rest : List (Operation × List Act)}
    (h : Undisturbed (first ++ rest)) : Undisturbed first ∧ Undisturbed rest := by
  obtain ⟨hnotices, hcard, hteardown⟩ := h
  rw [actsOf_append, calls_append] at hcard hteardown
  exact ⟨⟨fun s hs => hnotices s (List.mem_append_left _ hs),
      fun c hc => hcard c (List.mem_append_left _ hc),
      fun c hc => hteardown c (List.mem_append_left _ hc)⟩,
    ⟨fun s hs => hnotices s (List.mem_append_right _ hs),
      fun c hc => hcard c (List.mem_append_right _ hc),
      fun c hc => hteardown c (List.mem_append_right _ hc)⟩⟩

namespace Teardown

variable {t : Teardown} {d : Driver} {acts : List Act} {s : Step Teardown}
  {cs : List (Request × Outcome)}

theorem detached_step (h : (t.step d).Runs acts s) (hcs : 8 < t.cursor.place → Detached cs)
    (hplace : 8 ≤ t.cursor.place) : Detached (cs ++ calls acts) := by
  obtain ⟨c, r, hc, h₁, -⟩ := runs_step h
  have hnone : ∀ c ∈ script, c ≠ .connect := by decide
  have hfree : Detached (calls acts) := by
    refine detached_of_ne_connect fun call hcall => ?_
    rw [(Driver.callsOnly_attempt d c .nothing).calls h₁ hcall]
    exact hnone c (List.mem_of_getElem? hc)
  refine detached_append hfree ?_
  rcases Nat.eq_or_lt_of_le hplace with h₈ | hlt
  · rw [← h₈] at hc
    obtain rfl : Command.disconnect = c := Option.some.inj hc
    rcases Driver.runs_attempt h₁ with ⟨hs, -⟩ | ⟨o, -, rfl, -, -⟩
    · exact absurd hs (by simp [Driver.settled?, Driver.localResponse?, Command.isReserved,
        Command.needsOpenApi, Driver.sentArgs?])
    · exact .inr ⟨_, List.mem_cons_self, rfl⟩
  · exact .inl (hcs hlt)

theorem closed_step (hr : d.record.Coherent) (h : (t.step d).Runs acts s)
    (hcalls : ∀ call ∈ calls acts, call.1.command ∈ script → call.2.response = .success)
    (hv : s.verdict = .finished) : s.driver.record.Closed := by
  obtain ⟨c, r, hc, h₁, ⟨-, hv', -⟩ | ⟨hplace, -⟩⟩ := runs_step h
  · simp [hv] at hv'
  have hlast : t.cursor.place = 10 := Nat.succ.inj hplace
  rw [hlast] at hc
  obtain rfl : Command.apiClose = c := Option.some.inj hc
  suffices hsuccess : r = .success by
    rw [hsuccess] at h₁
    exact Driver.shows_attempt hr h₁
  rcases Driver.runs_attempt h₁ with ⟨hs, -⟩ | ⟨o, -, rfl, -, hro⟩
  · cases hapi : d.record.apiOpen <;>
      simp_all [Driver.settled?, Driver.localResponse?, Command.isReserved, Command.needsOpenApi,
        Driver.sentArgs?]
  · rw [hro]
    exact hcalls _ List.mem_cons_self (by simp [script])

end Teardown

namespace Machine

variable {m n : Machine} {op : Operation} {acts : List Act} {cs ds : List (Request × Outcome)}
  {dropped dropped' : Prop}

/-- Where the calls have left the driver, by the phase. At rest that hangs on whether the last
attachment was dropped. -/
def Traced (m : Machine) (cs : List (Request × Outcome)) (dropped : Prop) : Prop :=
  match m.phase with
  | .ready =>
    (dropped → (∀ c ∈ Bringup.script, m.driver.record.Shows c) ∧ ¬Detached cs) ∧
      (¬dropped → m.driver.record.Closed ∧ Detached cs)
  | .connecting a => a.cursor.place ≠ 0 → ¬Detached cs
  | .disconnecting t => 8 < t.cursor.place → Detached cs
  | .disconnected => m.driver.record.Closed ∧ Detached cs
  | .initializing _ | .initialized | .connected _ => True

theorem traced_congr (hphase : n.phase = m.phase) (hdriver : n.driver = m.driver)
    (hd : m.stage = .ready → (dropped' ↔ dropped)) (ht : m.Traced cs dropped) :
    n.Traced cs dropped' := by
  unfold Traced at ht ⊢
  rw [hphase, hdriver]
  cases hm : m.phase with
  | ready =>
    rw [hm] at ht
    simpa only [hd (by simp [stage, hm, Phase.stage])] using ht
  | _ =>
    rw [hm] at ht
    exact ht

/-- An accepted request stays unanswered for by the steps after it. -/
theorem not_detached_attach {a : Attach} {d : Driver} {name : String} {s : Step Attach}
    (step : (a.step d name).Runs acts s) (hplace : a.cursor.place ≠ 0) (h : ¬Detached cs) :
    ¬Detached (cs ++ calls acts) := by
  refine fun hdetached => h (hdetached.of_append fun call hcall => ?_)
  rcases (a.callsOnly_step _ _).calls step hcall with ⟨-, h₀⟩ | hprobe
  · exact absurd h₀ hplace
  · intro he
    rw [he] at hprobe
    exact absurd hprobe (by decide)

theorem place_ne_zero_of_failed {a : Attach} {d : Driver} {name : String} {s : Step Attach}
    (step : (a.step d name).Runs acts s) (hv : s.verdict = .failed)
    (hcard : ∀ call ∈ calls acts, call.2.response.meansCardLost = false) :
    a.cursor.place ≠ 0 := by
  intro hplace
  rcases Attach.runs_step_first hplace step with ⟨-, hv'⟩ | ⟨args, o, rest, rfl, hend⟩
  · simp [hv] at hv'
  rcases hend with ⟨-, -, hv', -⟩ | ⟨ho, -, -⟩ | ⟨-, -, hv', -⟩
  · simp [hv] at hv'
  · simp [hcard _ List.mem_cons_self] at ho
  · simp [hv] at hv'

/-- An attachment is accepted by its request alone, and dropped only once it has been. -/
theorem traced_afterAttach {a : Attach} {s : Step Attach} (hphase : m.phase = .connecting a)
    (step : (a.step m.driver m.preferred).Runs acts s) (hm : m.Sound) (ht : m.Traced cs dropped)
    (hcard : ∀ call ∈ calls acts, call.2.response.meansCardLost = false)
    (hrest : s.verdict = .failed → dropped') :
    (m.afterAttach s).Traced (cs ++ calls acts) dropped' := by
  simp only [Traced, hphase] at ht
  unfold afterAttach
  cases hv : s.verdict with
  | underway =>
    intro hplace'
    by_cases hplace : a.cursor.place = 0
    · rcases Attach.runs_step_first hplace step with ⟨-, hv'⟩ | ⟨args, o, rest, rfl, hend⟩
      · simp [hv] at hv'
      rcases hend with ⟨ho, rfl, -⟩ | ⟨-, hv', -⟩ | ⟨-, -, -, h₀⟩
      · exact not_detached_append_request rfl ho
      · simp [hv] at hv'
      · exact absurd h₀ hplace'
    · exact not_detached_attach step hplace (ht hplace)
  | scanning => trivial
  | finished => trivial
  | failed =>
    have hplace := place_ne_zero_of_failed step hv hcard
    have hpending := not_detached_attach step hplace (ht hplace)
    have hshows : ∀ c ∈ Bringup.script, s.driver.record.Shows c := by
      intro c hc
      have hmem : c ∈ m.phase.lasting := by rwa [hphase]
      exact (Attach.keeps_step step).shows c (Phase.ne_apiClose_of_mem_lasting hmem)
        (hm.shows c hmem)
    cases hmsg : s.message with
    | none => exact ⟨fun _ => ⟨hshows, hpending⟩, fun h => absurd (hrest hv) h⟩
    | some message => exact ⟨fun _ => ⟨hshows, hpending⟩, fun h => absurd (hrest hv) h⟩

theorem traced_afterTeardown {t : Teardown} {s : Step Teardown}
    (hphase : m.phase = .disconnecting t) (step : (t.step m.driver).Runs acts s) (hm : m.Sound)
    (ht : m.Traced cs dropped)
    (hteardown : ∀ call ∈ calls acts, call.1.command ∈ Teardown.script →
      call.2.response = .success) :
    (m.afterTeardown s).Traced (cs ++ calls acts) dropped' := by
  simp only [Traced, hphase] at ht
  have hdetached := Teardown.detached_step step ht
  obtain ⟨c, r, -, -, hend⟩ := Teardown.runs_step step
  unfold afterTeardown
  rcases hend with ⟨-, hv, hplace⟩ | ⟨hplace, hv⟩
  · rw [if_neg (by simp [hv])]
    intro hlt
    rw [hplace] at hlt
    exact hdetached (Nat.le_of_lt_succ hlt)
  · rw [if_pos hv]
    have hlast : t.cursor.place = 10 := Nat.succ.inj hplace
    exact ⟨Teardown.closed_step hm.coherent step hteardown hv, hdetached (by omega)⟩

theorem Turn.traced (h : m.Turn ds n) (hm : m.Sound) (ht : m.Traced cs dropped)
    (hcard : ∀ call ∈ ds, call.2.response.meansCardLost = false)
    (hteardown : ∀ call ∈ ds, call.1.command ∈ Teardown.script → call.2.response = .success)
    (hstay : n.stage = .ready → m.stage = .ready → (dropped' ↔ dropped))
    (hrest : n.stage = .ready → m.stage ≠ .ready → (dropped' ↔ m.stage = .connecting)) :
    n.Traced (cs ++ ds) dropped' := by
  cases h with
  | idle hturn hc =>
    rw [List.append_nil]
    exact traced_congr rfl rfl (fun hr => hstay hr hr) ht
  | @leave s hs =>
    rw [List.append_nil]
    rcases turn?_mem hs with ⟨-, rfl⟩ | ⟨hphase, rfl⟩ | rfl | rfl
    · exact fun h => absurd rfl h
    · simp only [Traced, hphase] at ht
      have hstage : m.stage = .disconnected := by simp [stage, hphase, Phase.stage]
      have hnot : ¬dropped' := by
        rw [hrest (by simp) (by simp [hstage])]
        simp [hstage]
      exact ⟨fun h => absurd h hnot, fun _ => ht⟩
    · trivial
    · exact fun h => absurd h (by decide)
  | @bringup b s acts hphase hg step =>
    unfold afterBringup
    cases hv : s.verdict with
    | failed => exact fun h => absurd h (by decide)
    | _ => trivial
  | @attach a s acts hphase hg step =>
    have hstage : m.stage = .connecting := by simp [stage, hphase, Phase.stage]
    refine traced_afterAttach hphase step hm ht hcard fun hv => ?_
    refine (hrest ?_ (by simp [hstage])).mpr hstage
    unfold afterAttach
    cases hmsg : s.message <;> simp [hv]
  | @monitor w s sample acts hphase hg step =>
    unfold afterMonitor
    cases hv : s.verdict with
    | failed => exact fun h => absurd rfl h
    | _ => trivial
  | @teardown t s acts hphase step => exact traced_afterTeardown hphase step hm ht hteardown

theorem traced_ask {q : Query} {result : Except Fault Answer}
    (h : (m.ask q).Runs acts (n, result)) (ht : m.Traced cs dropped) :
    n.Traced (cs ++ calls acts) dropped := by
  by_cases hs : m.stage.takesQueries = true
  · obtain ⟨hun, -, -, hlink⟩ := runs_ask h
    unfold Traced at ht ⊢
    rw [hun.phase]
    cases hphase : m.phase with
    | connecting a =>
      rw [hphase] at ht
      refine fun hplace hdetached => ht hplace (hdetached.of_append fun call hcall he => ?_)
      have hmoves := hlink _ _ hcall
      rw [he] at hmoves
      exact absurd hmoves (by decide)
    | initialized => trivial
    | connected w => trivial
    | _ => simp [stage, hphase, Phase.stage, Stage.takesQueries] at hs
  · obtain ⟨rfl, rfl⟩ := runs_ask_of_refused (by simpa using hs) h
    simpa using ht

/-- The last attachment ended on the radio. -/
def Dropped (history : List Change) : Prop := history.getLast? = some ⟨.connecting, .ready⟩

theorem dropped_append_singleton {history : List Change} {c : Change} :
    Dropped (history ++ [c]) ↔ c = ⟨.connecting, .ready⟩ := by simp [Dropped]

theorem Tells.shown_ready (h : m.Tells) (hs : m.stage = .ready) : m.shown = .ready := by
  rcases h with h | ⟨hi, -⟩
  · rw [h, hs]
    rfl
  · simp [hs] at hi

theorem Tells.shown_connecting_iff (h : m.Tells) :
    m.shown = .connecting ↔ m.stage = .connecting := by
  rcases h with h | ⟨hi, h⟩
  · rw [h]
    exact ⟨fun he => Stage.report_injective he, fun he => by rw [he]; rfl⟩
  · simp [h, hi]

theorem dropped_of_ready {history : List Change} (htells : m.Tells ∨ m.Silent)
    (hlast : ∀ c ∈ history.getLast?, c.state = m.shown) (hm : m.stage = .ready)
    (hgreeted : m.greeted.Tells) (hn : n.Tells) (hnr : n.stage = .ready) :
    Dropped (history ++ (m.shown.changesTo m.greeted.shown ++
      m.greeted.shown.changesTo n.shown)) ↔ Dropped history := by
  have hready : m.greeted.shown = .ready := hgreeted.shown_ready (by simpa using hm)
  rw [hn.shown_ready hnr, hready, Report.changesTo_self, List.append_nil]
  rcases htells with htells | ⟨-, hshown⟩
  · rw [htells.shown_ready hm, Report.changesTo_self, List.append_nil]
  · rw [hshown, Report.changesTo_of_ne (by decide), dropped_append_singleton]
    refine iff_of_false (by decide) fun hd => ?_
    have hready := hlast _ hd
    rw [hshown] at hready
    exact absurd hready (by decide)

theorem dropped_of_ne_ready {history : List Change} (hm : m.Tells) (hmr : m.stage ≠ .ready)
    (hn : n.Tells) (hnr : n.stage = .ready) :
    Dropped (history ++ m.shown.changesTo n.shown) ↔ m.stage = .connecting := by
  have hne : m.shown ≠ .ready := by
    rcases hm with hshown | ⟨-, hshown⟩
    · rw [hshown]
      exact fun he => hmr (Stage.report_injective he)
    · simp [hshown]
  rw [hn.shown_ready hnr, Report.changesTo_of_ne hne, dropped_append_singleton,
    ← hm.shown_connecting_iff]
  simp

theorem traced_tick {history : List Change} (hm : m.Sound) (htells : m.Tells ∨ m.Silent)
    (hlast : ∀ c ∈ history.getLast?, c.state = m.shown) (ht : m.Traced cs (Dropped history))
    (hcard : ∀ call ∈ calls acts, call.2.response.meansCardLost = false)
    (hteardown : ∀ call ∈ calls acts, call.1.command ∈ Teardown.script →
      call.2.response = .success)
    (h : m.tick.Runs acts n) :
    n.Traced (cs ++ calls acts) (Dropped (history ++ changes acts)) := by
  obtain ⟨hturn, hchanges⟩ := turn_tick h
  obtain ⟨hgreeted, -, -⟩ := tells_greeted htells
  have hn : n.Tells := (hturn.retells.accounts hgreeted).1
  have htraced : m.greeted.Traced cs (Dropped history) :=
    traced_congr m.phase_greeted m.driver_greeted (fun _ => Iff.rfl) ht
  refine hturn.traced (sound_greeted hm) htraced hcard hteardown ?_ ?_
  · intro hnr hmr
    rw [hchanges]
    exact dropped_of_ready htells hlast (by simpa using hmr) hgreeted hn hnr
  · intro hnr hmr
    rw [stage_greeted] at hmr ⊢
    have hm' : m.Tells := htells.resolve_right fun hsilent => hmr hsilent.1
    rw [hchanges, greeted_of_ne hm'.ne_unknown, Report.changesTo_self, List.nil_append]
    exact dropped_of_ne_ready hm' hmr hn hnr

theorem traced_carryOut {history : List Change} (hm : m.Sound) (htells : m.Tells ∨ m.Silent)
    (hlast : ∀ c ∈ history.getLast?, c.state = m.shown) (ht : m.Traced cs (Dropped history))
    (hnotice : op.isNotice = false)
    (hcard : ∀ call ∈ calls acts, call.2.response.meansCardLost = false)
    (hteardown : ∀ call ∈ calls acts, call.1.command ∈ Teardown.script →
      call.2.response = .success)
    (h : (m.carryOut op).Runs acts n) :
    n.Traced (cs ++ calls acts) (Dropped (history ++ changes acts)) := by
  cases op with
  | tick => exact traced_tick hm htells hlast ht hcard hteardown h
  | aim g =>
    obtain ⟨rfl, rfl⟩ := Dialog.runs_done_iff.mp h
    rw [calls_nil, changes_nil, List.append_nil, List.append_nil]
    exact traced_congr rfl rfl (fun _ => Iff.rfl) ht
  | prefer name =>
    obtain ⟨hcalls, hchanges, hn⟩ := runs_prefer h
    rw [hcalls, List.append_nil]
    split_ifs at hn
    · subst hn
      rw [hchanges, Report.changesTo_self, List.append_nil]
      exact ht
    · subst hn
      exact fun h => absurd h (by decide)
    · subst hn
      rw [hchanges, Report.changesTo_self, List.append_nil]
      exact traced_congr rfl rfl (fun _ => Iff.rfl) ht
  | notice notice => simp [Operation.isNotice] at hnotice
  | query q =>
    obtain ⟨⟨k, result⟩, first, rest, rfl, hfirst, hrest⟩ := Dialog.runs_bind_iff.mp h
    obtain ⟨rfl, rfl⟩ := Dialog.runs_done_iff.mp hrest
    rw [List.append_nil, (runs_ask hfirst).2.2.1, List.append_nil]
    exact traced_ask hfirst ht

theorem traced_run {settings : Settings} {steps : List (Operation × List Act)}
    (run : Run (start settings) steps m) (h : Undisturbed steps) :
    m.Traced (calls (actsOf steps)) (Dropped (changes (actsOf steps))) := by
  induction run with
  | nil =>
    refine ⟨fun hd => ?_, fun _ => ⟨Record.closed_empty, trivial⟩⟩
    simp [Dropped] at hd
  | @snoc steps k n op acts prior last ih =>
    obtain ⟨hprior, hlast⟩ := h.of_append
    obtain ⟨htells, hleads⟩ := tells_run prior
    have hshown : ∀ c ∈ (changes (actsOf steps)).getLast?, c.state = k.shown := by
      intro c hc
      have he := hleads.getLast?
      rw [hc] at he
      exact he
    have htraced := traced_carryOut (sound_run prior) htells hshown (ih hprior)
      (hlast.notices _ List.mem_cons_self) (by simpa using hlast.card)
      (by simpa using hlast.teardown) last
    simpa using htraced

/-- A teardown has come between an attachment and the end of the descent. -/
theorem not_dropped_of_disconnected {settings : Settings} {steps : List (Operation × List Act)}
    (run : Run (start settings) steps m) (hm : m.stage = .disconnected) :
    ¬Dropped (changes (actsOf steps)) := by
  obtain ⟨htells, hleads⟩ := tells_run run
  intro hd
  have hshown := hleads.getLast?
  rw [hd] at hshown
  have hready : m.shown = .ready := hshown.symm
  rcases htells with (htells | ⟨hi, -⟩) | ⟨hi, -⟩
  · rw [hready, hm] at htells
    exact absurd htells (by decide)
  · simp [hm] at hi
  · simp [hm] at hi

/-- A machine at rest has released its driver, unless it came there straight from an attachment
that failed on the radio. Then the driver is as that attachment left it. -/
theorem released_iff {settings : Settings} {steps : List (Operation × List Act)}
    (run : Run (start settings) steps m) (h : Undisturbed steps)
    (hrest : m.stage = .ready ∨ m.stage = .disconnected) :
    (m.driver.record.Closed ∧ Detached (calls (actsOf steps)) ↔
        (changes (actsOf steps)).getLast? ≠ some ⟨.connecting, .ready⟩) ∧
      ((changes (actsOf steps)).getLast? = some ⟨.connecting, .ready⟩ →
        m.driver.record.apiOpen = true ∧ m.driver.record.deviceOpen = true ∧
          (∀ ch, m.driver.record.subscriptions.has ch = true) ∧
          ¬Detached (calls (actsOf steps))) := by
  have htraced := traced_run run h
  rcases hrest with hstage | hstage
  · simp only [Traced, phase_of_ready hstage] at htraced
    obtain ⟨hdropped, hreleased⟩ := htraced
    refine ⟨⟨?_, hreleased⟩, fun hd => ?_⟩
    · rintro ⟨-, hdetached⟩ hd
      exact (hdropped hd).2 hdetached
    · obtain ⟨hshows, hdetached⟩ := hdropped hd
      exact ⟨hshows .apiOpen (by decide), hshows .deviceOpen (by decide),
        fun ch => hshows (.subscribe ch) (by cases ch <;> decide), hdetached⟩
  · simp only [Traced, phase_of_disconnected hstage] at htraced
    have hnot := not_dropped_of_disconnected run hstage
    exact ⟨⟨fun _ => hnot, fun _ => htraced⟩, fun hd => absurd hd hnot⟩

/-- A connection that is given up for good. -/
def descent : Plan := (.aim .disconnected, obligingCard) :: List.replicate 12 (.tick, obligingCard)

theorem released_iff_descent :
    ((start {}).rehearse (ascent 21 ++ descent)).2.stage = .disconnected ∧
      ((start {}).rehearse (ascent 21 ++ descent)).2.driver.record.Closed := by
  have hstage : ((start {}).rehearse (ascent 21 ++ descent)).2.stage = .disconnected := by
    decide +kernel
  have hundisturbed : Undisturbed ((start {}).rehearse (ascent 21 ++ descent)).1 := by
    constructor <;> decide +kernel
  exact ⟨hstage, ((released_iff (run_rehearse _ _) hundisturbed (.inr hstage)).1.mpr
    (by decide +kernel)).1⟩

/-- A card whose radio was switched off. -/
def switchedOffCard (r : Request) : Outcome :=
  match r.command with
  | .deviceStatus => .reply (.reading (.radio .rfOffHardware none))
  | _ => obligingCard r

/-- The radio is switched off after the connect request, and the session is told to come to rest. -/
def interruption : Plan :=
  [(.tick, switchedOffCard), (.aim .ready, obligingCard), (.tick, obligingCard)]

/-- A machine can come to rest under the goal to be ready with its driver open and its attachment
not given up. -/
theorem exists_open_at_rest :
    ∃ steps m, Run (start {}) steps m ∧ Undisturbed steps ∧ m.stage = .ready ∧ m.goal = .ready ∧
      m.driver.record.apiOpen = true ∧ ¬Detached (calls (actsOf steps)) := by
  refine ⟨_, _, run_rehearse _ (ascent 19 ++ interruption), ?_, ?_, ?_, ?_, ?_⟩
  · constructor <;> decide +kernel
  all_goals decide +kernel

end Machine

end Wimax
