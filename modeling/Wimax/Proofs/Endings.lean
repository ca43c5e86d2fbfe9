import Wimax.Proofs.Correspondence

/-!
A call under way is never stuck: whatever has happened, the tasks have a way on to its end.
-/

namespace Wimax

/-- The call that the errand belongs to. -/
def Errand.call : Errand → Call
  | aim g => .aim g
  | prefer name => .prefer name
  | connect name | connectAim name => .connect name
  | ask q | hear q => .ask q
  | retire millis _ => .retire millis

namespace System

variable {rt : Runtime} {s t : System rt} {now later begun pause : Nat} {d : Deed}
  {history : List (Nat × Deed)} {P Q : Nat → System rt → Prop}

/-- A session of which a caller may expect to be served. -/
structure Fit (pause : Nat) (s : System rt) : Prop where
  sound : s.Sound
  settling : s.Settling
  room : ∀ room, rt.orders.room s.orders = some room → 0 < room
  pause : s.lookPause = pause

theorem LoopStep.room (hrt : rt.Lawful) (h : LoopStep now s d t) :
    rt.orders.room t.orders = rt.orders.room s.orders := by
  cases h with
  | take h taken => exact (hrt.orders.of_takes taken).2.2
  | leave => exact hrt.orders.room_close _
  | @finish job m answer h =>
    cases job with
    | order l deadline =>
      rcases finish_order_eq_or s now m answer l deadline with heq | heq <;> rw [heq]
      · exact (hrt.orders.room_close _).trans (by rw [respond_orders])
      · exact congrArg _ (respond_orders s l answer)
    | _ => rfl
  | _ => rfl

theorem LoopStep.lookPause (h : LoopStep now s d t) : t.lookPause = s.lookPause := by
  cases h with
  | @finish job m answer h =>
    cases job with
    | order l deadline =>
      rcases finish_order_eq_or s now m answer l deadline with heq | heq <;> rw [heq, respond_eq]
      rfl
    | _ => rfl
  | _ => rfl

theorem Fit.step (hrt : rt.Lawful) (hs : s.Fit pause) (h : s.Step now d t) : t.Fit pause := by
  refine ⟨hs.sound.step hrt hs.settling h, hs.settling.step h, ?_, ?_⟩
  · cases h with
    | loop h => rw [h.room hrt]; exact hs.room
    | caller h =>
      cases h with
      | send h wait put => rw [(hrt.orders.of_puts put).2.2.2]; exact hs.room
      | _ => exact hs.room
    | _ => exact hs.room
  · cases h with
    | loop h => exact h.lookPause.trans hs.pause
    | caller h => cases h <;> exact hs.pause
    | _ => exact hs.pause

theorem Fit.run (hrt : rt.Lawful) (hs : s.Fit pause) (run : s.Run begun history now t) :
    t.Fit pause :=
  run.invariant (Fit.step hrt) hs

theorem fit_start (hrt : rt.Lawful) {settings : Settings} (h : 0 < settings.queueCapacity) :
    (start rt settings).Fit settings.tickPause := by
  refine ⟨sound_start hrt settings, settling_start settings, fun room hroom => ?_, rfl⟩
  obtain rfl := Option.some.inj ((hrt.orders.room_make _).symm.trans hroom)
  exact h

/-- The tasks have a way on to where `P` holds, on which no call ends. -/
def Leads (s : System rt) (now : Nat) (P : Nat → System rt → Prop) : Prop :=
  ∃ history later t,
    s.Run now history later t ∧ (∀ x ∈ history, x.2.isResult = false) ∧ P later t

theorem Leads.here (h : P now s) : s.Leads now P := ⟨[], now, s, .nil, by simp, h⟩

theorem Leads.trans (h : s.Leads now P) (hnext : ∀ later t, P later t → t.Leads later Q) :
    s.Leads now Q := by
  obtain ⟨first, between, t, hrun, hfirst, hP⟩ := h
  obtain ⟨rest, later, u, hrest, hnone, hQ⟩ := hnext between t hP
  refine ⟨first ++ rest, later, u, hrun.append hrest, fun x hx => ?_, hQ⟩
  rcases List.mem_append.mp hx with hx | hx
  · exact hfirst x hx
  · exact hnone x hx

theorem Leads.of_step (h : s.Step now d t) (hd : d.isResult = false)
    (ht : t.Leads now P) : s.Leads now P := by
  have hstep : s.Leads now fun later u => later = now ∧ u = t :=
    ⟨[(now, d)], now, t, .step .nil h, by simpa using hd, rfl, rfl⟩
  refine hstep.trans ?_
  rintro _ _ ⟨rfl, rfl⟩
  exact ht

theorem Leads.of_wait (h : rt.clock.Passes s.timers now later) (hs : s.Leads later P) :
    s.Leads now P := by
  have hwait : s.Leads now fun later' t => later' = later ∧ t = s :=
    ⟨[], later, s, .wait .nil h, by simp, rfl, rfl⟩
  refine hwait.trans ?_
  rintro _ _ ⟨rfl, rfl⟩
  exact hs

theorem Leads.fit (hrt : rt.Lawful) (hs : s.Fit pause) (h : s.Leads now P) :
    s.Leads now fun later t => t.Fit pause ∧ P later t := by
  obtain ⟨history, later, t, hrun, hnone, hP⟩ := h
  exact ⟨history, later, t, hrun, hnone, hs.run hrt hrun, hP⟩

/-- The loop carries its work out, if every call that it makes ends. -/
theorem leads_done {job : Job} {work : Work} (h : s.loop = .working job work) :
    s.Leads now fun _ t => ∃ m answer, t = { s with loop := .working job (.done (m, answer)) } := by
  induction work generalizing s with
  | done result =>
    obtain ⟨m, answer⟩ := result
    exact .here ⟨m, answer, by rw [← h]⟩
  | publish e rest ih =>
    exact .of_step (.loop (.publish h)) rfl
      (ih (s := { s with loop := .working job rest }) rfl)
  | ask r next ih =>
    refine .of_step (.loop (.ask h)) rfl (.of_step (.loop (.conclude rfl .timedOut)) rfl ?_)
    exact ih .timedOut (s := { s with loop := .working job (next .timedOut) }) rfl

/-- The loop waits or has stopped; meanwhile the caller has not moved, and no order has come. -/
def Rests (s t : System rt) : Prop :=
  (t.loop = .stopped ∨ ∃ m deadline, t.loop = .waiting m deadline) ∧ t.caller = s.caller ∧
    (rt.orders.entries t.orders).length ≤ (rt.orders.entries s.orders).length

theorem leads_rests_of_order (hrt : rt.Lawful) {l : Letter} {deadline : Nat} {work : Work}
    (h : s.loop = .working (.order l deadline) work) : s.Leads now fun _ t => s.Rests t := by
  refine (leads_done h).trans ?_
  rintro later _ ⟨m, answer, rfl⟩
  refine .of_step (.loop (.finish rfl)) rfl (.here ?_)
  rcases finish_order_eq_or { s with loop := .working (.order l deadline) (.done (m, answer)) }
    later m answer l deadline with heq | heq <;> rw [heq]
  · refine ⟨.inl rfl, respond_caller _ l answer, ?_⟩
    simp [shut, hrt.orders.entries_close]
  · exact ⟨.inr ⟨m, deadline, rfl⟩, respond_caller _ l answer, by simp⟩

theorem leads_rests_of_passing (hrt : rt.Lawful) {m : Machine} (h : s.loop = .passing m) :
    s.Leads now fun _ t => s.Rests t := by
  generalize hentries : rt.notices.entries s.notices = entries
  induction entries generalizing s now m with
  | nil =>
    refine .of_step (.loop (.tick h (hrt.notices.foundEmpty_iff.mpr hentries))) rfl ?_
    refine (leads_done rfl).trans ?_
    rintro later _ ⟨m', answer, rfl⟩
    refine .of_step (.loop (.finish rfl)) rfl (.here ?_)
    exact ⟨.inr ⟨_, _, rfl⟩, rfl, Nat.le_refl _⟩
  | cons n rest ih =>
    obtain ⟨q, taken⟩ := hrt.notices.exists_takes hentries
    have hrest : rt.notices.entries q = rest :=
      (List.cons.inj ((hrt.notices.of_takes taken).1.symm.trans hentries)).2
    refine .of_step (.loop (.receive h taken)) rfl ((leads_done rfl).trans ?_)
    rintro later _ ⟨m', answer, rfl⟩
    refine .of_step (.loop (.finish rfl)) rfl ?_
    exact ih (s := { s with notices := q, loop := .passing m' }) rfl hrest

theorem leads_rests (hrt : rt.Lawful) (s : System rt) (now : Nat) :
    s.Leads now fun _ t => s.Rests t := by
  have hworking : ∀ {s : System rt} {job : Job} {work : Work}, s.loop = .working job work →
      s.Leads now fun _ t => s.Rests t := by
    intro s job work h
    cases job with
    | order l deadline => exact leads_rests_of_order hrt h
    | notice =>
      refine (leads_done h).trans ?_
      rintro later _ ⟨m, answer, rfl⟩
      exact .of_step (.loop (.finish rfl)) rfl
        (leads_rests_of_passing (s := { s with loop := .passing m }) hrt rfl)
    | tick =>
      refine (leads_done h).trans ?_
      rintro later _ ⟨m, answer, rfl⟩
      exact .of_step (.loop (.finish rfl)) rfl
        (.here ⟨.inr ⟨_, _, rfl⟩, rfl, Nat.le_refl _⟩)
  cases hloop : s.loop with
  | passing m => exact leads_rests_of_passing hrt hloop
  | waiting m deadline => exact .here ⟨.inr ⟨m, deadline, hloop⟩, rfl, Nat.le_refl _⟩
  | working job work => exact hworking hloop
  | calling job r next =>
    exact .of_step (.loop (.conclude hloop .timedOut)) rfl
      (hworking (s := { s with loop := .working job (next .timedOut) }) rfl)
  | stopped => exact .here ⟨.inl hloop, rfl, Nat.le_refl _⟩

theorem leads_served (hrt : rt.Lawful) (hs : s.Fit pause) :
    s.Leads now fun _ t => t.caller = s.caller ∧ t.letters = [] := by
  generalize hlength : (rt.orders.entries s.orders).length = n
  induction n using Nat.strongRecOn generalizing s now with
  | ind n ih =>
    refine ((leads_rests hrt s now).fit hrt hs).trans ?_
    rintro later t ⟨ht, hstands, hcaller, hle⟩
    rcases hstands with hstop | ⟨m, deadline, hwaiting⟩
    · exact .here ⟨hcaller, (ht.sound.closed hstop).1⟩
    · cases hentries : rt.orders.entries t.orders with
      | nil =>
        refine .here ⟨hcaller, ?_⟩
        simp [letters, hwaiting, hentries, Loop.letter?, Loop.job?]
      | cons l rest =>
        obtain ⟨q, taken⟩ := hrt.orders.exists_takes hentries
        have htake : LoopStep later t (.take l) _ := .take hwaiting taken
        have hrest : (rt.orders.entries q).length < n := by
          rw [(hrt.orders.of_takes taken).1, List.length_cons] at hle
          omega
        refine .of_step (.loop htake) rfl ?_
        refine ((leads_rests_of_order hrt rfl).fit hrt (ht.step hrt (.loop htake))).trans ?_
        rintro last u ⟨hu, -, hsame, hle'⟩
        refine (ih _ (Nat.lt_of_le_of_lt hle' hrest) hu rfl).trans ?_
        rintro latest v ⟨hv, hnone⟩
        exact .here ⟨hv.trans (hsame.trans hcaller), hnone⟩

section Waits

variable (hrt : rt.Lawful) (hs : s.Fit pause) {e : Errand} (h : s.caller = .away e)
include hrt hs h

theorem leads_sent {o : Order} {sent : Nat → Caller} {refused : Caller}
    (wait : e.wait pause = .send o sent refused) :
    s.Leads now fun later t =>
      t.caller = sent later ∧ t.reply = rt.reply.fresh ∨ t.caller = refused := by
  refine ((leads_served hrt hs).fit hrt hs).trans ?_
  rintro later t ⟨ht, hcaller, hnone⟩
  have haway := hcaller.trans h
  rw [← ht.pause] at wait
  by_cases hopen : rt.orders.IsOpen t.orders
  · have hentries : rt.orders.entries t.orders = [] := (List.append_eq_nil_iff.mp hnone).2
    obtain ⟨q, put⟩ := hrt.orders.exists_puts hopen
      (fun room hroom => by rw [hentries]; exact ht.room room hroom) ⟨t.number + 1, o⟩
    exact .of_step (.caller (.send haway wait put)) rfl (.here (.inl ⟨rfl, rfl⟩))
  · exact .of_step (.caller (.refused haway wait (hrt.orders.refuses_iff.mpr hopen))) rfl
      (.here (.inr rfl))

theorem leads_heard {heard : Nat → Except Fault Told → Caller} {lost : Caller}
    (wait : e.wait pause = .answer heard lost) :
    s.Leads now fun later t => ∃ answer, t.caller = heard later answer := by
  refine ((leads_served hrt hs).fit hrt hs).trans ?_
  rintro later t ⟨ht, hcaller, hnone⟩
  have haway := hcaller.trans h
  rw [← ht.pause] at wait
  obtain ⟨q, hq⟩ := Errand.exists_awaits?_of_answer wait
  rcases ht.sound.answered q (by rw [haway, hq]) with hwaits | ⟨m, answer, hreply, -, -⟩
  · rw [hnone] at hwaits
    cases hwaits
  · have hyields : rt.reply.Yields t.reply answer := by
      rw [hreply]
      exact hrt.reply.yields_fill_iff.mpr rfl
    exact .of_step (.caller (.hear haway wait hyields)) rfl (.here ⟨answer, rfl⟩)

theorem leads_due (htimers : e.timers pause ≠ []) :
    s.Leads now fun later t => t.caller = s.caller ∧ t.reply = s.reply ∧
      ∃ moment ∈ e.timers pause, rt.clock.IsDue later moment := by
  have htail : ∀ t : System rt, t.caller = .away e → t.lookPause = pause →
      t.timers = t.loop.deadline?.toList ++ e.timers pause := by
    intro t hcaller hpause
    simp only [timers, hcaller, hpause]
  have hne : s.timers ≠ [] := by
    rw [htail s h hs.pause]
    exact fun hnil => htimers (List.append_eq_nil_iff.mp hnil).2
  obtain ⟨moment, hmoment, later, passes, due⟩ := hrt.clock.exists_passes hne now
  refine .of_wait passes ?_
  rw [htail s h hs.pause] at hmoment
  rcases List.mem_append.mp hmoment with hdeadline | hmoment
  · cases hloop : s.loop with
    | waiting m deadline =>
      rw [hloop] at hdeadline
      obtain rfl := List.mem_singleton.mp hdeadline
      refine .of_step (.loop (.pass hloop due)) rfl ?_
      have hpassing := htail { s with loop := .passing m } h hs.pause
      have hne' : System.timers { s with loop := .passing m } ≠ [] := by
        rw [hpassing]
        exact htimers
      obtain ⟨moment', hmoment', last, passes', due'⟩ := hrt.clock.exists_passes hne' later
      rw [hpassing] at hmoment'
      exact .of_wait passes' (.here ⟨rfl, rfl, moment', hmoment', due'⟩)
    | _ =>
      rw [hloop] at hdeadline
      cases hdeadline
  · exact .here ⟨rfl, rfl, moment, hmoment, due⟩

end Waits

/-- The call is back with its result. -/
def IsBack (call : Call) (_ : Nat) (s : System rt) : Prop := ∃ result, s.caller = .back call result

section Retire

variable (hrt : rt.Lawful) (hs : s.Fit pause) {millis limit : Nat} {result : Except Fault Told}
include hrt hs

theorem leads_back_of_part (h : s.caller = .away (.retire millis (.part result))) :
    s.Leads now (IsBack (.retire millis)) := by
  refine (leads_heard hrt hs h rfl).trans ?_
  rintro later t ⟨answer, hcaller⟩
  exact .here ⟨result, hcaller⟩

theorem leads_back_of_halt (h : s.caller = .away (.retire millis (.halt result))) :
    s.Leads now (IsBack (.retire millis)) := by
  refine ((leads_sent hrt hs h rfl).fit hrt hs).trans ?_
  rintro later t ⟨ht, ⟨hcaller, -⟩ | hcaller⟩
  · exact leads_back_of_part hrt ht hcaller
  · exact .here ⟨_, hcaller⟩

theorem leads_back_of_expire {e : Errand} (h : s.caller = .away e)
    (limited : e.limit? =
      some (limit, .away (.retire millis (.halt (.error (.restTimeout (.ofMillis millis)))))))
    (hover : ¬ s.IsOver now (e.wait s.lookPause)) (due : rt.clock.IsDue now limit) :
    s.Leads now (IsBack (.retire millis)) := by
  have hexpire := CallerStep.expire h limited (hrt.clock.expires_iff.mpr ⟨hover, due⟩)
  exact .of_step (.caller hexpire) rfl
    (leads_back_of_halt hrt (hs.step hrt (.caller hexpire)) rfl)

theorem leads_back_of_fresh (h : s.caller = .away (.retire millis (.hear limit)))
    (hreply : s.reply = rt.reply.fresh) : s.Leads now (IsBack (.retire millis)) := by
  have hne : (Errand.retire millis (.hear limit)).timers pause ≠ [] := by
    simp [Errand.timers, Errand.limit?, Errand.wait]
  refine ((leads_due hrt hs h hne).fit hrt hs).trans ?_
  rintro later t ⟨ht, hcaller, hreply', moment, hmoment, due⟩
  obtain rfl : moment = limit := by
    simpa [Errand.timers, Errand.limit?, Errand.wait] using hmoment
  refine leads_back_of_expire hrt ht (hcaller.trans h) rfl ?_ due
  rintro (⟨answer, hyields⟩ | hfails)
  · rw [hreply', hreply] at hyields
    exact hrt.reply.not_yields_fresh answer hyields
  · rw [hreply', hreply] at hfails
    exact hrt.reply.not_fails_fresh hfails

theorem leads_back_of_look (h : s.caller = .away (.retire millis (.look limit))) :
    s.Leads now (IsBack (.retire millis)) := by
  refine ((leads_sent hrt hs h rfl).fit hrt hs).trans ?_
  rintro later t ⟨ht, ⟨hcaller, hreply⟩ | hcaller⟩
  · exact leads_back_of_fresh hrt ht hcaller hreply
  · exact leads_back_of_halt hrt ht hcaller

theorem leads_back_of_pause {moment : Nat}
    (h : s.caller = .away (.retire millis (.pause limit moment))) :
    s.Leads now (IsBack (.retire millis)) := by
  have hne : (Errand.retire millis (.pause limit moment)).timers pause ≠ [] := by
    simp [Errand.timers, Errand.wait]
  refine ((leads_due hrt hs h hne).fit hrt hs).trans ?_
  rintro later t ⟨ht, hcaller, -, first, hfirst, due⟩
  have haway := hcaller.trans h
  by_cases hover : rt.clock.IsDue later moment
  · have hwake := CallerStep.wake haway rfl hover
    exact .of_step (.caller hwake) rfl (leads_back_of_look hrt (ht.step hrt (.caller hwake)) rfl)
  · have hlimit : first = moment ∨ first = limit := by
      simpa [Errand.timers, Errand.limit?, Errand.wait] using hfirst
    rcases hlimit with rfl | rfl
    · exact absurd due hover
    · exact leads_back_of_expire hrt ht haway rfl hover due

theorem leads_back_of_hear (h : s.caller = .away (.retire millis (.hear limit))) :
    s.Leads now (IsBack (.retire millis)) := by
  refine ((leads_heard hrt hs h rfl).fit hrt hs).trans ?_
  rintro later t ⟨ht, answer, hcaller⟩
  dsimp only at hcaller
  split at hcaller
  · exact leads_back_of_halt hrt ht hcaller
  · exact leads_back_of_pause hrt ht hcaller

theorem leads_back_of_retire {leg : Leg} (h : s.caller = .away (.retire millis leg)) :
    s.Leads now (IsBack (.retire millis)) := by
  cases leg with
  | aim =>
    refine ((leads_sent hrt hs h rfl).fit hrt hs).trans ?_
    rintro later t ⟨ht, ⟨hcaller, -⟩ | hcaller⟩
    · exact leads_back_of_look hrt ht hcaller
    · exact .here ⟨_, hcaller⟩
  | look limit => exact leads_back_of_look hrt hs h
  | hear limit => exact leads_back_of_hear hrt hs h
  | pause limit moment => exact leads_back_of_pause hrt hs h
  | halt result => exact leads_back_of_halt hrt hs h
  | part result => exact leads_back_of_part hrt hs h

end Retire

section Back

variable (hrt : rt.Lawful) (hs : s.Fit pause) {e : Errand} (h : s.caller = .away e)
include hrt hs h

theorem leads_back : s.Leads now (IsBack e.call) := by
  have htell : ∀ {s : System rt} {e : Errand} {call : Call} {o : Order} (now : Nat),
      s.Fit pause → s.caller = .away e → e.wait pause = Errand.tell call o →
        s.Leads now (IsBack call) := by
    intro s e call o now hs h wait
    refine (leads_sent hrt hs h wait).trans ?_
    rintro later t (⟨hcaller, -⟩ | hcaller) <;> exact .here ⟨_, hcaller⟩
  have hhear : ∀ {s : System rt} {q : Question} (now : Nat), s.Fit pause →
      s.caller = .away (.hear q) → s.Leads now (IsBack (.ask q)) := by
    intro s q now hs h
    refine (leads_heard hrt hs h rfl).trans ?_
    rintro later t ⟨answer, hcaller⟩
    exact .here ⟨answer, hcaller⟩
  cases e with
  | aim g => exact htell now hs h rfl
  | prefer name => exact htell now hs h rfl
  | connectAim name => exact htell now hs h rfl
  | connect name =>
    refine ((leads_sent hrt hs h rfl).fit hrt hs).trans ?_
    rintro later t ⟨ht, ⟨hcaller, -⟩ | hcaller⟩
    · exact htell later ht hcaller rfl
    · exact .here ⟨_, hcaller⟩
  | hear q => exact hhear now hs h
  | ask q =>
    refine ((leads_sent hrt hs h rfl).fit hrt hs).trans ?_
    rintro later t ⟨ht, ⟨hcaller, -⟩ | hcaller⟩
    · exact hhear later ht hcaller
    · exact .here ⟨_, hcaller⟩
  | retire millis leg => exact leads_back_of_retire hrt hs h

/-- A call under way has a way on to its end. -/
theorem exists_ending (now : Nat) : ∃ rest later t result,
    s.Run now (rest ++ [(later, .result e.call result)]) later t ∧
      ∀ x ∈ rest, x.2.isResult = false := by
  have hleads : s.Leads now (IsBack e.call) := leads_back hrt hs h
  obtain ⟨rest, later, t, hrun, hnone, result, hback⟩ := hleads
  exact ⟨rest, later, _, result, .step hrun (.caller (.result hback)), hnone⟩

end Back

end System

end Wimax
