import Wimax.Proofs.Errands
import Wimax.Proofs.SystemRuns

/-!
The letters between a caller and the loop. Letters are numbered in the order in which they are sent
and taken, so the answer a caller hears is the one to its last order; a loop that has stopped has
answered the order to halt, or has been released.
-/

namespace Wimax

def Deed.isResult : Deed → Bool
  | .result _ _ => true
  | _ => false

namespace System

variable {rt : Runtime} {s t : System rt} {now : Nat} {d : Deed}

/-- The letters that wait, and before them the one that the loop is busy with. -/
def letters (s : System rt) : List Letter :=
  s.loop.letter?.toList ++ rt.orders.entries s.orders

/-- Nothing has happened between the loop and its caller. -/
structure Steady (s t : System rt) : Prop where
  letters : t.letters = s.letters
  number : t.number = s.number
  reply : t.reply = s.reply
  caller : t.caller = s.caller
  released : t.released = s.released
  running : s.loop ≠ .stopped ∧ t.loop ≠ .stopped
  orders : rt.orders.IsOpen t.orders ↔ rt.orders.IsOpen s.orders
  notices : rt.notices.IsOpen t.notices ↔ rt.notices.IsOpen s.notices

/-- A step of the loop finishes a letter or leaves the session, or nothing happens between it and
the caller. -/
theorem LoopStep.steady_or (hrt : rt.Lawful) (h : LoopStep now s d t) :
    (Steady s t ∧ ∀ l deadline m answer, d ≠ .finish (.order l deadline) m answer) ∨
      (∃ l deadline m answer, s.loop = .working (.order l deadline) (.done (m, answer)) ∧
        d = .finish (.order l deadline) m answer ∧
        t = s.finish now m answer (.order l deadline)) ∨
      s.released = true ∧ s.letters = [] ∧ s.loop ≠ .stopped ∧ t = s.shut := by
  cases h with
  | receive h taken =>
    obtain ⟨-, hopen, -⟩ := hrt.notices.of_takes taken
    refine .inl ⟨⟨?_, rfl, rfl, rfl, rfl, by simp [h], .rfl, hopen⟩, by simp⟩
    simp [letters, h, Loop.letter?, Loop.job?]
  | @finish job m answer h =>
    cases job with
    | notice =>
      refine .inl ⟨⟨?_, rfl, rfl, rfl, rfl, by simp [h, System.finish], .rfl, .rfl⟩, by simp⟩
      simp [letters, h, System.finish, Loop.letter?, Loop.job?]
    | tick =>
      refine .inl ⟨⟨?_, rfl, rfl, rfl, rfl, by simp [h, System.finish], .rfl, .rfl⟩, by simp⟩
      simp [letters, h, System.finish, Loop.letter?, Loop.job?]
    | order l deadline => exact .inr (.inl ⟨l, deadline, m, answer, h, rfl, rfl⟩)
  | take h taken =>
    obtain ⟨hentries, hopen, -⟩ := hrt.orders.of_takes taken
    refine .inl ⟨⟨?_, rfl, rfl, rfl, rfl, by simp [h], hopen, .rfl⟩, by simp⟩
    simp [letters, h, hentries, Loop.letter?, Loop.job?]
  | leave h released none =>
    have hentries := hrt.orders.foundEmpty_iff.mp none
    refine .inr (.inr ⟨released, ?_, by simp [h], rfl⟩)
    simp [letters, h, hentries, Loop.letter?, Loop.job?]
  | _ h =>
    refine .inl ⟨⟨?_, rfl, rfl, rfl, rfl, by simp [h], .rfl, .rfl⟩, by simp⟩
    simp [letters, h, Loop.letter?, Loop.job?]

/-- What holds of the loop, its caller and the letters between them all through a run. -/
structure Sound (s : System rt) : Prop where
  ordered : s.letters.Pairwise (·.number < ·.number)
  numbered : ∀ l ∈ s.letters, l.number ≤ s.number
  /-- A question is still waited for, or is the look of a caller who has given up. -/
  asked : ∀ l ∈ s.letters, ∀ q, l.order = .ask q →
    s.caller.awaits? = some q ∧ l.number = s.number ∨ q = .view ∧ s.caller.isParting = true
  fresh : (∃ l ∈ s.letters, l.number = s.number) → s.reply = rt.reply.fresh
  answered : ∀ q, s.caller.awaits? = some q →
    ⟨s.number, .ask q⟩ ∈ s.letters ∨
      ∃ m answer, s.reply = rt.reply.fill rt.reply.fresh answer ∧
        (Order.ask q).Settles (m, some answer) ∧ (q = .halt → s.loop = .stopped)
  opened : s.loop ≠ .stopped → rt.orders.IsOpen s.orders ∧ rt.notices.IsOpen s.notices
  closed : s.loop = .stopped →
    s.letters = [] ∧ ¬ rt.orders.IsOpen s.orders ∧ ¬ rt.notices.IsOpen s.notices
  released : s.released = true → s.caller = .idle
  stopped : s.loop = .stopped → s.caller.awaits? = some .halt ∨ s.caller.IsOutset
  ended : ∀ call result, s.caller = .back call result → call.Ends result → s.loop = .stopped
  parting : ∀ millis result,
    s.caller = .away (.retire millis (.halt result)) ∨
      s.caller = .away (.retire millis (.part result)) → (Call.retire millis).Ends result

theorem Steady.sound (h : Steady s t) (hs : s.Sound) : t.Sound where
  ordered := by rw [h.letters]; exact hs.ordered
  numbered := by rw [h.letters, h.number]; exact hs.numbered
  asked := by rw [h.letters, h.number, h.caller]; exact hs.asked
  fresh := by rw [h.letters, h.number, h.reply]; exact hs.fresh
  answered := by
    rw [h.letters, h.number, h.reply, h.caller]
    intro q hq
    rcases hs.answered q hq with hwaits | ⟨m, answer, hreply, hsettles, hhalt⟩
    · exact .inl hwaits
    · exact .inr ⟨m, answer, hreply, hsettles, fun hq => absurd (hhalt hq) h.running.1⟩
  opened _ := by rw [h.orders, h.notices]; exact hs.opened h.running.1
  closed hstop := absurd hstop h.running.2
  released := by rw [h.released, h.caller]; exact hs.released
  stopped hstop := absurd hstop h.running.2
  ended call result := by
    rw [h.caller]
    intro hback hends
    exact absurd (hs.ended call result hback hends) h.running.1
  parting := by rw [h.caller]; exact hs.parting

@[simp]
theorem letters_shut (hrt : rt.Lawful) (s : System rt) : s.shut.letters = [] := by
  simp [letters, shut, hrt.orders.entries_close, Loop.letter?, Loop.job?]

theorem fill_ne_fresh (hrt : rt.Lawful) (answer : Except Fault Told) :
    rt.reply.fill rt.reply.fresh answer ≠ rt.reply.fresh := by
  intro heq
  have hyields := hrt.reply.yields_fill_iff.mpr (rfl : answer = answer)
  rw [heq] at hyields
  exact hrt.reply.not_yields_fresh answer hyields

theorem letters_of_letter? {l : Letter} (h : s.loop.letter? = some l) :
    s.letters = l :: rt.orders.entries s.orders := by
  rw [letters, h]
  rfl

theorem Sound.last_of_halt (hs : s.Sound) {l : Letter} (h : s.loop.letter? = some l)
    (hhalt : l.order = .ask .halt) :
    s.letters = [l] ∧ s.caller.awaits? = some .halt ∧ l.number = s.number := by
  have hletters := letters_of_letter? h
  have hasked : s.caller.awaits? = some .halt ∧ l.number = s.number := by
    rcases hs.asked l (by rw [hletters]; exact List.mem_cons_self) .halt hhalt with
      hasked | ⟨hview, -⟩
    · exact hasked
    · cases hview
  refine ⟨?_, hasked⟩
  suffices hempty : rt.orders.entries s.orders = [] by rw [hletters, hempty]
  refine List.eq_nil_iff_forall_not_mem.mpr fun l' hl' => ?_
  have hordered := hs.ordered
  rw [hletters, List.pairwise_cons] at hordered
  have hlt := hordered.1 l' hl'
  have hle := hs.numbered l' (by rw [hletters]; exact List.mem_cons_of_mem l hl')
  omega

section Finish

variable {l : Letter} {deadline : Nat} {m : Machine} {answer : Option (Except Fault Told)}
  (hs : s.Sound) (h : s.loop = .working (.order l deadline) (.done (m, answer)))
  (hsettles : l.order.Settles (m, answer))
include hs h hsettles

/-- An order to halt is the last letter, and its caller waits to be told. -/
theorem Sound.finish_halt (hrt : rt.Lawful) (hhalt : l.order = .ask .halt) :
    (s.respond l answer).shut.Sound ∧ (s.respond l answer).shut.caller.awaits? = some .halt := by
  obtain ⟨hlast, hawaits, hnumber⟩ := hs.last_of_halt (by rw [h]; rfl) hhalt
  have hmem : l ∈ s.letters := by rw [hlast]; exact List.mem_cons_self
  have hempty : rt.orders.entries s.orders = [] :=
    (List.cons.inj ((letters_of_letter? (by rw [h]; rfl)).symm.trans hlast)).2
  have hanswer : answer = some (.ok .nothing) := by
    rw [hhalt] at hsettles
    exact hsettles
  have hreply : (s.respond l answer).shut.reply = rt.reply.fill rt.reply.fresh (.ok .nothing) := by
    rw [hanswer, shut]
    simp only [respond_orders, hempty, List.any_nil, Bool.false_eq_true, ↓reduceIte]
    rw [reply_respond_of_eq hnumber, hs.fresh ⟨l, hmem, hnumber⟩]
  have hcaller : (s.respond l answer).shut.caller = s.caller := respond_caller s l answer
  refine ⟨?_, by rw [hcaller]; exact hawaits⟩
  refine {
    ordered := by simp [hrt]
    numbered := by simp [hrt]
    asked := by simp [hrt]
    fresh := by simp [hrt]
    answered := fun q hq => ?_
    opened := fun hrun => absurd rfl hrun
    closed := fun _ => ⟨letters_shut hrt _, hrt.orders.not_isOpen_close _,
      hrt.notices.not_isOpen_close _⟩
    released := ?_
    stopped := fun _ => .inl (by rw [hcaller]; exact hawaits)
    ended := fun _ _ _ _ => rfl
    parting := by rw [hcaller]; exact hs.parting }
  · rw [hcaller, hawaits] at hq
    cases hq
    exact .inr ⟨m, _, hreply, rfl, fun _ => rfl⟩
  · intro hreleased
    rw [hcaller]
    exact hs.released ((respond_released s l answer).symm.trans hreleased)

theorem Sound.finish_other (hrt : rt.Lawful) (hhalt : l.order ≠ .ask .halt) :
    Sound { s.respond l answer with loop := .waiting m deadline } := by
  have hletters := letters_of_letter? (s := s) (l := l) (by rw [h]; rfl)
  have hmem : l ∈ s.letters := by rw [hletters]; exact List.mem_cons_self
  have hrest : ({ s.respond l answer with loop := .waiting m deadline } : System rt).letters =
      rt.orders.entries s.orders := by
    simp [letters, Loop.letter?, Loop.job?]
  have htail : ∀ l' ∈ rt.orders.entries s.orders, l' ∈ s.letters := by
    intro l' hl'
    rw [hletters]
    exact List.mem_cons_of_mem l hl'
  have hordered := hs.ordered
  rw [hletters, List.pairwise_cons] at hordered
  have hrun : s.loop ≠ .stopped := by simp [h]
  refine {
    ordered := by rw [hrest]; exact hordered.2
    numbered := by
      rw [hrest, respond_number]
      exact fun l' hl' => hs.numbered l' (htail l' hl')
    asked := by
      rw [hrest, respond_number, respond_caller]
      exact fun l' hl' => hs.asked l' (htail l' hl')
    fresh := ?_
    answered := ?_
    opened := fun _ => by simpa using hs.opened hrun
    closed := fun hstop => nomatch hstop
    released := by simpa using hs.released
    stopped := fun hstop => nomatch hstop
    ended := ?_
    parting := by rw [respond_caller]; exact hs.parting }
  · rw [hrest, respond_number]
    rintro ⟨l', hl', hnumber⟩
    have hlt := hordered.1 l' hl'
    rw [reply_respond_of_ne (by omega)]
    exact hs.fresh ⟨l', htail l' hl', hnumber⟩
  · rw [hrest, respond_number, respond_caller]
    intro q hq
    rcases hs.answered q hq with hwaits | ⟨m', a, hreply, ha, hstop⟩
    · rw [hletters, List.mem_cons] at hwaits
      rcases hwaits with rfl | hwaits
      · obtain ⟨a, rfl⟩ := hsettles.exists_answer
        refine .inr ⟨m, a, ?_, hsettles, fun hq => absurd (by rw [hq]) hhalt⟩
        change (s.respond _ _).reply = _
        rw [reply_respond_of_eq rfl, hs.fresh ⟨_, hmem, rfl⟩]
      · exact .inl hwaits
    · refine .inr ⟨m', a, ?_, ha, fun hq => absurd (hstop hq) hrun⟩
      have hne : l.number ≠ s.number := by
        intro hnumber
        rw [hs.fresh ⟨l, hmem, hnumber⟩] at hreply
        exact fill_ne_fresh hrt a hreply.symm
      change (s.respond _ _).reply = _
      rw [reply_respond_of_ne hne, hreply]
  · intro call result hback hends
    have hback : s.caller = .back call result := (respond_caller s l answer).symm.trans hback
    exact absurd (hs.ended call result hback hends) hrun

end Finish

theorem Sound.loopStep (hrt : rt.Lawful) (hs : s.Sound) (hsettling : s.Settling)
    (h : LoopStep now s d t) : t.Sound := by
  rcases h.steady_or hrt with ⟨hsteady, -⟩ | ⟨l, deadline, m, answer, hloop, -, rfl⟩ |
    ⟨hreleased, hletters, hrun, rfl⟩
  · exact hsteady.sound hs
  · have hsettles := hsettling.finished hloop
    by_cases hhalt : l.order = .ask .halt
    · simp only [System.finish, if_pos hhalt]
      exact (hs.finish_halt hloop hsettles hrt hhalt).1
    · simp only [System.finish, if_neg hhalt]
      exact hs.finish_other hloop hsettles hrt hhalt
  · have hidle : s.shut.caller = .idle := hs.released hreleased
    exact {
      ordered := by simp [hrt]
      numbered := by simp [hrt]
      asked := by simp [hrt]
      fresh := by simp [hrt]
      answered := by simp [hidle, Caller.awaits?]
      opened := fun hrun => absurd rfl hrun
      closed := fun _ => ⟨letters_shut hrt _, hrt.orders.not_isOpen_close _,
        hrt.notices.not_isOpen_close _⟩
      released := fun _ => hidle
      stopped := fun _ => .inr (.inl hidle)
      ended := by simp [hidle]
      parting := by simp [hidle] }

/-- A caller who neither waits for an answer nor parts has no question under way. -/
theorem Sound.no_question (hs : s.Sound) (hawaits : s.caller.awaits? = none)
    (hpart : s.caller.isParting = false) : ∀ l ∈ s.letters, ∀ q, l.order ≠ .ask q := by
  intro l hl q hq
  rcases hs.asked l hl q hq with ⟨hasked, -⟩ | ⟨-, hparting⟩
  · rw [hawaits] at hasked
    cases hasked
  · rw [hpart] at hparting
    cases hparting

theorem Sound.no_question_of_yields (hrt : rt.Lawful) (hs : s.Sound) {answer : Except Fault Told}
    {q : Question} (hawaits : s.caller.awaits? = some q) (hy : rt.reply.Yields s.reply answer) :
    ∀ l ∈ s.letters, ∀ q, l.order ≠ .ask q := by
  have hnumber : ∀ l ∈ s.letters, l.number ≠ s.number := by
    intro l hl hnumber
    rw [hs.fresh ⟨l, hl, hnumber⟩] at hy
    exact hrt.reply.not_yields_fresh answer hy
  intro l hl q' hq'
  rcases hs.asked l hl q' hq' with ⟨-, heq⟩ | ⟨rfl, hparting⟩
  · exact hnumber l hl heq
  · rcases hs.answered q hawaits with hwaits | ⟨-, -, -, -, hstop⟩
    · exact hnumber _ hwaits rfl
    · have hhalt := Caller.eq_halt_of_isParting hparting hawaits
      rw [(hs.closed (hstop hhalt)).1] at hl
      cases hl

theorem Sound.goesOn (hs : s.Sound) {c : Caller} (hawaits : c.awaits? = none)
    (hasked : ∀ l ∈ s.letters, ∀ q, l.order = .ask q → q = .view ∧ c.isParting = true)
    (hreleased : s.released = false ∨ c = .idle)
    (hstopped : s.loop = .stopped → c.IsOutset)
    (hended : ∀ call result, c = .back call result → call.Ends result → s.loop = .stopped)
    (hparting : ∀ millis result,
      c = .away (.retire millis (.halt result)) → (Call.retire millis).Ends result) :
    Sound { s with caller := c } where
  ordered := hs.ordered
  numbered := hs.numbered
  asked l hl q hq := .inr (hasked l hl q hq)
  fresh := hs.fresh
  answered q hq := by
    rw [hawaits] at hq
    cases hq
  opened := hs.opened
  closed := hs.closed
  released htrue := by
    rcases hreleased with hfalse | hidle
    · rw [hfalse] at htrue
      cases htrue
    · exact hidle
  stopped hstop := .inr (hstopped hstop)
  ended := hended
  parting millis result hpart := by
    rcases hpart with hhalt | hpart
    · exact hparting millis result hhalt
    · change c = _ at hpart
      rw [hpart] at hawaits
      cases hawaits

theorem Sound.released_of_away (hs : s.Sound) {e : Errand} (h : s.caller = .away e) :
    s.released = false := by
  cases hreleased : s.released with
  | false => rfl
  | true =>
    have hidle := hs.released hreleased
    rw [h] at hidle
    cases hidle

theorem Sound.away_of_stopped (hs : s.Sound) (hstop : s.loop = .stopped) {e : Errand}
    (h : s.caller = .away e) :
    s.caller.awaits? = some .halt ∨ ∃ call : Call, e = call.errand := by
  rcases hs.stopped hstop with hhalt | hidle | ⟨call, result, hback⟩ | ⟨call, haway⟩
  · exact .inl hhalt
  · rw [h] at hidle
    cases hidle
  · rw [h] at hback
    cases hback
  · rw [h] at haway
    exact .inr ⟨call, Caller.away.inj haway⟩

/-- In the middle of a call the loop runs, unless the call waits to be told that it has stopped. -/
theorem Sound.running (hs : s.Sound) {e : Errand} (h : s.caller = .away e)
    (hawaits : s.caller.awaits? ≠ some .halt) (hout : ∀ call : Call, e ≠ call.errand) :
    s.loop ≠ .stopped := by
  intro hstop
  rcases hs.away_of_stopped hstop h with hhalt | ⟨call, rfl⟩
  · exact hawaits hhalt
  · exact hout call rfl

theorem Sound.not_fails (hrt : rt.Lawful) (hs : s.Sound) {q : Question}
    (hawaits : s.caller.awaits? = some q) : ¬ rt.reply.Fails s.reply := by
  rcases hs.answered q hawaits with hwaits | ⟨-, answer, hreply, -, -⟩
  · rw [hs.fresh ⟨_, hwaits, rfl⟩]
    exact hrt.reply.not_fails_fresh
  · rw [hreply]
    exact hrt.reply.not_fails_fill answer

theorem Sound.send (hrt : rt.Lawful) (hs : s.Sound) {e : Errand} {o : Order} {sent : Nat → Caller}
    {refused : Caller} {q : rt.orders.State} (h : s.caller = .away e)
    (wait : e.wait s.lookPause = .send o sent refused)
    (put : rt.orders.Puts s.orders ⟨s.number + 1, o⟩ q) :
    Sound { s with
      orders := q, number := s.number + 1, reply := rt.reply.fresh, caller := sent now } := by
  obtain ⟨hopen, hopen', hentries, -⟩ := hrt.orders.of_puts put
  have hrun : s.loop ≠ .stopped := fun hstop => (hs.closed hstop).2.1 hopen
  have hletters : ({ s with
      orders := q, number := s.number + 1, reply := rt.reply.fresh, caller := sent now } :
        System rt).letters = s.letters ++ [⟨s.number + 1, o⟩] := by
    simp [letters, hentries]
  have hsent : (sent now).awaits? = o.question? := Errand.awaits?_sent wait
  refine {
    ordered := ?_
    numbered := ?_
    asked := ?_
    fresh := fun _ => rfl
    answered := ?_
    opened := fun _ => ⟨hopen', (hs.opened hrun).2⟩
    closed := fun hstop => absurd hstop hrun
    released := fun htrue => absurd htrue (by simp [hs.released_of_away h])
    stopped := fun hstop => absurd hstop hrun
    ended := ?_
    parting := ?_ }
  · rw [hletters, List.pairwise_append]
    refine ⟨hs.ordered, List.pairwise_singleton _ _, fun l hl l' hl' => ?_⟩
    obtain rfl := List.mem_singleton.mp hl'
    exact Nat.lt_succ_of_le (hs.numbered l hl)
  · rw [hletters]
    intro l hl
    rcases List.mem_append.mp hl with hl | hl
    · exact Nat.le_succ_of_le (hs.numbered l hl)
    · obtain rfl := List.mem_singleton.mp hl
      exact Nat.le_refl _
  · rw [hletters]
    intro l hl q' hq'
    rcases List.mem_append.mp hl with hl | hl
    · rcases hs.asked l hl q' hq' with ⟨hasked, -⟩ | ⟨hview, hparting⟩
      · rw [h, Errand.awaits?_of_send wait] at hasked
        cases hasked
      · rw [h] at hparting
        exact .inr ⟨hview, (Errand.isParting_sent wait).trans hparting⟩
    · obtain rfl := List.mem_singleton.mp hl
      have ho : o = .ask q' := hq'
      exact .inl ⟨by rw [hsent, ho]; rfl, rfl⟩
  · intro q' hq'
    rw [hletters]
    left
    have ho : o = .ask q' := by
      rw [hsent] at hq'
      cases o with
      | ask q => rw [Option.some.inj hq']
      | _ => cases hq'
    rw [ho]
    exact List.mem_append_right _ List.mem_cons_self
  · intro call result hback hends
    exact absurd hends (Errand.not_ends_sent wait hback)
  · intro millis result hpart
    have he := Errand.halt_of_parting_sent wait hpart
    exact hs.parting millis result (.inl (by rw [h, he]))

theorem Sound.hear (hrt : rt.Lawful) (hs : s.Sound) {e : Errand}
    {heard : Nat → Except Fault Told → Caller} {lost : Caller} {answer : Except Fault Told}
    (h : s.caller = .away e) (wait : e.wait s.lookPause = .answer heard lost)
    (yields : rt.reply.Yields s.reply answer) : Sound { s with caller := heard now answer } := by
  obtain ⟨q, hq⟩ := Errand.exists_awaits?_of_answer wait
  have hawaits : s.caller.awaits? = some q := by rw [h, hq]
  have hnone := hs.no_question_of_yields hrt hawaits yields
  have hstop : q = .halt → s.loop = .stopped := by
    rcases hs.answered q hawaits with hwaits | ⟨-, -, -, -, hstop⟩
    · exact absurd rfl (hnone _ hwaits q)
    · exact hstop
  refine hs.goesOn (Errand.awaits?_heard wait answer)
    (fun l hl q' hq' => absurd hq' (hnone l hl q')) (.inl (hs.released_of_away h)) ?_ ?_ ?_
  · intro hstopped
    refine Errand.isOutset_heard wait ?_
    rcases hs.away_of_stopped hstopped h with hhalt | ⟨call, rfl⟩
    · rw [← h]
      exact hhalt
    · obtain ⟨o, sent, hsend⟩ := Errand.exists_send_of_errand call s.lookPause
      rw [hsend] at wait
      cases wait
  · intro call result hback hends
    refine hstop (Option.some.inj (hq.symm.trans ?_))
    exact Errand.awaits?_of_ends_heard wait hback hends
  · intro millis result hhalt
    exact Errand.ends_heard wait hhalt

/-- Only a loop that has stopped refuses orders, and only those of a call that has just begun. -/
theorem Sound.refused (hrt : rt.Lawful) (hs : s.Sound) {e : Errand} {o : Order}
    {sent : Nat → Caller} {refused : Caller} (h : s.caller = .away e)
    (wait : e.wait s.lookPause = .send o sent refused) (gone : rt.orders.Refuses s.orders) :
    s.loop = .stopped ∧ ∃ call : Call, refused = .back call (.error .loopStopped) := by
  have hstop : s.loop = .stopped := by
    cases hloop : s.loop with
    | stopped => rfl
    | _ => exact absurd (hs.opened (by simp [hloop])).1 (hrt.orders.refuses_iff.mp gone)
  refine ⟨hstop, ?_⟩
  rcases hs.away_of_stopped hstop h with hhalt | ⟨call, rfl⟩
  · rw [h, Errand.awaits?_of_send wait] at hhalt
    cases hhalt
  · obtain ⟨o', sent', hsend⟩ := Errand.exists_send_of_errand call s.lookPause
    rw [hsend] at wait
    cases wait
    exact ⟨call, rfl⟩

theorem Sound.expire (hs : s.Sound) {millis limit : Nat} {leg : Leg}
    (h : s.caller = .away (.retire millis leg))
    (hleg : leg = .look limit ∨ leg = .hear limit ∨ ∃ moment, leg = .pause limit moment) :
    Sound { s with
      caller := .away (.retire millis (.halt (.error (.restTimeout (.ofMillis millis))))) } := by
  have hawaits : s.caller.awaits? ≠ some .halt ∧ s.caller.isParting = false := by
    rw [h]
    rcases hleg with rfl | rfl | ⟨moment, rfl⟩ <;> exact ⟨nofun, rfl⟩
  have hrun := hs.running h hawaits.1 fun call => by
    rcases hleg with rfl | rfl | ⟨moment, rfl⟩ <;> cases call <;> nofun
  refine hs.goesOn rfl (fun l hl q hq => ?_) (.inl (hs.released_of_away h))
    (fun hstop => absurd hstop hrun) (fun _ _ hback => nomatch hback) ?_
  · rcases hs.asked l hl q hq with ⟨hasked, -⟩ | ⟨-, hparting⟩
    · refine ⟨?_, rfl⟩
      rw [h] at hasked
      rcases hleg with rfl | rfl | ⟨moment, rfl⟩ <;> cases hasked
      rfl
    · rw [hawaits.2] at hparting
      cases hparting
  · rintro - - ⟨⟩
    exact .inr rfl

theorem Sound.callerStep (hrt : rt.Lawful) (hs : s.Sound) (h : CallerStep now s d t) :
    t.Sound := by
  cases h with
  | begin h kept call =>
    have hnone := hs.no_question (by rw [h]; rfl) (by rw [h]; rfl)
    refine hs.goesOn ?_ (fun l hl q hq => absurd hq (hnone l hl q)) (.inl kept)
      (fun _ => .inr (.inr ⟨call, rfl⟩)) (fun _ _ hback => by cases call <;> cases hback) ?_
    · cases call <;> rfl
    · intro millis result hhalt
      cases call <;> cases hhalt
  | send h wait put => exact hs.send hrt h wait put
  | refused h wait gone =>
    obtain ⟨hstop, call, rfl⟩ := hs.refused hrt h wait gone
    refine hs.goesOn rfl (fun l hl => ?_) (.inl (hs.released_of_away h))
      (fun _ => .inr (.inl ⟨_, _, rfl⟩)) (fun _ _ _ _ => hstop) (fun _ _ hhalt => nomatch hhalt)
    rw [(hs.closed hstop).1] at hl
    cases hl
  | hear h wait yields => exact hs.hear hrt h wait yields
  | lose h wait fails =>
    obtain ⟨q, hq⟩ := Errand.exists_awaits?_of_answer wait
    exact absurd fails (hs.not_fails hrt (by rw [h, hq]))
  | wake h wait due =>
    obtain ⟨millis, limit, rfl, rfl⟩ := Errand.pause_of_sleep wait
    have hnone := hs.no_question (by rw [h]; rfl) (by rw [h]; rfl)
    have hrun := hs.running h (by rw [h]; nofun) (fun call => by cases call <;> nofun)
    exact hs.goesOn rfl (fun l hl q hq => absurd hq (hnone l hl q)) (.inl (hs.released_of_away h))
      (fun hstop => absurd hstop hrun) (fun _ _ hback => nomatch hback)
      (fun _ _ hhalt => nomatch hhalt)
  | expire h limited expires =>
    obtain ⟨millis, leg, rfl, hleg, rfl⟩ := Errand.retire_of_limit? limited
    exact hs.expire h hleg
  | result h =>
    have hnone := hs.no_question (by rw [h]; rfl) (by rw [h]; rfl)
    exact hs.goesOn rfl (fun l hl q hq => absurd hq (hnone l hl q)) (.inr rfl)
      (fun _ => .inl rfl) (fun _ _ hback => nomatch hback) (fun _ _ hhalt => nomatch hhalt)
  | release h kept =>
    exact {
      ordered := hs.ordered
      numbered := hs.numbered
      asked := hs.asked
      fresh := hs.fresh
      answered := hs.answered
      opened := hs.opened
      closed := hs.closed
      released := fun _ => h
      stopped := hs.stopped
      ended := hs.ended
      parting := hs.parting }

theorem Sound.step (hrt : rt.Lawful) (hs : s.Sound) (hsettling : s.Settling)
    (h : s.Step now d t) : t.Sound := by
  cases h with
  | loop h => exact hs.loopStep hrt hsettling h
  | caller h => exact hs.callerStep hrt h
  | postRefused => exact hs
  | @post q n put =>
    obtain ⟨hopen, hopen', -⟩ := hrt.notices.of_puts put
    have hrun : s.loop ≠ .stopped := fun hstop => (hs.closed hstop).2.2 hopen
    have hsteady : Steady s { s with notices := q } :=
      ⟨rfl, rfl, rfl, rfl, rfl, ⟨hrun, hrun⟩, .rfl, iff_of_true hopen' hopen⟩
    exact hsteady.sound hs

theorem sound_start (hrt : rt.Lawful) (settings : Settings) : (start rt settings).Sound := by
  have hletters : (start rt settings).letters = [] := by
    simp [letters, start, hrt.orders.entries_make, Loop.letter?, Loop.job?]
  exact {
    ordered := by simp [hletters]
    numbered := by simp [hletters]
    asked := by simp [hletters]
    fresh := fun _ => rfl
    answered := fun _ hq => nomatch hq
    opened := fun _ => ⟨hrt.orders.isOpen_make _, hrt.notices.isOpen_make _⟩
    closed := fun hstop => nomatch hstop
    released := fun _ => rfl
    stopped := fun hstop => nomatch hstop
    ended := fun _ _ hback => nomatch hback
    parting := by simp [start] }

variable {u : System rt} {history first rest : List (Nat × Deed)} {begun later : Nat}

theorem Run.sound (hrt : rt.Lawful) (run : s.Run begun history now t) (hs : s.Sound)
    (hsettling : s.Settling) : t.Sound ∧ t.Settling :=
  run.invariant (I := fun s => s.Sound ∧ s.Settling)
    (fun hs h => ⟨hs.1.step hrt hs.2 h, hs.2.step h⟩) ⟨hs, hsettling⟩

theorem Run.sound_of_start (hrt : rt.Lawful) {settings : Settings}
    (run : (start rt settings).Run begun history now t) : t.Sound ∧ t.Settling :=
  run.sound hrt (sound_start hrt settings) (settling_start settings)

end System

end Wimax
