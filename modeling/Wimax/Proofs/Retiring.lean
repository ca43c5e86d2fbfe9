import Wimax.Proofs.Correspondence

/-!
The course of a call to retire on any runtime. Its order for rest is carried out before any look is
answered, and what it comes to is settled by the looks that are answered before its time limit
strikes.
-/

namespace Wimax

namespace Deed

/-- The loop gives an answer that shows the session at rest. -/
def showsRest : Deed → Bool
  | .finish _ _ (some answer) => Wimax.showsRest answer
  | _ => false

def isCallers : Deed → Bool
  | begin _ | send _ | refused | hear _ | lose | wake | expire | .result _ _ | release => true
  | _ => false

end Deed

section Deeds

variable {C : Clock} {number limit : Nat} {x : Nat × Deed} {deeds : List (Nat × Deed)}

/-- The order for rest with the given number has been carried out. -/
def Obeyed (number : Nat) (deeds : List (Nat × Deed)) : Prop :=
  ∃ time deadline m,
    (time, .finish (.order ⟨number, .aim .ready⟩ deadline) m none) ∈ deeds ∧ m.goal = .ready

/-- Behind the order for rest with the given number, and before a time limit struck, the loop has
shown the session at rest. -/
def RestShown (C : Clock) (number limit : Nat) (deeds : List (Nat × Deed)) : Prop :=
  ∃ before time l deadline m after,
    deeds = before ++ (time, .finish (.order l deadline) m (some (.ok (.view m.view)))) :: after ∧
      l.order = .ask .view ∧ m.stage = .ready ∧ Obeyed number before ∧
      (∀ y ∈ before, y.2 ≠ .expire) ∧ (C.Punctual → time ≤ limit)

/-- The time limit has struck before the loop has shown the session at rest. -/
def TimedOut (limit : Nat) (deeds : List (Nat × Deed)) : Prop :=
  ∃ before time after,
    deeds = before ++ (time, .expire) :: after ∧ limit ≤ time ∧
      ∀ y ∈ before, y.2.showsRest = false

/-- The loop has shown no rest and no time limit has struck. -/
def Restless (deeds : List (Nat × Deed)) : Prop :=
  ∀ y ∈ deeds, y.2.showsRest = false ∧ y.2 ≠ .expire

theorem Obeyed.snoc (h : Obeyed number deeds) (x : Nat × Deed) : Obeyed number (deeds ++ [x]) := by
  obtain ⟨time, deadline, m, hmem, hgoal⟩ := h
  exact ⟨time, deadline, m, List.mem_append_left _ hmem, hgoal⟩

theorem RestShown.snoc (h : RestShown C number limit deeds) (x : Nat × Deed) :
    RestShown C number limit (deeds ++ [x]) := by
  obtain ⟨before, time, l, deadline, m, after, rfl, hrest⟩ := h
  exact ⟨before, time, l, deadline, m, after ++ [x], by simp, hrest⟩

theorem TimedOut.snoc (h : TimedOut limit deeds) (x : Nat × Deed) :
    TimedOut limit (deeds ++ [x]) := by
  obtain ⟨before, time, after, rfl, hout⟩ := h
  exact ⟨before, time, after ++ [x], by simp, hout⟩

theorem Restless.snoc (h : Restless deeds) (hrest : x.2.showsRest = false)
    (hexpire : x.2 ≠ .expire) : Restless (deeds ++ [x]) := by
  intro y hy
  rcases List.mem_append.mp hy with hy | hy
  · exact h y hy
  · obtain rfl := List.mem_singleton.mp hy
    exact ⟨hrest, hexpire⟩

theorem Restless.restShown (h : Restless deeds) {time deadline : Nat} {l : Letter} {m : Machine}
    (hl : l.order = .ask .view) (hrest : m.stage = .ready) (hobeyed : Obeyed number deeds)
    (htime : C.Punctual → time ≤ limit) :
    RestShown C number limit
      (deeds ++ [(time, .finish (.order l deadline) m (some (.ok (.view m.view))))]) :=
  ⟨deeds, time, l, deadline, m, [], rfl, hl, hrest, hobeyed, fun y hy => (h y hy).2, htime⟩

theorem Restless.timedOut (h : Restless deeds) {time : Nat} (htime : limit ≤ time) :
    TimedOut limit (deeds ++ [(time, .expire)]) :=
  ⟨deeds, time, [], rfl, htime, fun y hy => (h y hy).1⟩

/-- What a call to retire comes to. -/
def ComesTo (C : Clock) (millis number limit : Nat) (deeds : List (Nat × Deed))
    (result : Except Fault Told) : Prop :=
  result = .ok .nothing ∧ RestShown C number limit deeds ∨
    result = .error (.restTimeout (.ofMillis millis)) ∧ TimedOut limit deeds

theorem ComesTo.snoc {millis : Nat} {result : Except Fault Told}
    (h : ComesTo C millis number limit deeds result) (x : Nat × Deed) :
    ComesTo C millis number limit (deeds ++ [x]) result := by
  rcases h with ⟨rfl, hshown⟩ | ⟨rfl, hout⟩
  · exact .inl ⟨rfl, hshown.snoc x⟩
  · exact .inr ⟨rfl, hout.snoc x⟩

theorem ComesTo.ends {millis : Nat} {result : Except Fault Told}
    (h : ComesTo C millis number limit deeds result) : (Call.retire millis).Ends result := by
  rcases h with ⟨rfl, -⟩ | ⟨rfl, -⟩
  · exact .inl rfl
  · exact .inr rfl

theorem TimedOut.not_restShown (h : TimedOut limit deeds) : ¬ RestShown C number limit deeds := by
  rintro ⟨first, time, l, deadline, m, after, hdeeds, -, hstage, -, hfirst, -⟩
  obtain ⟨before, time', after', rfl, -, hbefore⟩ := h
  have hshows : (Deed.finish (.order l deadline) m (some (.ok (.view m.view)))).showsRest = true :=
    beq_iff_eq.mpr hstage
  rcases List.append_eq_append_iff.mp hdeeds with ⟨c, rfl, hc⟩ | ⟨c, rfl, hc⟩
  · cases c with
    | nil =>
      cases (Prod.mk.inj (List.cons.inj hc).1).2
    | cons y c =>
      obtain ⟨rfl, -⟩ := List.cons.inj hc
      exact hfirst _ (List.mem_append_right _ List.mem_cons_self) rfl
  · cases c with
    | nil =>
      cases (Prod.mk.inj (List.cons.inj hc).1).2
    | cons y c =>
      obtain ⟨rfl, -⟩ := List.cons.inj hc
      rw [hbefore _ (List.mem_append_right _ List.mem_cons_self)] at hshows
      cases hshows

end Deeds

namespace System

variable {rt : Runtime} {s t : System rt} {now later millis limit number : Nat} {d : Deed}
  {result : Except Fault Told} {mid deeds : List (Nat × Deed)}

/-- The call has sent its order for rest under the given number, and `deeds` have followed. -/
structure Seeks (s : System rt) (millis limit number : Nat) (mid deeds : List (Nat × Deed)) :
    Prop where
  sent : ∃ before time, mid = before ++ (time, .send ⟨number, .aim .ready⟩) :: deeds ∧
    (∀ x ∈ before, x.2.isCallers = false) ∧ limit = time + millis
  order : ⟨number, .aim .ready⟩ ∈ s.letters ∨ Obeyed number deeds

/-- What the deeds of a call to retire come to. -/
def Concludes (C : Clock) (millis : Nat) (mid : List (Nat × Deed)) (result : Except Fault Told) :
    Prop :=
  ∃ before time number deeds,
    mid = before ++ (time, .send ⟨number, .aim .ready⟩) :: deeds ∧
      (∀ x ∈ before, x.2.isCallers = false) ∧ Obeyed number deeds ∧
      ComesTo C millis number (time + millis) deeds result

/-- How far a call to retire has come with the deeds `mid`. -/
inductive Retires (millis now : Nat) (mid : List (Nat × Deed)) (s : System rt) : Prop
  | aim (h : s.caller = .away (.retire millis .aim)) (run : s.loop ≠ .stopped)
      (unsent : ∀ x ∈ mid, x.2.isCallers = false)
  | look {limit number : Nat} {deeds : List (Nat × Deed)}
      (h : s.caller = .away (.retire millis (.look limit)) ∨
        ∃ moment, s.caller = .away (.retire millis (.pause limit moment)))
      (seeks : s.Seeks millis limit number mid deeds) (onTime : rt.clock.Punctual → now ≤ limit)
      (restless : Restless deeds)
  | hear {limit number : Nat} {deeds : List (Nat × Deed)}
      (h : s.caller = .away (.retire millis (.hear limit)))
      (seeks : s.Seeks millis limit number mid deeds) (onTime : rt.clock.Punctual → now ≤ limit)
      (heard : s.reply = rt.reply.fresh ∧ Restless deeds ∨
        ∃ answer, s.reply = rt.reply.fill rt.reply.fresh answer ∧
          (showsRest answer = true → RestShown rt.clock number limit deeds) ∧
          (showsRest answer = false → Restless deeds))
  | part {limit number : Nat} {deeds : List (Nat × Deed)} {result : Except Fault Told}
      (h : s.caller = .away (.retire millis (.halt result)) ∨
        s.caller = .away (.retire millis (.part result)) ∨ s.caller = .back (.retire millis) result)
      (seeks : s.Seeks millis limit number mid deeds)
      (comesTo : ComesTo rt.clock millis number limit deeds result)

theorem LoopStep.isCallers (h : LoopStep now s d t) : d.isCallers = false := by cases h <;> rfl

theorem LoopStep.caller (h : LoopStep now s d t) : t.caller = s.caller := by
  cases h with
  | @finish job m answer h =>
    cases job with
    | order l deadline =>
      rcases finish_order_eq_or s now m answer l deadline with heq | heq <;> rw [heq] <;>
        exact respond_caller s l answer
    | _ => rfl
  | _ => rfl

/-- A loop whose caller does not wait to be told that it has stopped, and has not gone, finishes a
letter with its answer or does nothing between it and the caller. -/
theorem LoopStep.steady_or_finish (hrt : rt.Lawful) (hs : s.Sound) (hsettling : s.Settling)
    (h : LoopStep now s d t) (hawaits : s.caller.awaits? ≠ some .halt) (hidle : s.caller ≠ .idle) :
    Steady s t ∧ d.showsRest = false ∨
      ∃ l deadline m answer, s.letters = l :: rt.orders.entries s.orders ∧
        l.order.Settles (m, answer) ∧ d = .finish (.order l deadline) m answer ∧
        t = { s.respond l answer with loop := .waiting m deadline } := by
  rcases h.steady_or hrt with ⟨hsteady, hother⟩ | ⟨l, deadline, m, answer, hloop, rfl, rfl⟩ |
    ⟨hreleased, -, -, -⟩
  · refine .inl ⟨hsteady, ?_⟩
    cases h with
    | @finish job m answer h =>
      have hsettles := hsettling.finished h
      cases job with
      | order l deadline => exact absurd rfl (hother l deadline m answer)
      | _ =>
        obtain rfl : answer = none := hsettles
        rfl
    | _ => rfl
  · have hletters := letters_of_letter? (s := s) (l := l) (by rw [hloop]; rfl)
    have hhalt : l.order ≠ .ask .halt := by
      intro hhalt
      rcases hs.asked l (by rw [hletters]; exact List.mem_cons_self) .halt hhalt with
        ⟨hasked, -⟩ | ⟨hview, -⟩
      · exact hawaits hasked
      · cases hview
    refine .inr ⟨l, deadline, m, answer, hletters, hsettling.finished hloop, rfl, ?_⟩
    simp only [System.finish, if_neg hhalt]
  · exact absurd (hs.released hreleased) hidle

theorem answer_of_no_question {l : Letter} {m : Machine} {answer : Option (Except Fault Told)}
    (hsettles : l.order.Settles (m, answer)) (hnone : ∀ q, l.order ≠ .ask q) : answer = none := by
  obtain ⟨number, order⟩ := l
  cases order with
  | aim g => exact hsettles.2
  | prefer name => exact hsettles
  | ask q => exact absurd rfl (hnone q)

theorem Seeks.snoc (h : s.Seeks millis limit number mid deeds)
    (horder : ⟨number, .aim .ready⟩ ∈ t.letters ∨ Obeyed number (deeds ++ [(now, d)])) :
    t.Seeks millis limit number (mid ++ [(now, d)]) (deeds ++ [(now, d)]) := by
  obtain ⟨before, time, rfl, hbefore, hlimit⟩ := h.sent
  exact ⟨⟨before, time, by simp, hbefore, hlimit⟩, horder⟩

theorem Seeks.keep (h : s.Seeks millis limit number mid deeds)
    (hletters : ∀ l ∈ s.letters, l ∈ t.letters) (now : Nat) (d : Deed) :
    t.Seeks millis limit number (mid ++ [(now, d)]) (deeds ++ [(now, d)]) := by
  refine h.snoc ?_
  rcases h.order with hmem | hobeyed
  · exact .inl (hletters _ hmem)
  · exact .inr (hobeyed.snoc _)

theorem Seeks.loopStep (hrt : rt.Lawful) (hs : s.Sound) (hsettling : s.Settling)
    (hseeks : s.Seeks millis limit number mid deeds) (h : LoopStep now s d t) :
    t.Seeks millis limit number (mid ++ [(now, d)]) (deeds ++ [(now, d)]) := by
  refine hseeks.snoc ?_
  rcases hseeks.order with hmem | hobeyed
  · rcases h.steady_or hrt with ⟨hsteady, -⟩ | ⟨l, deadline, m, answer, hloop, rfl, rfl⟩ |
      ⟨-, hnone, -, -⟩
    · exact .inl (hsteady.letters ▸ hmem)
    · have hletter : s.loop.letter? = some l := by rw [hloop]; rfl
      have hsettles := hsettling.finished hloop
      by_cases hhalt : l.order = .ask .halt
      · rw [(hs.last_of_halt hletter hhalt).1] at hmem
        obtain rfl := List.mem_singleton.mp hmem
        cases hhalt
      · simp only [System.finish, if_neg hhalt]
        rw [letters_of_letter? hletter, List.mem_cons] at hmem
        rcases hmem with rfl | hmem
        · obtain ⟨hgoal, rfl⟩ := hsettles
          exact .inr ⟨now, deadline, m, List.mem_append_right _ List.mem_cons_self, hgoal⟩
        · left
          simpa [letters, Loop.letter?, Loop.job?] using hmem
    · rw [hnone] at hmem
      cases hmem
  · exact .inr (hobeyed.snoc _)

theorem unsent_snoc (h : ∀ x ∈ mid, x.2.isCallers = false) (hd : d.isCallers = false) :
    ∀ x ∈ mid ++ [(now, d)], x.2.isCallers = false := by
  intro x hx
  rcases List.mem_append.mp hx with hx | hx
  · exact h x hx
  · obtain rfl := List.mem_singleton.mp hx
    exact hd

theorem ne_expire_of_isCallers (h : d.isCallers = false) : d ≠ .expire := by
  rintro rfl
  cases h

theorem Retires.frame (h : s.Retires millis now mid) (hcaller : t.caller = s.caller)
    (hletters : t.letters = s.letters) (hreply : t.reply = s.reply)
    (hrun : s.loop ≠ .stopped → t.loop ≠ .stopped) (hd : d.isCallers = false)
    (hrest : d.showsRest = false) : t.Retires millis now (mid ++ [(now, d)]) := by
  have hkept : ∀ l ∈ s.letters, l ∈ t.letters := fun l hl => hletters ▸ hl
  cases h with
  | aim h run unsent => exact .aim (hcaller.trans h) (hrun run) (unsent_snoc unsent hd)
  | look h seeks onTime restless =>
    refine .look (by rw [hcaller]; exact h) (seeks.keep hkept now d) onTime ?_
    exact restless.snoc hrest (ne_expire_of_isCallers hd)
  | hear h seeks onTime heard =>
    refine .hear (hcaller.trans h) (seeks.keep hkept now d) onTime ?_
    rw [hreply]
    rcases heard with ⟨hfresh, restless⟩ | ⟨answer, hfilled, hshown, hrestless⟩
    · exact .inl ⟨hfresh, restless.snoc hrest (ne_expire_of_isCallers hd)⟩
    · exact .inr ⟨answer, hfilled, fun h => (hshown h).snoc _,
        fun h => (hrestless h).snoc hrest (ne_expire_of_isCallers hd)⟩
  | part h seeks comesTo =>
    exact .part (by rw [hcaller]; exact h) (seeks.keep hkept now d) (comesTo.snoc _)

/-- A look is answered behind the order for rest. -/
theorem obeyed_of_look (hs : s.Sound) {l : Letter} {q : Question}
    (hletters : s.letters = l :: rt.orders.entries s.orders) (hl : l.order = .ask q)
    (hnumber : l.number = s.number)
    (horder : ⟨number, .aim .ready⟩ ∈ s.letters ∨ Obeyed number deeds) : Obeyed number deeds := by
  rcases horder with hmem | hobeyed
  · have hle := hs.numbered _ hmem
    have hordered := hs.ordered
    rw [hletters, List.mem_cons] at hmem
    rw [hletters, List.pairwise_cons] at hordered
    rcases hmem with rfl | hmem
    · cases hl
    · have hlt := hordered.1 _ hmem
      dsimp only at hle hlt
      omega
  · exact hobeyed

theorem Retires.finish_hear (hrt : rt.Lawful) (hs : s.Sound) {l : Letter} {deadline : Nat}
    {m : Machine} {answer : Option (Except Fault Told)}
    (hcaller : s.caller = .away (.retire millis (.hear limit)))
    (horder : ⟨number, .aim .ready⟩ ∈ s.letters ∨ Obeyed number deeds)
    (seeks : Seeks { s.respond l answer with loop := .waiting m deadline } millis limit number
      (mid ++ [(now, .finish (.order l deadline) m answer)])
      (deeds ++ [(now, .finish (.order l deadline) m answer)]))
    (onTime : rt.clock.Punctual → now ≤ limit)
    (heard : s.reply = rt.reply.fresh ∧ Restless deeds ∨
      ∃ told, s.reply = rt.reply.fill rt.reply.fresh told ∧
        (showsRest told = true → RestShown rt.clock number limit deeds) ∧
        (showsRest told = false → Restless deeds))
    (hletters : s.letters = l :: rt.orders.entries s.orders)
    (hsettles : l.order.Settles (m, answer)) :
    Retires millis now (mid ++ [(now, .finish (.order l deadline) m answer)])
      { s.respond l answer with loop := .waiting m deadline } := by
  have hmem : l ∈ s.letters := by rw [hletters]; exact List.mem_cons_self
  refine .hear ((respond_caller s l answer).trans hcaller) seeks onTime ?_
  rcases heard with ⟨hfresh, restless⟩ | ⟨told, hfilled, hshown, hrestless⟩
  · by_cases hquestion : ∃ q, l.order = .ask q
    · obtain ⟨q, hq⟩ := hquestion
      have hview : q = .view ∧ l.number = s.number := by
        rcases hs.asked l hmem q hq with ⟨hasked, hnumber⟩ | ⟨-, hparting⟩
        · rw [hcaller] at hasked
          exact ⟨(Option.some.inj hasked).symm, hnumber⟩
        · rw [hcaller] at hparting
          cases hparting
      obtain ⟨rfl, hnumber⟩ := hview
      have hobeyed := obeyed_of_look hs hletters hq hnumber horder
      rw [hq] at hsettles
      obtain rfl : answer = some (.ok (.view m.view)) := hsettles
      refine .inr ⟨.ok (.view m.view), ?_, fun hrest => ?_, fun hrest => ?_⟩
      · change (s.respond l _).reply = _
        rw [reply_respond_of_eq hnumber, hfresh]
      · exact restless.restShown hq (beq_iff_eq.mp hrest) hobeyed onTime
      · exact restless.snoc hrest nofun
    · have hnone : ∀ q, l.order ≠ .ask q := fun q hq => hquestion ⟨q, hq⟩
      obtain rfl := answer_of_no_question hsettles hnone
      exact .inl ⟨hfresh, restless.snoc rfl nofun⟩
  · have hyields : rt.reply.Yields s.reply told := by
      rw [hfilled]
      exact hrt.reply.yields_fill_iff.mpr rfl
    have hnone := hs.no_question_of_yields hrt (by rw [hcaller]; rfl) hyields l hmem
    obtain rfl := answer_of_no_question hsettles hnone
    exact .inr ⟨told, hfilled, fun h => (hshown h).snoc _, fun h => (hrestless h).snoc rfl nofun⟩

theorem Retires.loopStep (hrt : rt.Lawful) (hs : s.Sound) (hsettling : s.Settling)
    (hr : s.Retires millis now mid) (h : LoopStep now s d t) :
    t.Retires millis now (mid ++ [(now, d)]) := by
  have hd := h.isCallers
  cases hr with
  | part hcaller seeks comesTo =>
    exact .part (by rw [h.caller]; exact hcaller) (seeks.loopStep hrt hs hsettling h)
      (comesTo.snoc _)
  | aim hcaller run unsent =>
    rcases h.steady_or_finish hrt hs hsettling (by rw [hcaller]; nofun) (by rw [hcaller]; nofun) with
      ⟨hsteady, -⟩ | ⟨l, deadline, m, answer, -, -, -, rfl⟩
    · exact .aim (hsteady.caller.trans hcaller) hsteady.running.2 (unsent_snoc unsent hd)
    · exact .aim ((respond_caller s l answer).trans hcaller) nofun (unsent_snoc unsent hd)
  | look hcaller seeks onTime restless =>
    have hcalm : s.caller.awaits? = none ∧ s.caller.isParting = false ∧ s.caller ≠ .idle := by
      rcases hcaller with hcaller | ⟨moment, hcaller⟩ <;> rw [hcaller] <;> exact ⟨rfl, rfl, nofun⟩
    obtain ⟨hawaits, hpart, hidle⟩ := hcalm
    refine .look (by rw [h.caller]; exact hcaller) (seeks.loopStep hrt hs hsettling h) onTime ?_
    rcases h.steady_or_finish hrt hs hsettling (by rw [hawaits]; nofun) hidle with
      ⟨-, hrest⟩ | ⟨l, deadline, m, answer, hletters, hsettles, rfl, -⟩
    · exact restless.snoc hrest (ne_expire_of_isCallers hd)
    · have hnone := hs.no_question hawaits hpart l (by rw [hletters]; exact List.mem_cons_self)
      obtain rfl := answer_of_no_question hsettles hnone
      exact restless.snoc rfl nofun
  | hear hcaller seeks onTime heard =>
    have hseeks := seeks.loopStep hrt hs hsettling h
    rcases h.steady_or_finish hrt hs hsettling (by rw [hcaller]; nofun) (by rw [hcaller]; nofun) with
      ⟨hsteady, hrest⟩ | ⟨l, deadline, m, answer, hletters, hsettles, rfl, rfl⟩
    · exact (Retires.hear hcaller seeks onTime heard).frame hsteady.caller hsteady.letters
        hsteady.reply (fun _ => hsteady.running.2) hd hrest
    · exact .finish_hear hrt hs hcaller seeks.order hseeks onTime heard hletters hsettles

theorem Seeks.send (h : s.Seeks millis limit number mid deeds) {l : Letter}
    (hletters : t.letters = s.letters ++ [l]) :
    t.Seeks millis limit number (mid ++ [(now, .send l)]) (deeds ++ [(now, .send l)]) := by
  refine h.keep (fun l' hl' => ?_) now (.send l)
  rw [hletters]
  exact List.mem_append_left _ hl'

theorem Seeks.goesOn (h : s.Seeks millis limit number mid deeds) {c : Caller} (d : Deed) :
    Seeks { s with caller := c } millis limit number (mid ++ [(now, d)])
      (deeds ++ [(now, d)]) :=
  h.keep (t := { s with caller := c }) (fun _ hl => hl) now d

theorem not_refuses (hrt : rt.Lawful) (hs : s.Sound) (hrun : s.loop ≠ .stopped) :
    ¬ rt.orders.Refuses s.orders := fun gone =>
  hrt.orders.refuses_iff.mp gone (hs.opened hrun).1

theorem letters_send (hrt : rt.Lawful) {l : Letter} {q : rt.orders.State}
    (put : rt.orders.Puts s.orders l q) :
    s.loop.letter?.toList ++ rt.orders.entries q = s.letters ++ [l] := by
  rw [(hrt.orders.of_puts put).2.2.1, letters, List.append_assoc]

theorem Retires.expire (hrt : rt.Lawful) (hr : s.Retires millis now mid) {e : Errand}
    {after : Caller} (h : s.caller = .away e) (limited : e.limit? = some (limit, after))
    (expires : rt.clock.Expires (s.IsOver now (e.wait s.lookPause)) now limit) :
    Retires millis now (mid ++ [(now, .expire)]) { s with caller := after } := by
  obtain ⟨hover, hdue⟩ := hrt.clock.expires_iff.mp expires
  have hlate := hrt.clock.le_of_isDue hdue
  obtain ⟨millis', leg, rfl, hleg, rfl⟩ := Errand.retire_of_limit? limited
  cases hr with
  | aim hcaller =>
    obtain ⟨rfl, rfl⟩ := Errand.retire.inj (Caller.away.inj (h.symm.trans hcaller))
    simp at hleg
  | @look limit' number deeds hcaller seeks onTime restless =>
    have hsame : millis' = millis ∧ limit = limit' := by
      rcases hcaller with hcaller | ⟨moment, hcaller⟩ <;>
        obtain ⟨rfl, rfl⟩ := Errand.retire.inj (Caller.away.inj (h.symm.trans hcaller)) <;>
        simpa [eq_comm] using hleg
    obtain ⟨rfl, rfl⟩ := hsame
    exact .part (.inl rfl) (seeks.goesOn _) (.inr ⟨rfl, restless.timedOut hlate⟩)
  | @hear limit' number deeds hcaller seeks onTime heard =>
    obtain ⟨rfl, rfl⟩ := Errand.retire.inj (Caller.away.inj (h.symm.trans hcaller))
    obtain rfl : limit = limit' := by simpa [eq_comm] using hleg
    rcases heard with ⟨-, restless⟩ | ⟨told, hfilled, -, -⟩
    · exact .part (.inl rfl) (seeks.goesOn _) (.inr ⟨rfl, restless.timedOut hlate⟩)
    · refine absurd (.inl ⟨told, ?_⟩) hover
      rw [hfilled]
      exact hrt.reply.yields_fill_iff.mpr rfl
  | part hcaller =>
    rcases hcaller with hcaller | hcaller | hcaller
    · obtain ⟨rfl, rfl⟩ := Errand.retire.inj (Caller.away.inj (h.symm.trans hcaller))
      simp at hleg
    · obtain ⟨rfl, rfl⟩ := Errand.retire.inj (Caller.away.inj (h.symm.trans hcaller))
      simp at hleg
    · rw [h] at hcaller
      cases hcaller

section Errands

variable {e : Errand} {o : Order} {sent : Nat → Caller} {refused lost woken : Caller}
  {heard : Nat → Except Fault Told → Caller} {moment : Nat}

theorem Retires.ne_idle (hr : s.Retires millis now mid) : s.caller ≠ .idle := by
  cases hr with
  | aim h => simp [h]
  | look h => rcases h with h | ⟨moment, h⟩ <;> simp [h]
  | hear h => simp [h]
  | part h => rcases h with h | h | h <;> simp [h]

theorem Retires.send (hrt : rt.Lawful) (hr : s.Retires millis now mid) {q : rt.orders.State}
    (h : s.caller = .away e) (wait : e.wait s.lookPause = .send o sent refused)
    (put : rt.orders.Puts s.orders ⟨s.number + 1, o⟩ q) :
    Retires millis now (mid ++ [(now, .send ⟨s.number + 1, o⟩)])
      { s with orders := q, number := s.number + 1, reply := rt.reply.fresh, caller := sent now } := by
  have hletters := letters_send hrt put
  cases hr with
  | aim hcaller run unsent =>
    obtain rfl := Caller.away.inj (h.symm.trans hcaller)
    cases wait
    refine .look (.inl rfl) ⟨⟨mid, now, rfl, unsent, rfl⟩, .inl ?_⟩
      (fun _ => Nat.le_add_right _ _) (fun _ hy => nomatch hy)
    change _ ∈ s.loop.letter?.toList ++ rt.orders.entries q
    rw [hletters]
    exact List.mem_append_right _ List.mem_cons_self
  | look hcaller seeks onTime restless =>
    rcases hcaller with hcaller | ⟨moment, hcaller⟩
    · obtain rfl := Caller.away.inj (h.symm.trans hcaller)
      cases wait
      exact .hear rfl (seeks.send hletters) onTime (.inl ⟨rfl, restless.snoc rfl nofun⟩)
    · obtain rfl := Caller.away.inj (h.symm.trans hcaller)
      cases wait
  | hear hcaller =>
    obtain rfl := Caller.away.inj (h.symm.trans hcaller)
    cases wait
  | part hcaller seeks comesTo =>
    rcases hcaller with hcaller | hcaller | hcaller
    · obtain rfl := Caller.away.inj (h.symm.trans hcaller)
      cases wait
      exact .part (.inr (.inl rfl)) (seeks.send hletters) (comesTo.snoc _)
    · obtain rfl := Caller.away.inj (h.symm.trans hcaller)
      cases wait
    · rw [h] at hcaller
      cases hcaller

theorem Retires.run_of_send (hs : s.Sound) (hr : s.Retires millis now mid) (h : s.caller = .away e)
    (wait : e.wait s.lookPause = .send o sent refused) : s.loop ≠ .stopped := by
  have hawaits : s.caller.awaits? ≠ some .halt := by
    rw [h, Errand.awaits?_of_send wait]
    nofun
  cases hr with
  | aim hcaller run unsent => exact run
  | look hcaller =>
    refine hs.running h hawaits fun call => ?_
    rcases hcaller with hcaller | ⟨moment, hcaller⟩ <;>
      obtain rfl := Caller.away.inj (h.symm.trans hcaller) <;> cases call <;> nofun
  | hear hcaller =>
    obtain rfl := Caller.away.inj (h.symm.trans hcaller)
    cases wait
  | part hcaller =>
    refine hs.running h hawaits fun call => ?_
    rcases hcaller with hcaller | hcaller | hcaller
    · obtain rfl := Caller.away.inj (h.symm.trans hcaller)
      cases call <;> nofun
    · obtain rfl := Caller.away.inj (h.symm.trans hcaller)
      cases wait
    · rw [h] at hcaller
      cases hcaller

theorem Retires.hearAnswer (hrt : rt.Lawful) (hr : s.Retires millis now mid)
    {answer : Except Fault Told} (h : s.caller = .away e)
    (wait : e.wait s.lookPause = .answer heard lost) (yields : rt.reply.Yields s.reply answer) :
    Retires millis now (mid ++ [(now, .hear answer)]) { s with caller := heard now answer } := by
  cases hr with
  | aim hcaller =>
    obtain rfl := Caller.away.inj (h.symm.trans hcaller)
    cases wait
  | look hcaller =>
    rcases hcaller with hcaller | ⟨moment, hcaller⟩ <;>
      obtain rfl := Caller.away.inj (h.symm.trans hcaller) <;> cases wait
  | @hear limit number deeds hcaller seeks onTime waited =>
    obtain rfl := Caller.away.inj (h.symm.trans hcaller)
    cases wait
    rcases waited with ⟨hfresh, -⟩ | ⟨told, hfilled, hshown, hrestless⟩
    · rw [hfresh] at yields
      exact absurd yields (hrt.reply.not_yields_fresh answer)
    · rw [hfilled] at yields
      obtain rfl := hrt.reply.yields_fill_iff.mp yields
      cases hrest : showsRest answer with
      | true =>
        refine .part (.inl ?_) (seeks.goesOn _) (.inl ⟨rfl, (hshown hrest).snoc _⟩)
        simp only [hrest, ↓reduceIte]
      | false =>
        refine .look (.inr ⟨now + s.lookPause, ?_⟩) (seeks.goesOn _) onTime
          ((hrestless hrest).snoc rfl nofun)
        simp only [hrest, Bool.false_eq_true, ↓reduceIte]
  | part hcaller seeks comesTo =>
    rcases hcaller with hcaller | hcaller | hcaller
    · obtain rfl := Caller.away.inj (h.symm.trans hcaller)
      cases wait
    · obtain rfl := Caller.away.inj (h.symm.trans hcaller)
      cases wait
      exact .part (.inr (.inr rfl)) (seeks.goesOn _) (comesTo.snoc _)
    · rw [h] at hcaller
      cases hcaller

theorem Retires.wake (hr : s.Retires millis now mid) (h : s.caller = .away e)
    (wait : e.wait s.lookPause = .sleep moment woken) :
    Retires millis now (mid ++ [(now, .wake)]) { s with caller := woken } := by
  obtain ⟨millis', limit, rfl, rfl⟩ := Errand.pause_of_sleep wait
  cases hr with
  | look hcaller seeks onTime restless =>
    rcases hcaller with hcaller | ⟨moment, hcaller⟩
    · rw [h] at hcaller
      cases hcaller
    · rw [h] at hcaller
      cases hcaller
      exact .look (.inl rfl) (seeks.goesOn _) onTime (restless.snoc rfl nofun)
  | part hcaller =>
    rcases hcaller with hcaller | hcaller | hcaller <;> rw [h] at hcaller <;> cases hcaller
  | _ hcaller =>
    rw [h] at hcaller
    cases hcaller

end Errands

theorem Retires.step (hrt : rt.Lawful) (hs : s.Sound) (hsettling : s.Settling)
    (hr : s.Retires millis now mid) (h : s.Step now d t) (hd : d.isResult = false) :
    t.Retires millis now (mid ++ [(now, d)]) := by
  cases h with
  | loop h => exact hr.loopStep hrt hs hsettling h
  | post => exact hr.frame rfl rfl rfl id rfl rfl
  | postRefused => exact hr.frame rfl rfl rfl id rfl rfl
  | caller h =>
    cases h with
    | begin h => exact absurd h hr.ne_idle
    | send h wait put => exact hr.send hrt h wait put
    | refused h wait gone => exact absurd gone (not_refuses hrt hs (hr.run_of_send hs h wait))
    | hear h wait yields => exact hr.hearAnswer hrt h wait yields
    | lose h wait fails =>
      obtain ⟨q, hq⟩ := Errand.exists_awaits?_of_answer wait
      exact absurd fails (hs.not_fails hrt (by rw [h, hq]))
    | wake h wait => exact hr.wake h wait
    | expire h limited expires => exact hr.expire hrt h limited expires
    | result => cases hd
    | release h => exact absurd h hr.ne_idle

/-- Time that goes by does not outrun the time limit, unless timers may be late. -/
theorem Retires.wait (hr : s.Retires millis now mid)
    (passes : rt.clock.Passes s.timers now later) : s.Retires millis later mid := by
  have hlater : ∀ {limit : Nat}, limit ∈ s.timers → (rt.clock.Punctual → now ≤ limit) →
      rt.clock.Punctual → later ≤ limit := fun hlimit onTime hpunctual =>
    hpunctual _ _ _ passes _ hlimit (onTime hpunctual)
  cases hr with
  | aim hcaller run unsent => exact .aim hcaller run unsent
  | look hcaller seeks onTime restless =>
    refine .look hcaller ⟨seeks.sent, seeks.order⟩ (hlater ?_ onTime) restless
    rcases hcaller with hcaller | ⟨moment, hcaller⟩ <;>
      simp [timers, hcaller, Errand.timers, Errand.limit?, Errand.wait]
  | hear hcaller seeks onTime heard =>
    refine .hear hcaller ⟨seeks.sent, seeks.order⟩ (hlater ?_ onTime) heard
    simp [timers, hcaller, Errand.timers, Errand.limit?, Errand.wait]
  | part hcaller seeks comesTo => exact .part hcaller ⟨seeks.sent, seeks.order⟩ comesTo

variable {begun : Nat} {history : List (Nat × Deed)}

theorem Retires.run (hrt : rt.Lawful) (hs : s.Sound) (hsettling : s.Settling)
    (hr : s.Retires millis begun mid) (run : s.Run begun history now t)
    (hhistory : ∀ x ∈ history, x.2.isResult = false) :
    t.Retires millis now (mid ++ history) := by
  induction run with
  | nil => simpa using hr
  | step prior last ih =>
    obtain ⟨hsound, hsettled⟩ := prior.sound hrt hs hsettling
    rw [← List.append_assoc]
    exact (ih fun x hx => hhistory x (List.mem_append_left _ hx)).step hrt hsound hsettled last
      (hhistory _ (List.mem_append_right _ List.mem_cons_self))
  | wait prior passes ih => exact (ih hhistory).wait passes

/-- What a call to retire of a session that has not ended comes to. -/
theorem concludes_of_run (hrt : rt.Lawful) {u : System rt} (hs : s.Sound) (hsettling : s.Settling)
    (hrun : s.loop ≠ .stopped) (hbegin : s.Step begun (.begin (.retire millis)) t)
    (run : t.Run begun history now u) (hhistory : ∀ x ∈ history, x.2.isResult = false)
    {v : System rt} {call : Call} (hresult : u.Step later (.result call result) v) :
    call = .retire millis ∧ Concludes rt.clock millis history result := by
  have hsound := hs.step hrt hsettling hbegin
  have hsettled := hsettling.step hbegin
  have hretires : t.Retires millis begun [] := by
    cases hbegin with
    | loop h => cases h
    | caller h =>
      cases h with
      | begin h => exact .aim rfl hrun (by simp)
  have hlast := hretires.run hrt hsound hsettled run hhistory
  have hended := (run.sound hrt hsound hsettled).1
  rw [List.nil_append] at hlast
  cases hresult with
  | loop h => cases h
  | caller h =>
    cases h with
    | result h =>
      cases hlast with
      | @part limit number deeds result' hcaller seeks comesTo =>
        have hback : call = .retire millis ∧ result = result' := by
          rcases hcaller with hcaller | hcaller | hcaller <;> rw [h] at hcaller <;> cases hcaller
          exact ⟨rfl, rfl⟩
        obtain ⟨rfl, rfl⟩ := hback
        obtain ⟨before, time, rfl, hbefore, rfl⟩ := seeks.sent
        have hobeyed : Obeyed number deeds := by
          refine seeks.order.resolve_left fun hmem => ?_
          rw [(hended.closed (hended.ended _ _ h comesTo.ends)).1] at hmem
          cases hmem
        exact ⟨rfl, before, time, number, deeds, rfl, hbefore, hobeyed, comesTo⟩
      | look hcaller => rcases hcaller with hcaller | ⟨moment, hcaller⟩ <;> simp [h] at hcaller
      | _ hcaller => simp [h] at hcaller

end System

end Wimax
