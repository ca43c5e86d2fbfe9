import Mathlib.Data.List.Chain
import Wimax.Proofs.CallTrace
import Wimax.Proofs.OpenDriver
import Wimax.Proofs.Visits

/-!
What stands behind an initialization that has ended. A visit to it executes its script from the
first command on, repeats a command or goes on to the next one, and goes back from the last probe to
the one before the network list. So behind the end of the script the last executions of its commands
are those of a run through it, in its order.
-/

namespace Wimax

/-- A command of the script that was executed: its place and the response. -/
structure Execution where
  place : Nat
  response : Response
  deriving DecidableEq, Repr

/-- The last execution at each place, in the order of the log. -/
def lastExecutions (log : List Execution) : List Execution :=
  log.pwFilter fun e f => e.place ≠ f.place

section LastExecutions

variable {log : List Execution} {e : Execution}

theorem mem_of_mem_lastExecutions (h : e ∈ lastExecutions log) : e ∈ log :=
  List.pwFilter_subset log h

theorem lastExecutions_cons (e : Execution) (log : List Execution) :
    lastExecutions (e :: log) =
      if ∀ f ∈ log, e.place ≠ f.place then e :: lastExecutions log else lastExecutions log := by
  have hagain : (∀ f ∈ lastExecutions log, e.place ≠ f.place) ↔ ∀ f ∈ log, e.place ≠ f.place := by
    apply List.forall_mem_pwFilter
    intro x y z hxz
    by_cases hxy : x.place = y.place
    · exact .inr fun hyz => hxz (hxy.trans hyz)
    · exact .inl hxy
  split
  · next h => exact List.pwFilter_cons_of_pos (hagain.mpr h)
  · next h => exact List.pwFilter_cons_of_neg (mt hagain.mp h)

theorem lastExecutions_snoc (log : List Execution) (e : Execution) :
    lastExecutions (log ++ [e]) = (lastExecutions log).filter (·.place ≠ e.place) ++ [e] := by
  induction log with
  | nil => rfl
  | cons f log ih =>
    rw [List.cons_append, lastExecutions_cons, lastExecutions_cons, ih]
    by_cases hlog : ∀ g ∈ log, f.place ≠ g.place
    · rw [if_pos hlog]
      by_cases he : f.place = e.place
      · rw [if_neg (fun h => h e (by simp) he), List.filter_cons_of_neg (by simpa using he)]
      · have hlast : ∀ g ∈ log ++ [e], f.place ≠ g.place := by
          intro g hg
          rcases List.mem_append.mp hg with hg | hg
          · exact hlog g hg
          · rwa [List.mem_singleton.mp hg]
        rw [if_pos hlast, List.filter_cons_of_pos (by simpa using he), List.cons_append]
    · rw [if_neg hlog, if_neg fun h => hlog fun g hg => h g (List.mem_append_left _ hg)]

/-- The last executions of the commands before a place. -/
def lastBefore (log : List Execution) (i : Nat) : List Execution :=
  (lastExecutions log).filter (·.place < i)

theorem lastBefore_snoc_of_le {i : Nat} (h : i ≤ e.place) :
    lastBefore (log ++ [e]) i = lastBefore log i := by
  have hlast : [e].filter (fun f => decide (f.place < i)) = [] :=
    List.filter_eq_nil_iff.mpr (by simpa using h)
  rw [lastBefore, lastExecutions_snoc, List.filter_append, List.filter_filter, hlast,
    List.append_nil]
  apply List.filter_congr
  intro f _
  rw [← Bool.decide_and, decide_eq_decide]
  omega

theorem lastBefore_snoc_succ :
    lastBefore (log ++ [e]) (e.place + 1) = lastBefore log e.place ++ [e] := by
  have hlast : [e].filter (fun f => decide (f.place < e.place + 1)) = [e] :=
    List.filter_eq_self.mpr (by simp)
  rw [lastBefore, lastExecutions_snoc, List.filter_append, List.filter_filter, hlast]
  congr 1
  apply List.filter_congr
  intro f _
  rw [← Bool.decide_and, decide_eq_decide]
  omega

theorem lastBefore_of_le {i j : Nat} (h : j ≤ i) :
    lastBefore log j = (lastBefore log i).filter (·.place < j) := by
  rw [lastBefore, lastBefore, List.filter_filter]
  apply List.filter_congr
  intro f _
  rw [← Bool.decide_and, decide_eq_decide]
  omega

theorem lastBefore_of_forall {i : Nat} (h : ∀ e ∈ log, e.place < i) :
    lastBefore log i = lastExecutions log :=
  List.filter_eq_self.mpr fun e he => by simpa using h e (mem_of_mem_lastExecutions he)

end LastExecutions

namespace Bringup

/-- Where the script may stand after an execution at a place. -/
def GoesOn (i j : Nat) : Prop := j = i ∨ j = i + 1 ∨ (i = 15 ∧ j = 13)

/-- The response lets the script pass the command at its place. -/
def Passed (e : Execution) : Prop := e.response = .success ∨ script[e.place]? = some .powerOn

/-- A log that can lead to a place of the script, which may be its end. -/
structure LeadsTo (log : List Execution) (i : Nat) : Prop where
  within : ∀ e ∈ log, e.place < script.length
  first : (log.map (·.place) ++ [i]).head? = some 0
  chain : (log.map (·.place) ++ [i]).IsChain GoesOn
  /-- The commands before the place were executed, for the last time in their order. -/
  order : (lastBefore log i).map (·.place) = List.range i
  passed : ∀ e ∈ lastBefore log i, Passed e

section LeadsTo

variable {log : List Execution} {e : Execution} {i j : Nat}

theorem leadsTo_nil : LeadsTo [] 0 where
  within := by simp
  first := rfl
  chain := .singleton 0
  order := rfl
  passed := by simp [lastBefore, lastExecutions]

theorem LeadsTo.snoc (h : LeadsTo log i) (he : e.place = i) (hi : i < script.length)
    (hj : GoesOn i j) (horder : (lastBefore (log ++ [e]) j).map (·.place) = List.range j)
    (hpassed : ∀ f ∈ lastBefore (log ++ [e]) j, Passed f) : LeadsTo (log ++ [e]) j where
  within := by
    intro f hf
    rcases List.mem_append.mp hf with hf | hf
    · exact h.within f hf
    · rw [List.mem_singleton.mp hf, he]
      exact hi
  first := by
    have hfirst := h.first
    rw [List.map_append, List.map_singleton, he, List.append_assoc]
    rw [List.head?_append] at hfirst ⊢
    simpa using hfirst
  chain := by
    rw [List.map_append, List.map_singleton, he]
    exact List.isChain_append.mpr ⟨h.chain, .singleton j, by simpa using hj⟩
  order := horder
  passed := hpassed

/-- Without a success, or after a busy probe, the script stands at its place or before it. -/
theorem LeadsTo.back (h : LeadsTo log i) (he : e.place = i) (hi : i < script.length)
    (hj : GoesOn i j) (hle : j ≤ i) : LeadsTo (log ++ [e]) j := by
  have hbefore : lastBefore (log ++ [e]) j = (lastBefore log i).filter (·.place < j) := by
    rw [lastBefore_snoc_of_le (by rwa [he]), lastBefore_of_le hle]
  refine h.snoc he hi hj ?_ ?_
  · have hmap : ((lastBefore log i).filter (·.place < j)).map (·.place) =
        ((lastBefore log i).map (·.place)).filter (· < j) := by
      rw [List.filter_map]
      rfl
    obtain ⟨k, rfl⟩ := Nat.exists_eq_add_of_le hle
    rw [hbefore, hmap, h.order, List.range_add, List.filter_append,
      List.filter_eq_self.mpr (by simp), List.filter_eq_nil_iff.mpr (by simp), List.append_nil]
  · intro f hf
    rw [hbefore] at hf
    exact h.passed f (List.mem_filter.mp hf).1

theorem LeadsTo.forward (h : LeadsTo log i) (he : e.place = i) (hi : i < script.length)
    (hp : Passed e) : LeadsTo (log ++ [e]) (i + 1) := by
  have hupto : lastBefore (log ++ [e]) (i + 1) = lastBefore log i ++ [e] := by
    rw [← he]
    exact lastBefore_snoc_succ
  refine h.snoc he hi (.inr (.inl rfl)) ?_ ?_
  · rw [hupto, List.map_append, h.order, List.map_singleton, he, List.range_succ]
  · intro f hf
    rw [hupto] at hf
    rcases List.mem_append.mp hf with hf | hf
    · exact h.passed f hf
    · rwa [List.mem_singleton.mp hf]

theorem LeadsTo.goesOn (h : LeadsTo (log ++ [e]) i) : GoesOn e.place i := by
  have hchain := h.chain
  rw [List.map_append, List.map_singleton, List.isChain_append] at hchain
  exact hchain.2.2 e.place (by simp) i (by simp)

theorem LeadsTo.places (h : LeadsTo log e.place) :
    ((log ++ [e]).map (·.place)).head? = some 0 ∧
      ((log ++ [e]).map (·.place)).IsChain GoesOn := by
  rw [List.map_append, List.map_singleton]
  exact ⟨h.first, h.chain⟩

/-- A log that leads to the end of the script is complete. -/
theorem LeadsTo.complete (h : LeadsTo log script.length) :
    (lastExecutions log).map (·.place) = List.range script.length ∧
      ∀ e ∈ lastExecutions log, Passed e := by
  rw [← lastBefore_of_forall h.within]
  exact ⟨h.order, h.passed⟩

end LeadsTo

section Step

variable {b : Bringup} {d : Driver} {c : Command} {budget : Nat} {acts : List Act}
  {s : Step Bringup} {log : List Execution}

theorem runs_afterResponse_success (h : (b.afterResponse d c budget .success).Runs acts s) :
    acts = [] ∧ s = b.afterSuccess d c budget := by
  simpa [afterResponse] using h

theorem leadsTo_step (hlog : LeadsTo log b.cursor.place) (h : (b.step d budget).Runs acts s) :
    ∃ c d₁ e first rest, e.place = b.cursor.place ∧ script[e.place]? = some c ∧
      acts = first ++ rest ∧ (d.attempt c .nothing).Runs first (d₁, e.response) ∧
      match s.verdict with
      | .underway | .scanning => LeadsTo (log ++ [e]) s.phase.cursor.place
      | .finished => LeadsTo (log ++ [e]) script.length
      | .failed => True := by
  obtain ⟨c, d₁, r, first, rest, hc, hacts, h₁, h₂⟩ := runs_step h
  have hi : b.cursor.place < script.length := (List.getElem?_eq_some_iff.mp hc).1
  obtain ⟨-, hadv⟩ := runs_afterResponse (b := { b with cursor := b.cursor.placed }) rfl hi h₂
  refine ⟨c, d₁, ⟨b.cursor.place, r⟩, first, rest, rfl, hc, hacts, h₁, ?_⟩
  have hpassed : r = .success ∧ Suffices b.cursor.place d₁ c ∨ c = .powerOn →
      Passed ⟨b.cursor.place, r⟩ := by
    rintro (⟨hr, -⟩ | rfl)
    · exact .inl hr
    · exact .inr hc
  have hgoes : ∀ j, j = b.cursor.place ∨ (b.cursor.place = 15 ∧ j = 13) ∨
      ((r = .success ∧ Suffices b.cursor.place d₁ c ∨ c = .powerOn) ∧ j = b.cursor.place + 1) →
      LeadsTo (log ++ [⟨b.cursor.place, r⟩]) j := by
    rintro j (rfl | ⟨hlast, rfl⟩ | ⟨hp, rfl⟩)
    · exact hlog.back rfl hi (.inl rfl) (Nat.le_refl _)
    · exact hlog.back rfl hi (.inr (.inr ⟨hlast, rfl⟩)) (by omega)
    · exact hlog.forward rfl hi (hpassed hp)
  unfold Advances at hadv
  cases hv : s.verdict with
  | underway =>
    simp only [hv] at hadv
    exact hgoes _ hadv
  | scanning =>
    simp only [hv] at hadv
    exact hgoes _ hadv
  | finished =>
    simp only [hv] at hadv
    rw [← hadv.2]
    exact hlog.forward rfl hi (hpassed hadv.1)
  | failed => trivial

/-- A command that is passed has succeeded with what suffices, unless it switches the power on. -/
theorem passed_step (h : (b.step d budget).Runs acts s)
    (hc : script[b.cursor.place]? = some c) (hne : c ≠ .powerOn)
    (hpass : s.verdict = .finished ∨
      s.verdict ≠ .failed ∧ s.phase.cursor.place = b.cursor.place + 1) :
    (d.attempt c .nothing).Runs acts (s.driver, .success) ∧
      Suffices b.cursor.place s.driver c := by
  obtain ⟨c', d₁, r, first, rest, hc', rfl, h₁, h₂⟩ := runs_step h
  obtain rfl : c = c' := Option.some.inj (hc.symm.trans hc')
  have hi : b.cursor.place < script.length := (List.getElem?_eq_some_iff.mp hc).1
  obtain ⟨-, hadv⟩ := runs_afterResponse (b := { b with cursor := b.cursor.placed }) rfl hi h₂
  have hp : r = .success ∧ Suffices b.cursor.place d₁ c := by
    refine Or.resolve_right ?_ hne
    unfold Advances at hadv
    cases hv : s.verdict with
    | finished =>
      simp only [hv] at hadv
      exact hadv.1
    | failed => simp [hv] at hpass
    | _ =>
      simp only [hv] at hadv hpass
      rcases hpass with hpass | ⟨-, hplace⟩
      · simp at hpass
      · rcases hadv with hadv | ⟨hlast, hadv⟩ | ⟨hadv, -⟩
        · omega
        · omega
        · exact hadv
  obtain ⟨rfl, hsuffices⟩ := hp
  obtain ⟨rfl, rfl⟩ := runs_afterResponse_success h₂
  rw [driver_afterSuccess, List.append_nil]
  exact ⟨h₁, hsuffices⟩

theorem networks_of_passed (hplace : b.cursor.place = 14) (h : (b.step d budget).Runs acts s)
    (hv : s.verdict ≠ .failed) (hnext : s.phase.cursor.place = 15) :
    calls acts = [(⟨.networkList, .nothing⟩,
      .reply ⟨.success, .networks s.driver.record.networks⟩)] ∧
      s.driver.record.networks ≠ [] := by
  have hc : script[b.cursor.place]? = some .networkList := by rw [hplace]; rfl
  obtain ⟨hattempt, hne⟩ :=
    passed_step h hc (by decide) (.inr ⟨hv, by rw [hnext, hplace]⟩)
  obtain ⟨o, rfl, hd, ho⟩ :=
    Driver.runs_attempt_of_alwaysAsks rfl (absurd · (by decide)) hattempt
  obtain ⟨reply, rfl⟩ := Outcome.exists_reply (o := o) (by simp [← ho])
  have hnetworks : s.driver.record.networks = reply.networks := by
    rw [hd]
    rfl
  have hlist : reply.networks ≠ [] := hnetworks ▸ hne
  refine ⟨?_, hne⟩
  rw [hnetworks, ← Reply.eq_of_networks_ne_nil hlist]
  rfl

theorem place_of_finished (h : (b.step d budget).Runs acts s) (hv : s.verdict = .finished) :
    b.cursor.place = 15 := by
  obtain ⟨c, d₁, r, first, rest, hc, -, -, h₂⟩ := runs_step h
  have hi : b.cursor.place < script.length := (List.getElem?_eq_some_iff.mp hc).1
  obtain ⟨-, hadv⟩ := runs_afterResponse (b := { b with cursor := b.cursor.placed }) rfl hi h₂
  simp only [Advances, hv] at hadv
  exact Nat.succ.inj hadv.2

theorem status_of_finished (hopen : d.record.apiOpen = true)
    (h : (b.step d budget).Runs acts s) (hv : s.verdict = .finished) :
    ∃ status phase, calls acts = [(⟨.deviceStatus, .nothing⟩,
        .reply ⟨.success, .radio status phase⟩)] ∧
      (status = .ready ∨ status = .uninitialized ∨ status = .dataConnected) := by
  have hplace := place_of_finished h hv
  have hc : script[b.cursor.place]? = some .deviceStatus := by rw [hplace]; rfl
  obtain ⟨hattempt, hsuffices⟩ := passed_step h hc (by decide) (.inl hv)
  rw [hplace] at hsuffices
  obtain ⟨status, hrecord, hstatus⟩ := hsuffices.resolve_right (by decide)
  obtain ⟨o, rfl, hd, ho⟩ := Driver.runs_attempt_of_alwaysAsks rfl (fun _ => hopen) hattempt
  obtain ⟨reply, rfl⟩ := Outcome.exists_reply (o := o) (by simp [← ho])
  have hreply : reply.successPayload.status? = some status := by
    rw [hd] at hrecord
    exact hrecord
  refine ⟨status, reply.successPayload.phase?, ?_, hstatus⟩
  rw [← Reply.eq_of_status? hreply]
  rfl

theorem afterStatus_of_isUnsettled {status : RadioStatus} (hb : b.cursor.position = some 15)
    (hs : d.record.status = some status) (hbusy : status.isUnsettled = true) :
    b.afterStatus d = { b with cursor := b.cursor.back 2 }.scan d := by
  have hbefore : b.cursor.before? = some .networkList := by rw [Cursor.before?, hb]; rfl
  unfold afterStatus
  cases status <;> simp [RadioStatus.isUnsettled] at hbusy <;>
    simp [hs, hbefore, RadioStatus.isUnsettled]

/-- A busy answer to the last probe sends the script back to the one before the network list. -/
theorem rewinds_step (hplace : b.cursor.place = 15) {status : RadioStatus}
    {phase : Option AttachPhase} (h : (b.step d budget).Runs acts s)
    (hcalls : calls acts = [(⟨.deviceStatus, .nothing⟩, .reply ⟨.success, .radio status phase⟩)])
    (hbusy : status.isUnsettled = true) :
    s.verdict = .scanning ∧ s.phase.cursor.place = 13 := by
  obtain ⟨c, d₁, r, first, rest, hc, rfl, h₁, h₂⟩ := runs_step h
  obtain rfl : Command.deviceStatus = c := by
    rw [hplace] at hc
    exact Option.some.inj hc
  rw [calls_append] at hcalls
  rcases Driver.runs_attempt h₁ with ⟨-, rfl⟩ | ⟨o, -, rfl, rfl, rfl⟩
  · have hro : ((⟨.deviceStatus, .nothing⟩, .reply ⟨.success, .radio status phase⟩) :
        Request × Outcome) ∈ calls rest := by
      rw [← List.nil_append (calls rest), ← calls_nil, hcalls]
      exact List.mem_singleton.mpr rfl
    rcases (callsOnly_afterResponse _ _ _ _ _).calls h₂ hro with hc' | hc' <;>
      exact absurd hc' (by decide)
  · obtain ⟨hcall, -⟩ := List.cons.inj hcalls
    obtain ⟨-, rfl⟩ := Prod.mk.inj hcall
    obtain ⟨-, rfl⟩ := runs_afterResponse_success h₂
    have hrewind := afterStatus_of_isUnsettled (b := { b with cursor := b.cursor.placed })
      (d := d.afterCall .deviceStatus (.reply ⟨.success, .radio status phase⟩))
      (by simp [hplace]) rfl hbusy
    rw [afterSuccess, hrewind]
    refine ⟨rfl, ?_⟩
    change (Cursor.back b.cursor.placed 2).place = 13
    rw [Cursor.back, Cursor.position_placed, hplace]
    exact Cursor.place_some (by decide)

theorem place_of_networkList {i : Nat} (hc : script[i]? = some .networkList) : i = 14 := by
  have hlt : i < 16 := (List.getElem?_eq_some_iff.mp hc).1
  have hplaces : ∀ i < 16, script[i]? = some .networkList → i = 14 := by decide
  exact hplaces i hlt hc

theorem ne_networkList_of_step (hplace : b.cursor.place ≠ 14) (h : (b.step d budget).Runs acts s)
    {r : Request} {o : Outcome} (hro : (r, o) ∈ calls acts) : r.command ≠ .networkList := by
  obtain ⟨c, d₁, response, first, rest, hc, rfl, h₁, h₂⟩ := runs_step h
  rw [calls_append, List.mem_append] at hro
  rcases hro with hro | hro
  · rw [(Driver.callsOnly_attempt _ _ _).calls h₁ hro]
    rintro rfl
    exact hplace (place_of_networkList hc)
  · rcases (callsOnly_afterResponse _ _ _ _ _).calls h₂ hro with hc' | hc' <;>
      rw [hc'] <;> decide

end Step

end Bringup

/-- The last network list asked for has brought networks, which are still the ones in sight. -/
def Listed (cs : List (Request × Outcome)) (networks : List Network) : Prop :=
  networks ≠ [] ∧ ∃ before after,
    cs = before ++ (⟨.networkList, .nothing⟩, .reply ⟨.success, .networks networks⟩) :: after ∧
      ∀ call ∈ after, call.1.command ≠ .networkList

theorem Listed.append {cs ds : List (Request × Outcome)} {networks : List Network}
    (h : Listed cs networks) (hds : ∀ call ∈ ds, call.1.command ≠ .networkList) :
    Listed (cs ++ ds) networks := by
  obtain ⟨hne, before, after, rfl, hafter⟩ := h
  refine ⟨hne, before, after ++ ds, by simp, ?_⟩
  intro call hcall
  rcases List.mem_append.mp hcall with hcall | hcall
  · exact hafter call hcall
  · exact hds call hcall

namespace Machine

variable {m n p : Machine} {op : Operation} {acts : List Act} {settings : Settings}
  {steps visit : List (Operation × List Act)} {cs : List (Request × Outcome)} {b : Bringup}
  {log : List Execution} {e : Execution}

theorem Turn.bringup_inv (h : m.Turn cs n) (hm : m.phase = .initializing b) :
    (m.goal.isUpward = false ∧ cs = [] ∧ n = m.entered .disconnecting) ∨
      m.goal.isUpward = true ∧ ∃ s acts,
        (b.step m.driver m.settings.scanAllowance).Runs acts s ∧ cs = calls acts ∧
          n = m.afterBringup s := by
  cases h with
  | idle hturn hc => simp [hm, Phase.command?_eq_none_iff] at hc
  | @leave s hs =>
    have hredirect : m.goal.redirect? .initializing = some s := by
      simpa [turn?, hm, Phase.stage] using hs
    have hdown : m.goal.isUpward = false ∧ s = .disconnecting := by
      revert hredirect
      cases m.goal <;>
        simp [Goal.redirect?, Goal.isUpward, Goal.isServedBy, Stage.isUpward, eq_comm]
    obtain ⟨hgoal, rfl⟩ := hdown
    exact .inl ⟨hgoal, rfl, rfl⟩
  | @bringup b' s acts hb hg step =>
    obtain rfl : b = b' := by simpa [hm] using hb
    exact .inr ⟨hg, s, acts, step, rfl, rfl⟩
  | attach ha => simp [hm] at ha
  | monitor hw => simp [hm] at hw
  | teardown ht => simp [hm] at ht

/-- The tick with the history `acts` executes a command of the script. -/
def Executes (m : Machine) (acts : List Act) (e : Execution) : Prop :=
  ∃ b c d first rest, m.phase = .initializing b ∧ m.goal.isUpward = true ∧
    b.cursor.place = e.place ∧ Bringup.script[e.place]? = some c ∧
    (m.driver.attempt c .nothing).Runs first (d, e.response) ∧ calls acts = calls first ++ rest

/-- `p.Climbs log visit m` when the steps lead from `p` to `m` and their ticks execute commands of
the script, with the log of them beside. -/
inductive Climbs (p : Machine) : List Execution → List (Operation × List Act) → Machine → Prop
  | nil : p.Climbs [] [] p
  | tick {log : List Execution} {visit : List (Operation × List Act)} {n n' : Machine}
      {acts : List Act} {e : Execution} (prior : p.Climbs log visit n)
      (last : (n.carryOut .tick).Runs acts n') (he : n.Executes acts e) :
      p.Climbs (log ++ [e]) (visit ++ [(.tick, acts)]) n'
  | other {log : List Execution} {visit : List (Operation × List Act)} {n n' : Machine}
      {op : Operation} {acts : List Act} (prior : p.Climbs log visit n) (hop : op ≠ .tick)
      (last : (n.carryOut op).Runs acts n') : p.Climbs log (visit ++ [(op, acts)]) n'

/-- The machine is initializing, with a log behind it that leads to the place of its script. -/
structure Climbing (p : Machine) (log : List Execution) (visit : List (Operation × List Act))
    (m : Machine) : Prop where
  climbs : p.Climbs log visit m
  place : ∃ b, m.phase = .initializing b ∧ Bringup.LeadsTo log b.cursor.place ∧
    (b.cursor.place = 15 → Listed (calls (actsOf visit)) m.driver.record.networks)

theorem climbing_of_entered (hp : p.phase = .fresh p.stage) (hs : p.stage = .initializing) :
    p.Climbing [] [] p := by
  rw [hs] at hp
  exact ⟨.nil, {}, hp, Bringup.leadsTo_nil, fun h => absurd h (by decide)⟩

theorem Climbing.stage_eq (h : p.Climbing log visit m) : m.stage = .initializing := by
  obtain ⟨b, hphase, -⟩ := h.place
  rw [stage, hphase]
  rfl

theorem networks_eq_of_ne (last : (m.carryOut op).Runs acts n)
    (h : ∀ call ∈ calls acts, call.1.command ≠ .networkList) :
    n.driver.record.networks = m.driver.record.networks := by
  rw [networks_carryOut last, lastReply?_eq_none h]
  rfl

theorem ne_networkList_of_ne_tick (hs : m.stage.takesQueries = false) (hop : op ≠ .tick)
    (last : (m.carryOut op).Runs acts n) :
    ∀ call ∈ calls acts, call.1.command ≠ .networkList := by
  rintro ⟨r, o⟩ hro
  rcases looksForCard_of_ne_tick hs hop last r o hro with hc | hc <;> rw [hc] <;> decide

theorem Climbing.ne_tick (h : p.Climbing log visit m) (hop : op ≠ .tick)
    (last : (m.carryOut op).Runs acts n) (hs : n.stage = m.stage) :
    p.Climbing log (visit ++ [(op, acts)]) n := by
  have hqueries : m.stage.takesQueries = false := by rw [h.stage_eq]; rfl
  have hcalls := ne_networkList_of_ne_tick hqueries hop last
  obtain ⟨b, hphase, hlog, hlisted⟩ := h.place
  refine ⟨h.climbs.other hop last, b, (phase_of_ne_tick last hop hs).trans hphase, hlog, ?_⟩
  intro hplace
  rw [actsOf_append, calls_append, networks_eq_of_ne last hcalls]
  exact (hlisted hplace).append (by simpa using hcalls)

theorem Climbing.step (h : p.Climbing log visit m) (hgoal : m.goal.isUpward = true)
    (last : (m.carryOut .tick).Runs acts n) :
    ∃ b s first e, m.phase = .initializing b ∧
      (b.step m.driver m.settings.scanAllowance).Runs first s ∧ calls acts = calls first ∧
      n = m.greeted.afterBringup s ∧ m.Executes acts e ∧ e.place = b.cursor.place ∧
      match s.verdict with
      | .underway | .scanning => Bringup.LeadsTo (log ++ [e]) s.phase.cursor.place
      | .finished => Bringup.LeadsTo (log ++ [e]) Bringup.script.length
      | .failed => True := by
  obtain ⟨b, hphase, hlog, -⟩ := h.place
  rcases (turn_tick last).1.bringup_inv (by rwa [phase_greeted]) with
    ⟨hdown, -⟩ | ⟨-, s, first, step, hcalls, hn⟩
  · simp [hgoal] at hdown
  rw [driver_greeted, settings_greeted] at step
  obtain ⟨c, d, e, fore, rest, he, hc, rfl, hattempt, hleads⟩ := Bringup.leadsTo_step hlog step
  rw [calls_append] at hcalls
  exact ⟨b, s, fore ++ rest, e, hphase, step, by rw [hcalls, calls_append], hn,
    ⟨b, c, d, fore, calls rest, hphase, hgoal, he.symm, hc, hattempt, hcalls⟩, he, hleads⟩

theorem networks_of_step {s : Step Bringup} {first : List Act} {budget : Nat}
    (hlast : b.cursor.place = 15) (step : (b.step m.driver budget).Runs first s) :
    s.driver.record.networks = m.driver.record.networks := by
  have hne : ∀ call ∈ calls first, call.1.command ≠ .networkList := fun _ hcall =>
    Bringup.ne_networkList_of_step (by omega) step hcall
  rw [(b.traces_step _ _ first s step).networks, lastReply?_eq_none hne]
  rfl

/-- At the last place the networks are listed: the step has come there from the list, or has stayed
and asked for something else. -/
theorem Climbing.listed {s : Step Bringup} {first : List Act}
    (h : p.Climbing log visit m) (hphase : m.phase = .initializing b)
    (step : (b.step m.driver m.settings.scanAllowance).Runs first s)
    (hcalls : calls acts = calls first) (hv : s.verdict ≠ .failed)
    (hgo : Bringup.GoesOn b.cursor.place s.phase.cursor.place)
    (hplace : s.phase.cursor.place = 15) :
    Listed (calls (actsOf (visit ++ [(.tick, acts)]))) s.driver.record.networks := by
  have hall : calls (actsOf (visit ++ [(.tick, acts)])) = calls (actsOf visit) ++ calls first := by
    simp [hcalls]
  rw [hall]
  rcases hgo with hstay | hnext | ⟨-, hback⟩
  · have hlast : b.cursor.place = 15 := hstay.symm.trans hplace
    have hne : ∀ call ∈ calls first, call.1.command ≠ .networkList := fun _ hcall =>
      Bringup.ne_networkList_of_step (by omega) step hcall
    obtain ⟨b', hphase', -, hlisted⟩ := h.place
    obtain rfl : b = b' := by simpa [hphase] using hphase'
    rw [networks_of_step hlast step]
    exact (hlisted hlast).append hne
  · have hlist : b.cursor.place = 14 := Nat.succ.inj (hnext.symm.trans hplace)
    obtain ⟨hcall, hne⟩ := Bringup.networks_of_passed hlist step hv hplace
    rw [hcall]
    exact ⟨hne, calls (actsOf visit), [], rfl, by simp⟩
  · omega

theorem Climbing.isUpward_of_stays (h : p.Climbing log visit m)
    (last : (m.carryOut .tick).Runs acts n) (hs : n.stage = m.stage) :
    m.goal.isUpward = true := by
  obtain ⟨b, hphase, -⟩ := h.place
  rw [h.stage_eq] at hs
  rcases (turn_tick last).1.bringup_inv (by rwa [phase_greeted]) with ⟨-, -, rfl⟩ | ⟨hgoal, -⟩
  · simp at hs
  · rwa [goal_greeted] at hgoal

theorem Climbing.tick (h : p.Climbing log visit m) (last : (m.carryOut .tick).Runs acts n)
    (hs : n.stage = m.stage) :
    ∃ e, p.Climbing (log ++ [e]) (visit ++ [(.tick, acts)]) n := by
  obtain ⟨b, s, first, e, hphase, step, hcalls, rfl, hexec, he, hleads⟩ :=
    h.step (h.isUpward_of_stays last hs) last
  rw [h.stage_eq, stage_afterBringup] at hs
  refine ⟨e, h.climbs.tick last hexec, s.phase, ?_⟩
  have hgo : s.verdict ≠ .failed ∧ (m.greeted.afterBringup s).phase = .initializing s.phase ∧
      Bringup.LeadsTo (log ++ [e]) s.phase.cursor.place := by
    cases hv : s.verdict <;> simp [hv] at hs hleads <;> simp [afterBringup, hv, hleads]
  obtain ⟨hv, hnext, hleads⟩ := hgo
  refine ⟨hnext, hleads, fun hplace => ?_⟩
  rw [driver_afterBringup]
  exact h.listed hphase step hcalls hv (he ▸ hleads.goesOn) hplace

theorem Climbing.stays (hp : p.Climbing [] [] p) (h : p.Stays visit m) :
    ∃ log, p.Climbing log visit m := by
  induction h with
  | nil => exact ⟨[], hp⟩
  | @snoc visit n n' op acts prior last hs ih =>
    obtain ⟨log, hlog⟩ := ih
    by_cases hop : op = .tick
    · subst hop
      obtain ⟨e, he⟩ := hlog.tick last hs
      exact ⟨log ++ [e], he⟩
    · exact ⟨log, hlog.ne_tick hop last hs⟩

theorem bringup_of_initialized (last : (m.carryOut op).Runs acts n) (hm : m.stage ≠ .initialized)
    (hn : n.stage = .initialized) :
    op = .tick ∧ m.stage = .initializing ∧ m.goal.isUpward = true := by
  obtain rfl := eq_tick_of_entered last (by rwa [hn]) (by simp [hn])
  simpa using ((turn_tick last).1.arrives (by simpa [hn])).1 hn

/-- An initialization ends in a tick of its own under a goal on the way up. A tick under such a goal
executes a command of the script: the first one to begin with, and from then on the same one again,
the next one, or that two places back from the last one, which a busy answer to it leads to. When
the initialization ends every command has been executed in this visit, the last executions stand in
the order of the script, and none of them but that of the power-on was refused. The last network
list that was asked for has brought the networks in sight, and after it the radio was found
settled. -/
theorem initialized_in_full (run : Run (start settings) steps m)
    (last : (m.carryOut op).Runs acts n) :
    (m.stage ≠ .initialized → n.stage = .initialized →
        op = .tick ∧ m.stage = .initializing ∧ m.goal.isUpward = true) ∧
      (op = .tick → m.stage = .initializing → m.goal.isUpward = true →
        ∃ prior visit p log e, steps = prior ++ visit ∧ Enters settings prior p ∧
          p.Stays visit m ∧ p.Climbs (log ++ [e]) (visit ++ [(.tick, acts)]) n ∧
          ((log ++ [e]).map (·.place)).head? = some 0 ∧
          ((log ++ [e]).map (·.place)).IsChain Bringup.GoesOn ∧
          (∀ status phase, e.place = 15 → status.isUnsettled = true →
            calls acts = [(⟨.deviceStatus, .nothing⟩, .reply ⟨.success, .radio status phase⟩)] →
            ∃ b, n.phase = .initializing b ∧ b.cursor.place = 13) ∧
          (n.stage = .initialized →
            (lastExecutions (log ++ [e])).map (·.place) = List.range Bringup.script.length ∧
            (∀ f ∈ lastExecutions (log ++ [e]),
              f.response = .success ∨ Bringup.script[f.place]? = some .powerOn) ∧
            Listed (calls (actsOf visit)) n.driver.record.networks ∧
            ∃ status phase,
              calls acts =
                [(⟨.deviceStatus, .nothing⟩, .reply ⟨.success, .radio status phase⟩)] ∧
              (status = .ready ∨ status = .uninitialized ∨ status = .dataConnected))) := by
  refine ⟨bringup_of_initialized last, ?_⟩
  rintro rfl hstage hgoal
  obtain ⟨prior, visit, p, rfl, hp, hstays⟩ := exists_visit run (by simp [hstage])
  have hentered := climbing_of_entered hp.phase (hstays.stage_eq.symm.trans hstage)
  obtain ⟨log, hlog⟩ := hentered.stays hstays
  obtain ⟨b, s, first, e, hphase, step, hcalls, rfl, hexec, he, hleads⟩ := hlog.step hgoal last
  obtain ⟨b', hphase', hlead, hlisted⟩ := hlog.place
  obtain rfl : b = b' := by simpa [hphase] using hphase'
  rw [← he] at hlead
  refine ⟨prior, visit, p, log, e, rfl, hp, hstays, hlog.climbs.tick last hexec, hlead.places.1,
    hlead.places.2, ?_, ?_⟩
  · intro status phase hlast hbusy hcall
    obtain ⟨hv, hback⟩ :=
      Bringup.rewinds_step (he.symm.trans hlast) step (hcalls.symm.trans hcall) hbusy
    exact ⟨s.phase, by simp [afterBringup, hv], hback⟩
  · intro hn
    have hv : s.verdict = .finished := by
      rw [stage_afterBringup] at hn
      cases hv : s.verdict <;> simp [hv] at hn
      rfl
    simp only [hv] at hleads
    have hlast := Bringup.place_of_finished step hv
    have hopen : m.driver.record.apiOpen = true := by
      refine (sound_run run).apiOpen_of_command? (c := .deviceStatus) ?_ rfl
      rw [hphase, Phase.command?, hlast]
      rfl
    obtain ⟨status, phase, hcall, hstatus⟩ := Bringup.status_of_finished hopen step hv
    refine ⟨hleads.complete.1, hleads.complete.2, ?_, status, phase, hcalls.trans hcall, hstatus⟩
    rw [driver_afterBringup, networks_of_step hlast step]
    exact hlisted hlast

/-- A card that refuses to switch its power on. -/
def reluctantCard (r : Request) : Outcome :=
  if r.command = .powerOn then .reply ⟨.permissionDenied, .nothing⟩ else obligingCard r

/-- A card whose radio is busy. -/
def busyCard (r : Request) : Outcome :=
  if r.command = .deviceStatus then .reply ⟨.success, .radio .scanning none⟩ else obligingCard r

/-- The way up to the last probe, which finds the radio busy, and back to it. -/
def detour : Plan :=
  (.aim .initialized, obligingCard) :: List.replicate 16 (.tick, reluctantCard) ++
    [(.tick, busyCard), (.tick, obligingCard), (.tick, obligingCard)]

theorem initialized_in_full_detour :
    ∃ (acts : List Act) (visit : List (Operation × List Act)) (p n : Machine)
      (log : List Execution),
      (((start {}).rehearse detour).2.carryOut .tick).Runs acts n ∧ n.stage = .initialized ∧
        p.Climbs log (visit ++ [(.tick, acts)]) n ∧
        (lastExecutions log).map (·.place) = List.range 16 ∧
        Listed (calls (actsOf visit)) n.driver.record.networks := by
  have hstage : ((start {}).rehearse detour).2.stage = .initializing := by decide +kernel
  have hgoal : ((start {}).rehearse detour).2.goal.isUpward = true := by decide +kernel
  have hruns := Dialog.runs_recorder (((start {}).rehearse detour).2.carryOut .tick) obligingCard
  have hafter : ((((start {}).rehearse detour).2.carryOut .tick).run
      (recorder obligingCard) []).1.stage = .initialized := by decide +kernel
  obtain ⟨-, htick⟩ := initialized_in_full (run_rehearse (start {}) detour) hruns
  obtain ⟨prior, visit, p, log, e, -, -, -, hclimbs, -, -, -, hend⟩ := htick rfl hstage hgoal
  obtain ⟨horder, -, hlisted, -⟩ := hend hafter
  exact ⟨_, visit, p, _, log ++ [e], hruns, hafter, hclimbs, horder, hlisted⟩

end Machine

end Wimax
