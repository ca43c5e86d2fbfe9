import Mathlib.Data.List.Chain
import Wimax.Card
import Wimax.Proofs.News

/-!
The signal strengths that observers hear of. Only a tick that probes the link of a connection can
publish one, and it does so if and only if the probe has brought another one than was published
last, however long ago and in whichever connection that was.
-/

namespace Wimax

/-- The signal strengths published in a history, the newest last. -/
def strengths (acts : List Act) : List Int :=
  acts.filterMap fun
    | .publish (.rssi dbm) => some dbm
    | _ => none

@[simp]
theorem strengths_nil : strengths [] = [] := rfl

@[simp]
theorem strengths_append (acts more : List Act) :
    strengths (acts ++ more) = strengths acts ++ strengths more := by simp [strengths]

theorem mem_strengths {acts : List Act} {dbm : Int} :
    dbm ∈ strengths acts ↔ .publish (.rssi dbm) ∈ acts := by
  induction acts with
  | nil => simp
  | cons act acts ih =>
    rw [List.mem_cons, ← ih]
    cases act with
    | call => simp [strengths]
    | publish e => cases e <;> simp [strengths]

namespace Dialog

variable {α β : Type} {d : Dialog α} {p : Command → Prop}

/-- The dialog publishes no signal strength. -/
def Mute : Dialog α → Prop
  | done _ => True
  | ask _ next => ∀ o, (next o).Mute
  | publish e next => (∀ dbm, e ≠ .rssi dbm) ∧ next.Mute

theorem Mute.bind {f : α → Dialog β} (h : d.Mute) (hf : ∀ a, (f a).Mute) : (d >>= f).Mute := by
  induction d with
  | done a => exact hf a
  | ask r next ih => exact fun o => ih o (h o)
  | publish e next ih => exact ⟨h.1, ih h.2⟩

theorem CallsOnly.mute (h : d.CallsOnly p) : d.Mute := by
  induction d with
  | done a => trivial
  | ask r next ih => exact fun o => ih o (h.2 o)
  | publish e next ih => exact h.elim

theorem Mute.strengths (h : d.Mute) {acts : List Act} {a : α} (run : d.Runs acts a) :
    strengths acts = [] := by
  induction run with
  | done a => rfl
  | ask r next o acts a _ ih => exact ih (h o)
  | publish e next acts a _ ih =>
    have hlast := ih h.2
    cases e with
    | rssi dbm => exact absurd rfl (h.1 dbm)
    | _ => exact hlast

end Dialog

namespace Machine

variable {m n : Machine} {op : Operation} {acts : List Act} {cs : List (Request × Outcome)}
  {settings : Settings} {steps : List (Operation × List Act)}

theorem mute_announce (m : Machine) (r : Report) : (m.announce r).Mute := by
  unfold announce
  split
  · trivial
  · exact ⟨nofun, trivial⟩

theorem mute_moveTo (m : Machine) (s : Stage) : (m.moveTo s).Mute := by
  unfold moveTo
  split
  · trivial
  · exact mute_announce _ _

theorem mute_seekCard (m : Machine) : m.seekCard.Mute :=
  (Driver.callsOnly_cardPresent _).mute.bind fun _ => trivial

theorem mute_handle (m : Machine) (notice : Notice) : (m.handle notice).Mute := by
  cases notice with
  | insertRemove present | power state | statusChange status reason phase => trivial
  | connectResult code | disconnectResult code =>
    unfold handle
    dsimp only
    split
    · exact mute_seekCard m
    · trivial
  | wideScan networks => exact (mute_seekCard m).bind fun _ => ⟨nofun, trivial⟩
  | provisioning stage kind | packageUpdate stage => exact ⟨nofun, trivial⟩

theorem mute_ask (m : Machine) (q : Query) : (m.ask q).Mute := by
  unfold ask
  split
  · trivial
  · exact (Driver.callsOnly_perform _ _ _).mute.bind fun _ => trivial

theorem mute_carryOut (hop : op ≠ .tick) : (m.carryOut op).Mute := by
  cases op with
  | tick => exact absurd rfl hop
  | aim g => trivial
  | prefer name =>
    change (m.prefer name).Mute
    rw [prefer_eq]
    split_ifs
    · trivial
    · exact mute_moveTo _ _
    · trivial
  | notice notice => exact mute_handle m notice
  | query q => exact (mute_ask m q).bind fun _ => trivial

theorem shownRssi_of_ne_tick (hop : op ≠ .tick) (h : (m.carryOut op).Runs acts n) :
    n.shownRssi = m.shownRssi := by
  cases carries_carryOut h with
  | tick => exact absurd rfl hop
  | giveUp _ hn => rw [hn]; rfl
  | store hn => rw [hn]
  | unmoved _ hn => rw [hn.eq]

end Machine

namespace Monitor

variable {w : Monitor} {d : Driver} {acts : List Act} {s : Step Monitor} {sample : Option Int}

/-- The calls are one probe of the link, which was answered with figures. -/
def Probes (cs : List (Request × Outcome)) (link : Link) : Prop :=
  cs = [(⟨.linkStatus, .nothing⟩, .reply ⟨.success, .link link⟩)]

theorem sample?_of_not_probes {d : Driver} {o : Outcome}
    (ho : ∀ link, o ≠ .reply ⟨.success, .link link⟩) :
    sample? (d.afterCall .linkStatus o) o.response = none := by
  unfold sample?
  split_ifs with hr
  · cases o with
    | reply reply =>
      obtain ⟨response, payload⟩ := reply
      obtain rfl : response = .success := hr
      cases payload with
      | link link => exact absurd rfl (ho link)
      | _ => rfl
    | _ => simp [Outcome.response] at hr
  · rfl

/-- A step brings a signal strength if and only if it is such a probe, which ends a round. -/
theorem sample_step (h : (w.step d).Runs acts (s, sample)) :
    (∃ link, Probes (calls acts) link ∧ sample = some link.signalDbm ∧ s.verdict = .finished) ∨
      ((∀ link, ¬Probes (calls acts) link) ∧ sample = none) := by
  obtain ⟨c, d₁, r, hc, h₁, h₂⟩ := runs_step h
  rcases h₂ with ⟨rfl, rfl, -⟩ | ⟨hne, rfl, rfl⟩
  · refine .inr ⟨fun link hprobes => ?_, rfl⟩
    have hmem : (⟨.linkStatus, .nothing⟩, .reply ⟨.success, .link link⟩) ∈ calls acts := by
      rw [hprobes]
      exact List.mem_singleton_self _
    exact absurd ((Driver.callsOnly_attempt _ _ _).calls h₁ hmem) nofun
  · obtain rfl : c = .linkStatus := by
      have hmem : c ∈ script := List.mem_of_getElem? hc
      simpa [script, hne] using hmem
    obtain ⟨o, rfl, rfl, rfl⟩ :=
      Driver.runs_attempt_of_alwaysAsks rfl (fun h => absurd h (by decide)) h₁
    by_cases ho : ∃ link, o = .reply ⟨.success, .link link⟩
    · obtain ⟨link, rfl⟩ := ho
      exact .inl ⟨link, rfl, rfl, rfl⟩
    · refine .inr ⟨fun link hprobes => ho ⟨link, ?_⟩, sample?_of_not_probes fun link hlink =>
        ho ⟨link, hlink⟩⟩
      exact (Prod.mk.inj (List.cons.inj hprobes).1).2

end Monitor

namespace Machine

variable {m n : Machine} {op : Operation} {acts : List Act} {cs : List (Request × Outcome)}
  {settings : Settings} {steps : List (Operation × List Act)}

/-- The calls are a probe of a wanted connection that brought figures of the link. -/
def Samples (m : Machine) (cs : List (Request × Outcome)) (link : Link) : Prop :=
  m.stage = .connected ∧ m.goal = .connected ∧ Monitor.Probes cs link

theorem Turn.shownRssi (h : m.Turn cs n) :
    (∃ link, m.Samples cs link ∧ n.shownRssi = some link.signalDbm) ∨
      ((∀ link, ¬m.Samples cs link) ∧ n.shownRssi = m.shownRssi) := by
  cases h with
  | idle _ hc =>
    refine .inr ⟨fun link hs => ?_, rfl⟩
    exact absurd hs.2.2 nofun
  | leave =>
    refine .inr ⟨fun link hs => ?_, rfl⟩
    exact absurd hs.2.2 nofun
  | @bringup b s acts hm =>
    refine .inr ⟨fun link hs => ?_, ?_⟩
    · have hstage := hs.1
      simp [stage, hm, Phase.stage] at hstage
    · unfold afterBringup
      cases s.verdict <;> rfl
  | @attach a s acts hm =>
    refine .inr ⟨fun link hs => ?_, ?_⟩
    · have hstage := hs.1
      simp [stage, hm, Phase.stage] at hstage
    · unfold afterAttach
      cases s.verdict with
      | failed => cases s.message <;> rfl
      | _ => rfl
  | @teardown t s acts hm =>
    refine .inr ⟨fun link hs => ?_, ?_⟩
    · have hstage := hs.1
      simp [stage, hm, Phase.stage] at hstage
    · unfold afterTeardown
      cases s.verdict <;> rfl
  | @monitor w s sample acts hm hg step =>
    have hstage : m.stage = .connected := by rw [stage, hm]; rfl
    rcases Monitor.sample_step step with ⟨link, hprobes, rfl, hv⟩ | ⟨hnone, rfl⟩
    · refine .inl ⟨link, ⟨hstage, hg, hprobes⟩, ?_⟩
      simp [afterMonitor, hv]
    · refine .inr ⟨fun link hs => hnone link hs.2.2, ?_⟩
      unfold afterMonitor
      cases s.verdict <;> rfl

theorem strengths_news (m n : Machine) :
    strengths ((m.news n).map .publish) =
      if m.shownRssi = n.shownRssi then [] else n.shownRssi.toList := by
  unfold news
  rw [List.map_append, strengths_append]
  have hstate : strengths ((if m.shown = n.shown then []
      else [.state n.shown m.shown (n.shownBsid? n.shown)]).map .publish) = [] := by
    split <;> rfl
  rw [hstate, List.nil_append]
  split
  · rfl
  · cases n.shownRssi <;> rfl

theorem strengths_carryOut (h : (m.carryOut op).Runs acts n) :
    strengths acts = if m.shownRssi = n.shownRssi then [] else n.shownRssi.toList := by
  by_cases hop : op = .tick
  · subst hop
    obtain ⟨first, hfirst, rfl⟩ := runs_tick h
    have hgreeted : m.greeted.shownRssi = m.shownRssi := by rw [greeted_eq]
    have hquiet : strengths first = [] := m.greeted.callsOnly_advance.mute.strengths hfirst
    simp only [strengths_append, strengths_news, hgreeted, hquiet, ↓reduceIte, List.nil_append]
  · rw [(mute_carryOut hop).strengths h, shownRssi_of_ne_tick hop h, if_pos rfl]

theorem samples_greeted_iff {link : Link} : m.greeted.Samples cs link ↔ m.Samples cs link := by
  simp [Samples]

theorem shownRssi_carryOut (h : (m.carryOut op).Runs acts n) :
    (∃ link, op = .tick ∧ m.Samples (calls acts) link ∧ n.shownRssi = some link.signalDbm) ∨
      ((∀ link, ¬(op = .tick ∧ m.Samples (calls acts) link)) ∧ n.shownRssi = m.shownRssi) := by
  by_cases hop : op = .tick
  · subst hop
    have hgreeted : m.greeted.shownRssi = m.shownRssi := by rw [greeted_eq]
    rcases (turn_tick h).1.shownRssi with ⟨link, hs, hn⟩ | ⟨hnone, hn⟩
    · exact .inl ⟨link, rfl, samples_greeted_iff.mp hs, hn⟩
    · refine .inr ⟨fun link hs => hnone link (samples_greeted_iff.mpr hs.2), ?_⟩
      rw [hn, hgreeted]
  · exact .inr ⟨fun link hs => hop hs.1, shownRssi_of_ne_tick hop h⟩

theorem shownRssi_run (run : Run (start settings) steps m) :
    m.shownRssi = (strengths (actsOf steps)).getLast? := by
  induction run with
  | nil => rfl
  | @snoc steps m n op acts prior last ih =>
    rw [actsOf_append, strengths_append, List.getLast?_append, ← ih, actsOf_cons, actsOf_nil,
      List.append_nil, strengths_carryOut last]
    rcases shownRssi_carryOut last with ⟨link, -, -, hn⟩ | ⟨-, hn⟩
    · rw [hn]
      split
      · next he => simp [he]
      · simp
    · simp [hn]

/-- No two signal strengths in a row are the same, in however many connections. -/
theorem isChain_strengths (run : Run (start settings) steps m) :
    (strengths (actsOf steps)).IsChain (· ≠ ·) := by
  induction run with
  | nil => exact .nil
  | @snoc steps m n op acts prior last ih =>
    rw [actsOf_append, strengths_append, actsOf_cons, actsOf_nil, List.append_nil,
      strengths_carryOut last]
    split
    · simpa using ih
    · next hne =>
      rw [shownRssi_run prior] at hne
      refine ih.append ?_ ?_
      · cases n.shownRssi <;> simp
      · rintro x hx y hy rfl
        have hx' : (strengths (actsOf steps)).getLast? = some x := hx
        have hy' : n.shownRssi = some x := by
          cases hn : n.shownRssi <;> simp_all
        exact hne (hx'.trans hy'.symm)

/-- The published signal strengths are exactly the changes of it. An operation publishes one if and
only if it is a tick that samples the link of a wanted connection and reads another strength than
the one published last in the whole run. It publishes one at most, so that no two in a row are the
same. -/
theorem strengths_are_changes (run : Run (start settings) steps m)
    (h : (m.carryOut op).Runs acts n) :
    (∀ dbm : Int, .publish (.rssi dbm) ∈ acts ↔
      op = .tick ∧ m.stage = .connected ∧ m.goal = .connected ∧
        (∃ link : Link,
          calls acts = [(⟨.linkStatus, .nothing⟩, .reply ⟨.success, .link link⟩)] ∧
            (link.rssi.toNat : Int) - 123 = dbm) ∧
        (strengths (actsOf steps)).getLast? ≠ some dbm) ∧
      (strengths acts).length ≤ 1 ∧
      (strengths (actsOf (steps ++ [(op, acts)]))).IsChain (· ≠ ·) := by
  have hshown := shownRssi_run run
  refine ⟨fun dbm => ?_, ?_, isChain_strengths (run.snoc h)⟩
  · rw [← mem_strengths, strengths_carryOut h, ← hshown]
    rcases shownRssi_carryOut h with ⟨link, hop, ⟨hstage, hgoal, hcalls⟩, hn⟩ | ⟨hnone, hn⟩
    · rw [hn]
      constructor
      · intro hmem
        split at hmem
        · simp at hmem
        · next hne =>
          obtain rfl : dbm = link.signalDbm := by simpa using hmem
          exact ⟨hop, hstage, hgoal, ⟨link, hcalls, rfl⟩, hne⟩
      · rintro ⟨-, -, -, ⟨link', hcalls', hdbm⟩, hne⟩
        obtain rfl : link' = link := by simpa using hcalls'.symm.trans hcalls
        obtain rfl : link'.signalDbm = dbm := hdbm
        rw [if_neg hne]
        simp
    · rw [hn, if_pos rfl]
      refine iff_of_false List.not_mem_nil ?_
      rintro ⟨hop, hstage, hgoal, ⟨link, hcalls, -⟩, -⟩
      exact hnone link ⟨hop, hstage, hgoal, hcalls⟩
  · rw [strengths_carryOut h]
    split
    · simp
    · cases n.shownRssi <;> simp

/-- An obliging card with figures of the link. -/
def gaugingCard (r : Request) : Outcome :=
  match r.command with
  | .linkStatus => .reply (.reading (.link (Card.builtinLink 40)))
  | _ => obligingCard r

theorem strengths_are_changes_gauging :
    .publish (.rssi (-83)) ∈ ((((start {}).rehearse (ascent 22)).2.carryOut .tick).run
      (recorder gaugingCard) []).2 := by
  have hruns := Dialog.runs_recorder
    (((start {}).rehearse (ascent 22)).2.carryOut .tick) gaugingCard
  refine ((strengths_are_changes (run_rehearse _ _) hruns).1 (-83)).mpr ⟨rfl, ?_, ?_, ?_, ?_⟩
  · decide +kernel
  · decide +kernel
  · exact ⟨Card.builtinLink 40, by decide +kernel, rfl⟩
  · decide +kernel

end Machine

end Wimax
