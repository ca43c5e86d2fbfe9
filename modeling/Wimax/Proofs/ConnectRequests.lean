import Wimax.Proofs.CallTrace
import Wimax.Proofs.OpenDriver

/-!
When the card is asked to connect, and to what. A connect request is the first call of a tick that
finds the machine connecting under the goal to be connected, and it names a network of the last
answered network list.
-/

namespace Wimax

namespace Attach

variable {a : Attach} {d : Driver} {preferred : String} {acts : List Act} {s : Step Attach}
  {r : Request} {o : Outcome}

theorem ne_connect_of_mem_probes {c : Command} (h : c ∈ probes) : c ≠ .connect := by
  rintro rfl
  exact absurd h (by decide)

theorem calls_of_connect (h : (a.step d preferred).Runs acts s) (hro : (r, o) ∈ calls acts)
    (hr : r.command = .connect) :
    ∃ network rest, target? d.record preferred = some network ∧
      r.args = .connect network.name network.id "" ∧ calls acts = (r, o) :: rest ∧
      ∀ call ∈ rest, call.1.command ≠ .connect := by
  rcases runs_step h with ⟨-, h⟩ | ⟨-, h⟩ | ⟨-, h⟩
  · rcases runs_request h with ⟨rfl, -⟩ | ⟨network, d₁, response, first, rest, htarget, rfl, h₁, h₂⟩
    · simp at hro
    rw [attempt_connect] at h₁
    obtain ⟨o', _, rfl, hdone⟩ := Dialog.runs_ask_iff.mp h₁
    obtain ⟨rfl, -⟩ := Dialog.runs_done_iff.mp hdone
    have hrest : ∀ call ∈ calls rest, call.1.command ≠ .connect := by
      rcases h₂ with ⟨-, rfl, -⟩ | ⟨-, hlose⟩ | ⟨-, rfl, -⟩
      · simp
      · intro call hcall
        exact ne_connect_of_mem_probes ((callsOnly_loseCard _ _ _).calls hlose hcall)
      · simp
    rw [calls_append] at hro ⊢
    rcases List.mem_cons.mp hro with heq | hlater
    · obtain ⟨rfl, rfl⟩ := Prod.mk.inj heq
      exact ⟨network, calls rest, htarget, rfl, rfl, hrest⟩
    · exact absurd hr (hrest _ hlater)
  · exact absurd hr (ne_connect_of_mem_probes ((callsOnly_checkRadio _ _).calls h hro))
  · exact absurd hr (ne_connect_of_mem_probes ((callsOnly_checkLink _ _).calls h hro))

end Attach

namespace Machine

variable {m n : Machine} {op : Operation} {acts : List Act} {cs : List (Request × Outcome)}
  {r : Request} {o : Outcome}

theorem Turn.attach_of_connect (h : m.Turn cs n) (hro : (r, o) ∈ cs)
    (hr : r.command = .connect) :
    m.goal = .connected ∧ ∃ a s acts, m.phase = .connecting a ∧
      (a.step m.driver m.preferred).Runs acts s ∧ cs = calls acts := by
  cases h with
  | idle => simp at hro
  | leave => simp at hro
  | @bringup b s acts hphase hg step =>
    have hne : ∀ c ∈ Bringup.script, c ≠ .connect := by decide
    exact absurd hr (hne _ ((b.callsOnly_step _ _).calls step hro))
  | @attach a s acts hphase hg step => exact ⟨hg, a, s, acts, hphase, step, rfl⟩
  | @monitor w s sample acts hphase hg step =>
    have hne : ∀ c ∈ Monitor.script, c ≠ .connect := by decide
    exact absurd hr (hne _ ((w.callsOnly_step _).calls step hro))
  | @teardown t s acts hphase step =>
    have hne : ∀ c ∈ Teardown.script, c ≠ .connect := by decide
    exact absurd hr (hne _ ((t.callsOnly_step _).calls step hro))

theorem eq_tick_of_connect (h : (m.carryOut op).Runs acts n) (hro : (r, o) ∈ calls acts)
    (hr : r.command = .connect) : op = .tick := by
  cases carries_carryOut h with
  | tick => rfl
  | giveUp _ _ hcalls => simp [hcalls] at hro
  | store _ hcalls => simp [hcalls] at hro
  | unmoved _ _ _ hlink =>
    have hmoves := hlink r o hro
    rw [hr] at hmoves
    exact absurd hmoves (by decide)

/-- From a start on the networks in sight, if any, are those of the last answered network list. -/
theorem lastReply?_of_networks {settings : Settings} {steps : List (Operation × List Act)}
    (run : Run (start settings) steps m) (h : m.driver.record.networks ≠ []) :
    lastReply? .networkList (calls (actsOf steps)) =
      some ⟨.success, .networks m.driver.record.networks⟩ := by
  have hnetworks := networks_run run
  cases hlast : lastReply? .networkList (calls (actsOf steps)) with
  | none =>
    rw [hlast] at hnetworks
    exact absurd hnetworks h
  | some reply =>
    have heq : m.driver.record.networks = reply.networks := by simpa [hlast] using hnetworks
    rw [heq] at h ⊢
    rw [← Reply.eq_of_networks_ne_nil h]

/-- The card is asked to connect in ticks only that find the goal to be connected, the machine
connecting and the driver open; at most once in a tick; and to the preferred network of the last
answered network list, or to its first one when the preferred one is not on it. -/
theorem connect_on_purpose {settings : Settings} {steps : List (Operation × List Act)}
    (run : Run (start settings) steps m) (last : (m.carryOut op).Runs acts n)
    (hro : (r, o) ∈ calls acts) (hr : r.command = .connect) :
    op = .tick ∧ m.goal = .connected ∧ m.stage = .connecting ∧
      (m.driver.record.apiOpen = true ∧ m.driver.record.deviceOpen = true ∧
        ∀ ch, m.driver.record.subscriptions.has ch = true) ∧
      (∃ rest, calls acts = (r, o) :: rest ∧ ∀ call ∈ rest, call.1.command ≠ .connect) ∧
      ∃ networks network,
        lastReply? .networkList (calls (actsOf steps)) = some ⟨.success, .networks networks⟩ ∧
        m.driver.record.networks = networks ∧
        (networks.find? fun n => sameName n.name m.preferred).or networks.head? = some network ∧
        r.args = .connect network.name network.id "" := by
  obtain rfl := eq_tick_of_connect last hro hr
  obtain ⟨hgoal, a, s, first, hphase, step, hcalls⟩ :=
    (turn_tick last).1.attach_of_connect hro hr
  rw [goal_greeted] at hgoal
  rw [phase_greeted] at hphase
  rw [driver_greeted, preferred_greeted] at step
  have hstage : m.stage = .connecting := by rw [stage, hphase]; rfl
  obtain ⟨network, rest, htarget, hargs, hfirst, hrest⟩ :=
    Attach.calls_of_connect step (by rwa [← hcalls]) hr
  have hne : m.driver.record.networks ≠ [] := by
    intro hnil
    simp [Attach.target?, Record.findNetwork?, hnil] at htarget
  exact ⟨rfl, hgoal, hstage, (sound_run run).isOpen (.inr (.inl hstage)),
    ⟨rest, by rw [hcalls, hfirst], hrest⟩, _, network, lastReply?_of_networks run hne, rfl, htarget,
    hargs⟩

/-- A session that prefers a network by a name in other letters. -/
def otherLetters : Machine :=
  ((start {}).rehearse ((.prefer "ROVER", obligingCard) :: ascent 18)).2

theorem connect_on_purpose_otherLetters :
    ∃ n, (otherLetters.carryOut .tick).Runs [.call ⟨.connect, .connect "Rover" 2 ""⟩
        (.reply ⟨.success, .nothing⟩)] n ∧
      otherLetters.goal = .connected ∧ otherLetters.stage = .connecting := by
  have hruns := Dialog.runs_recorder (otherLetters.carryOut .tick) obligingCard
  have hacts : ((otherLetters.carryOut .tick).run (recorder obligingCard) []).2 =
      [.call ⟨.connect, .connect "Rover" 2 ""⟩ (.reply ⟨.success, .nothing⟩)] := by
    decide +kernel
  rw [hacts] at hruns
  obtain ⟨-, hgoal, hstage, -⟩ :=
    connect_on_purpose (run_rehearse _ _) hruns List.mem_cons_self rfl
  exact ⟨_, hruns, hgoal, hstage⟩

end Machine

end Wimax
