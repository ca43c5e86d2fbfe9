import Mathlib.Data.List.Induction
import Wimax.Run

/-!
Histories of dialogs and of runs. A dialog that only calls leaves no event behind, and the commands
it may call bound the calls of its histories. A run splits at each of its steps, and carrying
operations out against a card gives a run.
-/

namespace Wimax

namespace Dialog

variable {α β σ : Type} {p q : Command → Prop}

/-- The dialog publishes nothing and asks only for commands that satisfy `p`. -/
def CallsOnly (p : Command → Prop) : Dialog α → Prop
  | done _ => True
  | ask r next => p r.command ∧ ∀ o, (next o).CallsOnly p
  | publish _ _ => False

theorem CallsOnly.mono {d : Dialog α} (h : d.CallsOnly p) (hpq : ∀ c, p c → q c) :
    d.CallsOnly q := by
  induction d with
  | done a => trivial
  | ask r next ih => exact ⟨hpq _ h.1, fun o => ih o (h.2 o)⟩
  | publish e next ih => exact h.elim

theorem CallsOnly.bind {d : Dialog α} {f : α → Dialog β} (h : d.CallsOnly p)
    (hf : ∀ a, (f a).CallsOnly p) : (d >>= f).CallsOnly p := by
  induction d with
  | done a => exact hf a
  | ask r next ih => exact ⟨h.1, fun o => ih o (h.2 o)⟩
  | publish e next ih => exact h.elim

theorem callsOnly_done (a : α) : (done a).CallsOnly p := trivial

theorem CallsOnly.acts {d : Dialog α} (h : d.CallsOnly p) {acts : List Act} {a : α}
    (run : d.Runs acts a) : ∀ act ∈ acts, ∃ r o, act = .call r o ∧ p r.command := by
  induction run with
  | done a => simp
  | ask r next o acts a _ ih =>
    intro act hact
    rcases List.mem_cons.mp hact with rfl | hact
    · exact ⟨r, o, rfl, h.1⟩
    · exact ih (h.2 o) act hact
  | publish e next acts a _ _ => exact h.elim

end Dialog

def calls (acts : List Act) : List (Request × Outcome) :=
  acts.filterMap fun
    | .call r o => some (r, o)
    | .publish _ => none

@[simp]
theorem calls_nil : calls [] = [] := rfl

@[simp]
theorem calls_call (r : Request) (o : Outcome) (acts : List Act) :
    calls (.call r o :: acts) = (r, o) :: calls acts := rfl

@[simp]
theorem calls_publish (e : Event) (acts : List Act) :
    calls (.publish e :: acts) = calls acts := rfl

@[simp]
theorem calls_append (acts more : List Act) : calls (acts ++ more) = calls acts ++ calls more := by
  simp [calls]

theorem mem_calls {acts : List Act} {r : Request} {o : Outcome} :
    (r, o) ∈ calls acts ↔ .call r o ∈ acts := by
  induction acts with
  | nil => simp
  | cons act acts ih => cases act <;> simp [ih]

theorem Dialog.CallsOnly.calls {α : Type} {p : Command → Prop} {d : Dialog α} (h : d.CallsOnly p)
    {acts : List Act} {a : α} (run : d.Runs acts a) {r : Request} {o : Outcome}
    (hro : (r, o) ∈ calls acts) : p r.command := by
  obtain ⟨r', o', he, hp⟩ := h.acts run _ (mem_calls.mp hro)
  obtain ⟨rfl, rfl⟩ := Act.call.inj he
  exact hp

/-- A change of the report, as observers hear of it. -/
structure Change where
  previous : Report
  state : Report
  deriving DecidableEq, Repr

def changes (acts : List Act) : List Change :=
  acts.filterMap fun
    | .publish (.state state previous _) => some ⟨previous, state⟩
    | _ => none

@[simp]
theorem changes_nil : changes [] = [] := rfl

@[simp]
theorem changes_call (r : Request) (o : Outcome) (acts : List Act) :
    changes (.call r o :: acts) = changes acts := rfl

@[simp]
theorem changes_state (state previous : Report) (bsid : Option String) (acts : List Act) :
    changes (.publish (.state state previous bsid) :: acts) = ⟨previous, state⟩ :: changes acts :=
  rfl

@[simp]
theorem changes_append (acts more : List Act) :
    changes (acts ++ more) = changes acts ++ changes more := by simp [changes]

theorem Dialog.CallsOnly.changes {α : Type} {p : Command → Prop} {d : Dialog α} (h : d.CallsOnly p)
    {acts : List Act} {a : α} (run : d.Runs acts a) : changes acts = [] := by
  refine List.filterMap_eq_nil_iff.mpr fun act hact => ?_
  obtain ⟨r, o, rfl, -⟩ := h.acts run act hact
  rfl

/-- The changes that lead from one report to another: one, if they differ. -/
def Report.changesTo (r s : Report) : List Change := if r = s then [] else [⟨r, s⟩]

@[simp]
theorem Report.changesTo_self (r : Report) : r.changesTo r = [] := by simp [changesTo]

theorem Report.changesTo_of_ne {r s : Report} (h : r ≠ s) : r.changesTo s = [⟨r, s⟩] := by
  simp [changesTo, h]

def actsOf (steps : List (Operation × List Act)) : List Act := steps.flatMap (·.2)

@[simp]
theorem actsOf_nil : actsOf [] = [] := rfl

@[simp]
theorem actsOf_append (first rest : List (Operation × List Act)) :
    actsOf (first ++ rest) = actsOf first ++ actsOf rest := by simp [actsOf]

@[simp]
theorem actsOf_cons (op : Operation) (acts : List Act) (steps : List (Operation × List Act)) :
    actsOf ((op, acts) :: steps) = acts ++ actsOf steps := by simp [actsOf]

namespace Machine

variable {m n k : Machine} {first rest steps : List (Operation × List Act)} {op : Operation}
  {acts : List Act}

theorem Run.one (h : (m.carryOut op).Runs acts n) : Run m [(op, acts)] n := .snoc .nil h

@[simp]
theorem run_nil_iff : Run m [] n ↔ n = m := by
  constructor
  · intro h
    generalize he : ([] : List (Operation × List Act)) = none at h
    cases h with
    | nil => rfl
    | snoc prior last => simp at he
  · rintro rfl
    exact .nil

theorem run_snoc_iff :
    Run m (steps ++ [(op, acts)]) n ↔ ∃ k, Run m steps k ∧ (k.carryOut op).Runs acts n := by
  constructor
  · intro h
    generalize he : steps ++ [(op, acts)] = all at h
    cases h with
    | nil => simp at he
    | snoc prior last =>
      obtain ⟨rfl, hlast⟩ := List.append_inj' he rfl
      obtain ⟨rfl, rfl⟩ : op = _ ∧ acts = _ := by simpa using hlast
      exact ⟨_, prior, last⟩
  · rintro ⟨k, prior, last⟩
    exact .snoc prior last

theorem run_append_iff : Run m (first ++ rest) n ↔ ∃ k, Run m first k ∧ Run k rest n := by
  constructor
  · intro h
    induction rest using List.reverseRecOn generalizing n with
    | nil => exact ⟨n, by simpa using h, .nil⟩
    | append_singleton rest step ih =>
      rw [← List.append_assoc, run_snoc_iff] at h
      obtain ⟨k', hk', last⟩ := h
      obtain ⟨k, hk, hrest⟩ := ih hk'
      exact ⟨k, hk, .snoc hrest last⟩
  · rintro ⟨k, h₁, h₂⟩
    exact h₁.append h₂

theorem run_cons_iff :
    Run m ((op, acts) :: rest) n ↔ ∃ k, (m.carryOut op).Runs acts k ∧ Run k rest n := by
  rw [show (op, acts) :: rest = [(op, acts)] ++ rest from rfl, run_append_iff]
  constructor
  · rintro ⟨k, hk, hrest⟩
    obtain ⟨k', hnil, last⟩ := (@run_snoc_iff m k [] op acts).mp hk
    rw [run_nil_iff] at hnil
    subst hnil
    exact ⟨k, last, hrest⟩
  · rintro ⟨k, hk, hrest⟩
    exact ⟨k, .one hk, hrest⟩

end Machine

/-- The world of a card that answers alike at all times; it keeps the history. -/
def recorder (card : Request → Outcome) : World (List Act) where
  answer acts r := (card r, acts ++ [.call r (card r)])
  publish acts e := acts ++ [.publish e]

theorem Dialog.exists_runs_recorder {α : Type} (d : Dialog α) (card : Request → Outcome)
    (prior : List Act) :
    ∃ acts, (d.run (recorder card) prior).2 = prior ++ acts ∧
      d.Runs acts (d.run (recorder card) prior).1 := by
  induction d generalizing prior with
  | done a => exact ⟨[], by simp [run], .done a⟩
  | ask r next ih =>
    obtain ⟨acts, hprior, hruns⟩ := ih (card r) (prior ++ [.call r (card r)])
    exact ⟨.call r (card r) :: acts, by simpa [run, recorder] using hprior, .ask _ _ _ _ _ hruns⟩
  | publish e next ih =>
    obtain ⟨acts, hprior, hruns⟩ := ih (prior ++ [.publish e])
    exact ⟨.publish e :: acts, by simpa [run, recorder] using hprior, .publish _ _ _ _ hruns⟩

theorem Dialog.runs_recorder {α : Type} (d : Dialog α) (card : Request → Outcome) :
    d.Runs (d.run (recorder card) []).2 (d.run (recorder card) []).1 := by
  obtain ⟨acts, hacts, hruns⟩ := d.exists_runs_recorder card []
  rw [List.nil_append] at hacts
  rwa [hacts]

/-- Operations, each with the card it meets. -/
abbrev Plan := List (Operation × (Request → Outcome))

namespace Machine

/-- Carries a plan out: the steps and the machine at the end. -/
def rehearse (m : Machine) : Plan → List (Operation × List Act) × Machine
  | [] => ([], m)
  | (op, card) :: plan =>
    let (n, acts) := (m.carryOut op).run (recorder card) []
    let (steps, k) := n.rehearse plan
    ((op, acts) :: steps, k)

theorem run_rehearse (m : Machine) (plan : Plan) :
    Run m (m.rehearse plan).1 (m.rehearse plan).2 := by
  induction plan generalizing m with
  | nil => exact .nil
  | cons step plan ih =>
    obtain ⟨op, card⟩ := step
    exact run_cons_iff.mpr ⟨_, Dialog.runs_recorder _ card, ih _⟩

end Machine

/-- A card with two networks in sight that carries every request out at once. -/
def obligingCard (r : Request) : Outcome :=
  match r.command with
  | .listDevices => .reply (.reading (.devices [⟨0, "card", 0⟩]))
  | .networkList =>
    .reply (.reading (.networks [⟨"CLEAR", 1, 0, 0, 0⟩, ⟨"Rover", 2, 0, 0, 0⟩]))
  | .deviceStatus => .reply (.reading (.radio .dataConnected none))
  | _ => .reply ⟨.success, .nothing⟩

/-- The way up to a connection against an obliging card, and some ticks more or less. -/
def ascent (ticks : Nat) : Plan :=
  (.aim .connected, obligingCard) :: List.replicate ticks (.tick, obligingCard)

end Wimax
