import Wimax.Event
import Wimax.Request

/-!
Computations that talk to a card. A dialog asks requests, publishes events and ends with a result;
what it does next may hang on how a call ended. `Dialog.Runs` holds of every history the dialog can
have, whatever the card does, and `Dialog.run` carries it out in a given world.
-/

namespace Wimax

inductive Dialog (α : Type)
  | done (result : α)
  | ask (request : Request) (next : Outcome → Dialog α)
  | publish (event : Event) (next : Dialog α)

namespace Dialog

variable {α β γ σ : Type}

def bind : Dialog α → (α → Dialog β) → Dialog β
  | done a, f => f a
  | ask r next, f => ask r fun o => (next o).bind f
  | publish e next, f => publish e (next.bind f)

instance : Monad Dialog where
  pure := done
  bind := bind

@[simp]
theorem pure_eq (a : α) : (pure a : Dialog α) = done a := rfl

@[simp]
theorem done_bind (a : α) (f : α → Dialog β) : done a >>= f = f a := rfl

@[simp]
theorem ask_bind (r : Request) (next : Outcome → Dialog α) (f : α → Dialog β) :
    ask r next >>= f = ask r fun o => next o >>= f := rfl

@[simp]
theorem publish_bind (e : Event) (next : Dialog α) (f : α → Dialog β) :
    publish e next >>= f = publish e (next >>= f) := rfl

theorem bind_done (d : Dialog α) : d >>= done = d := by
  induction d with
  | done a => rfl
  | ask r next ih => simp only [ask_bind, ih]
  | publish e next ih => simp only [publish_bind, ih]

theorem bind_assoc (d : Dialog α) (f : α → Dialog β) (g : β → Dialog γ) :
    d >>= f >>= g = d >>= fun a => f a >>= g := by
  induction d with
  | done a => rfl
  | ask r next ih => simp only [ask_bind, ih]
  | publish e next ih => simp only [publish_bind, ih]

instance : LawfulMonad Dialog :=
  LawfulMonad.mk' _ bind_done (fun _ _ => rfl) bind_assoc

end Dialog

inductive Act
  | call (request : Request) (outcome : Outcome)
  | publish (event : Event)
  deriving DecidableEq, Repr

namespace Dialog

variable {α β σ : Type}

/-- `d.Runs acts a` when `d` can have the history `acts` and end with `a`. -/
inductive Runs : Dialog α → List Act → α → Prop
  | done (a : α) : Runs (done a) [] a
  | ask (r : Request) (next : Outcome → Dialog α) (o : Outcome) (acts : List Act) (a : α) :
      Runs (next o) acts a → Runs (ask r next) (.call r o :: acts) a
  | publish (e : Event) (next : Dialog α) (acts : List Act) (a : α) :
      Runs next acts a → Runs (publish e next) (.publish e :: acts) a

@[simp]
theorem runs_done_iff {a b : α} {acts : List Act} :
    (done a).Runs acts b ↔ acts = [] ∧ b = a := by
  constructor
  · rintro ⟨⟩; exact ⟨rfl, rfl⟩
  · rintro ⟨rfl, rfl⟩; exact .done _

@[simp]
theorem runs_ask_iff {r : Request} {next : Outcome → Dialog α} {acts : List Act} {a : α} :
    (ask r next).Runs acts a ↔
      ∃ o rest, acts = .call r o :: rest ∧ (next o).Runs rest a := by
  constructor
  · rintro ⟨⟩; exact ⟨_, _, rfl, ‹_›⟩
  · rintro ⟨o, rest, rfl, h⟩; exact .ask _ _ _ _ _ h

@[simp]
theorem runs_publish_iff {e : Event} {next : Dialog α} {acts : List Act} {a : α} :
    (publish e next).Runs acts a ↔ ∃ rest, acts = .publish e :: rest ∧ next.Runs rest a := by
  constructor
  · rintro ⟨⟩; exact ⟨_, rfl, ‹_›⟩
  · rintro ⟨rest, rfl, h⟩; exact .publish _ _ _ _ h

theorem runs_bind_iff {d : Dialog α} {f : α → Dialog β} {acts : List Act} {b : β} :
    (d >>= f).Runs acts b ↔
      ∃ a first rest, acts = first ++ rest ∧ d.Runs first a ∧ (f a).Runs rest b := by
  induction d generalizing acts with
  | done a =>
    constructor
    · exact fun h => ⟨a, [], acts, rfl, .done a, h⟩
    · rintro ⟨_, _, rest, rfl, ⟨⟩, h⟩; exact h
  | ask r next ih =>
    simp only [ask_bind, runs_ask_iff, ih]
    constructor
    · rintro ⟨o, _, rfl, a, first, rest, rfl, h₁, h₂⟩
      exact ⟨a, _, rest, rfl, ⟨o, first, rfl, h₁⟩, h₂⟩
    · rintro ⟨a, _, rest, rfl, ⟨o, first, rfl, h₁⟩, h₂⟩
      exact ⟨o, _, rfl, a, first, rest, rfl, h₁, h₂⟩
  | publish e next ih =>
    simp only [publish_bind, runs_publish_iff, ih]
    constructor
    · rintro ⟨_, rfl, a, first, rest, rfl, h₁, h₂⟩
      exact ⟨a, _, rest, rfl, ⟨first, rfl, h₁⟩, h₂⟩
    · rintro ⟨a, _, rest, rfl, ⟨first, rfl, h₁⟩, h₂⟩
      exact ⟨_, rfl, a, first, rest, rfl, h₁, h₂⟩

end Dialog

/-- Something that answers requests and keeps events, with a state of its own. -/
structure World (σ : Type) where
  answer : σ → Request → Outcome × σ
  publish : σ → Event → σ

namespace Dialog

variable {α β σ : Type}

def run (w : World σ) : Dialog α → σ → α × σ
  | done a, s => (a, s)
  | ask r next, s => (next (w.answer s r).1).run w (w.answer s r).2
  | publish e next, s => next.run w (w.publish s e)

theorem run_bind (w : World σ) (d : Dialog α) (f : α → Dialog β) (s : σ) :
    (d >>= f).run w s = (f (d.run w s).1).run w (d.run w s).2 := by
  induction d generalizing s with
  | done a => rfl
  | ask r next ih => exact ih _ _
  | publish e next ih => exact ih _

theorem exists_runs (w : World σ) (d : Dialog α) (s : σ) : ∃ acts, d.Runs acts (d.run w s).1 := by
  induction d generalizing s with
  | done a => exact ⟨[], .done a⟩
  | ask r next ih => exact (ih _ _).elim fun acts h => ⟨_, .ask _ _ _ _ _ h⟩
  | publish e next ih => exact (ih _).elim fun acts h => ⟨_, .publish _ _ _ _ h⟩

end Dialog

end Wimax
