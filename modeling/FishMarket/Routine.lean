/-! # Routines

A routine asks questions, one after the other, and ends with a value. What it asks next depends on
the answers it has got, and who answers is left open: the store of the market, a database behind a
wire, or a store that is disturbed on purpose. Between two questions anything may happen to the one
who answers. A question may also break the routine off, which then has no value.
-/

namespace FishMarket

/-- A computation that asks questions, each of which has its own type of answers. -/
inductive Routine (Call : Type) (Answer : Call → Type) (α : Type) : Type where
  /-- The routine has ended. -/
  | done (value : α)
  /-- The routine asks and goes on with the answer. -/
  | ask (call : Call) (next : Answer call → Routine Call Answer α)

namespace Routine

variable {Call : Type} {Answer : Call → Type} {α β γ σ : Type}

/-- Goes on with another routine when the first has ended. -/
def bind : Routine Call Answer α → (α → Routine Call Answer β) → Routine Call Answer β
  | done value, next => next value
  | ask call rest, next => ask call fun answer => (rest answer).bind next

instance : Monad (Routine Call Answer) where
  pure := done
  bind := bind

theorem bind_done (routine : Routine Call Answer α) : routine.bind done = routine := by
  induction routine with
  | done value => rfl
  | ask call rest ih => simp only [bind, ih]

theorem bind_assoc (routine : Routine Call Answer α) (first : α → Routine Call Answer β)
    (second : β → Routine Call Answer γ) :
    (routine.bind first).bind second = routine.bind fun value => (first value).bind second := by
  induction routine with
  | done value => rfl
  | ask call rest ih => simp only [bind, ih]

instance : LawfulMonad (Routine Call Answer) :=
  LawfulMonad.mk' (Routine Call Answer) bind_done (fun _ _ => rfl) bind_assoc

/-- The routine that asks one question. -/
def request (call : Call) : Routine Call Answer (Answer call) :=
  ask call done

/-- Lets someone with a state answer all questions. -/
def run (answer : (call : Call) → σ → Answer call × σ) :
    Routine Call Answer α → σ → α × σ
  | done value, state => (value, state)
  | ask call next, state =>
    let (reply, state) := answer call state
    (next reply).run answer state

/-- Lets someone with a state answer the questions, as long as there is an answer. -/
def run? (answer? : (call : Call) → σ → Option (Answer call) × σ) :
    Routine Call Answer α → σ → Option α × σ
  | done value, state => (some value, state)
  | ask call next, state =>
    match answer? call state with
    | (some reply, state) => (next reply).run? answer? state
    | (none, state) => (none, state)

/-- Lets a monad answer all questions. -/
def interpret {m : Type → Type} [Monad m] (answer : (call : Call) → m (Answer call)) :
    Routine Call Answer α → m α
  | done value => pure value
  | ask call next => do
    let reply ← answer call
    (next reply).interpret answer

/-- Replaces each question by a routine that asks others and ends with an answer. -/
def expand {Call' : Type} {Answer' : Call' → Type}
    (answer : (call : Call) → Routine Call' Answer' (Answer call)) :
    Routine Call Answer α → Routine Call' Answer' α
  | done value => done value
  | ask call next => (answer call).bind fun reply => (next reply).expand answer

theorem run_bind (answer : (call : Call) → σ → Answer call × σ) (routine : Routine Call Answer α)
    (next : α → Routine Call Answer β) (state : σ) :
    (routine.bind next).run answer state =
      let ended := routine.run answer state
      (next ended.1).run answer ended.2 := by
  induction routine generalizing state with
  | done value => rfl
  | ask call rest ih => exact ih _ _

theorem run?_bind (answer? : (call : Call) → σ → Option (Answer call) × σ)
    (routine : Routine Call Answer α) (next : α → Routine Call Answer β) (state : σ) :
    (routine.bind next).run? answer? state =
      match routine.run? answer? state with
      | (some value, state) => (next value).run? answer? state
      | (none, state) => (none, state) := by
  induction routine generalizing state with
  | done value => rfl
  | ask call rest ih =>
      simp only [bind, run?]
      split
      next reply after _ => exact ih reply after
      next => rfl

end Routine

end FishMarket
