import FishMarket.Proofs.Service.Course

/-! # Promises that are kept in the course of time

A routine that keeps to a contract when it begins still keeps to it after any number of its calls,
in the phase that these have led to, and each of these was permitted when it was made. A routine
that makes a bounded number of calls has ended once it has made as many.
-/

namespace FishMarket

variable {α β Phase : Type}

/-! ## Bounded routines -/

namespace Routine

variable {Call : Type} {Answer : Call → Type}

/-- Whether a routine asks at most so many questions, whatever the answers are. -/
def EndsWithin (bound : Nat) : Routine Call Answer α → Prop
  | done _ => True
  | ask _ next => 0 < bound ∧ ∀ answer, (next answer).EndsWithin (bound - 1)

end Routine

/-! ## Contracts -/

namespace Course

/-- The phase of a contract that the calls of a routine have led to. -/
def reached (contract : Contract ServiceCall ServiceCall.Answer Phase) (start : Phase)
    (course : Course α) : Phase :=
  course.acts.foldl (fun phase act => contract.next phase act.call act.answer) start

/-- Whether a routine still keeps to a contract. -/
def Keeps (contract : Contract ServiceCall ServiceCall.Answer Phase) (final : Phase → α → Prop)
    (start : Phase) (course : Course α) : Prop :=
  course.rest.Fulfils contract final (course.reached contract start)

/-- Whether each call that a routine has made was permitted after those before it. -/
def Kept (contract : Contract ServiceCall ServiceCall.Answer Phase) (start : Phase)
    (course : Course α) : Prop :=
  ∀ before act, before ++ [act] <+: course.acts →
    contract.Permits ((⟨before, course.rest⟩ : Course α).reached contract start) act.call

variable {contract : Contract ServiceCall ServiceCall.Answer Phase} {final : Phase → α → Prop}
  {start : Phase} {course : Course α}

theorem reached_append (acts : List Act) (act : Act) (rest : ServiceRoutine α) :
    (⟨acts ++ [act], rest⟩ : Course α).reached contract start =
      contract.next ((⟨acts, rest⟩ : Course α).reached contract start) act.call act.answer := by
  simp only [reached, List.foldl_append, List.foldl_cons, List.foldl_nil]

theorem Keeps.act {acts : List Act} {call : ServiceCall}
    {next : call.Answer → ServiceRoutine α}
    (hkeeps : (⟨acts, .ask call next⟩ : Course α).Keeps contract final start)
    (reception : Reception) (service : Service) :
    let act : Act := ⟨call, reception, service⟩
    (⟨acts ++ [act], next act.answer⟩ : Course α).Keeps contract final start := by
  intro act
  unfold Keeps
  rw [reached_append]
  exact hkeeps.2 act.answer

theorem Keeps.advance (hkeeps : course.Keeps contract final start) (reception : Reception)
    (service : Service) :
    (course.advance reception service).1.Keeps contract final start := by
  obtain ⟨acts, rest⟩ := course
  cases rest with
  | done value => exact hkeeps
  | ask call next => exact hkeeps.act reception service

/-- A routine that has ended has come to what the contract promises. -/
theorem Keeps.result (hkeeps : course.Keeps contract final start) {value : α}
    (hresult : course.result? = some value) : final (course.reached contract start) value := by
  obtain ⟨acts, rest⟩ := course
  cases rest with
  | done ended => exact Option.some.inj hresult ▸ hkeeps
  | ask call next => cases hresult

theorem Kept.act {acts : List Act} {call : ServiceCall} {next : call.Answer → ServiceRoutine α}
    (hkept : (⟨acts, .ask call next⟩ : Course α).Kept contract start)
    (hkeeps : (⟨acts, .ask call next⟩ : Course α).Keeps contract final start)
    (reception : Reception) (service : Service) :
    let act : Act := ⟨call, reception, service⟩
    (⟨acts ++ [act], next act.answer⟩ : Course α).Kept contract start := by
  intro act before earlier hprefix
  rcases List.prefix_concat_iff.mp hprefix with heq | hold
  · obtain ⟨rfl, rfl⟩ := List.append_singleton_inj.mp heq
    exact hkeeps.1
  · exact hkept before earlier hold

/-! ## Progress -/

theorem endsWithin_advance {bound : Nat} (hbound : course.rest.EndsWithin bound)
    (reception : Reception) (service : Service) :
    (course.advance reception service).1.rest.EndsWithin (bound - 1) := by
  obtain ⟨acts, rest⟩ := course
  cases rest with
  | done value => exact trivial
  | ask call next => exact hbound.2 _

theorem ended_of_endsWithin (hbound : course.rest.EndsWithin 0) :
    ∃ value, course.result? = some value := by
  obtain ⟨acts, rest⟩ := course
  cases rest with
  | done value => exact ⟨value, rfl⟩
  | ask call next => exact absurd hbound.1 (Nat.lt_irrefl 0)

end Course

end FishMarket
