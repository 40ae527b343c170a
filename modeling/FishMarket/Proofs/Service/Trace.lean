import FishMarket.Proofs.Service.Course

/-! # Routines from their beginning to their end

Once a routine has ended, its acts tell the whole of it: the answers that it got determine what it
asked and what it came to. A routine that is put together from others can be read back part by part.
-/

namespace FishMarket

variable {α β ε : Type}

namespace ServiceRoutine

/-- Whether a routine ends with a value after it has made certain acts. -/
inductive EndsBy : ServiceRoutine α → List Act → α → Prop where
  | done (value : α) : EndsBy (.done value) [] value
  | ask {call : ServiceCall} {next : call.Answer → ServiceRoutine α} {acts : List Act} {value : α}
      (reception : Reception) (before : Service)
      (hrest : EndsBy (next (Act.answer ⟨call, reception, before⟩)) acts value) :
      EndsBy (.ask call next) (⟨call, reception, before⟩ :: acts) value

variable {acts : List Act}

namespace EndsBy

theorem of_bind {routine : ServiceRoutine α} {next : α → ServiceRoutine β} {value : β}
    (hends : EndsBy (routine.bind next) acts value) :
    ∃ middle earlier later, acts = earlier ++ later ∧ EndsBy routine earlier middle ∧
      EndsBy (next middle) later value := by
  induction routine generalizing acts with
  | done middle => exact ⟨middle, [], acts, rfl, .done middle, hends⟩
  | ask call rest ih =>
      cases hends with
      | ask reception before hrest =>
          obtain ⟨middle, earlier, later, rfl, hearlier, hlater⟩ := ih _ hrest
          exact ⟨middle, _ :: earlier, later, rfl, .ask reception before hearlier, hlater⟩

/-- What fails or succeeds as a whole has failed in its first part, or has gone on after it. -/
theorem of_andThen {first : ExceptT ε (Routine ServiceCall ServiceCall.Answer) α}
    {next : α → ExceptT ε (Routine ServiceCall ServiceCall.Answer) β} {outcome : Except ε β}
    (hends : EndsBy (first >>= next).run acts outcome) :
    (∃ failure, outcome = .error failure ∧ EndsBy first.run acts (.error failure)) ∨
      ∃ value earlier later, acts = earlier ++ later ∧ EndsBy first.run earlier (.ok value) ∧
        EndsBy (next value).run later outcome := by
  obtain ⟨middle, earlier, later, rfl, hfirst, hnext⟩ := of_bind hends
  cases middle with
  | ok value => exact .inr ⟨value, earlier, later, rfl, hfirst, hnext⟩
  | error failure =>
      cases hnext
      rw [List.append_nil]
      exact .inl ⟨failure, rfl, hfirst⟩

theorem of_returned {value : α} {outcome : Except ε α}
    (hends : EndsBy (pure value : ExceptT ε (Routine ServiceCall ServiceCall.Answer) α).run acts
      outcome) : acts = [] ∧ outcome = .ok value := by
  cases hends
  exact ⟨rfl, rfl⟩

/-- A call to the store that is not refused gets the answer of the store. -/
theorem of_store {call : StoreCall} {outcome : Except Failure call.Yield}
    (hends : EndsBy (Action.store call).run acts outcome)
    (hanswered : ∀ act ∈ acts, act.reception = .answered) :
    ∃ before : Service, acts = [⟨.store call, .answered, before⟩] ∧
      outcome = (before.market.answer call).1 := by
  cases hends with
  | ask reception before hrest =>
      cases hrest
      obtain rfl : reception = .answered := hanswered _ List.mem_cons_self
      exact ⟨before, rfl, rfl⟩

theorem of_found {subject : Subject} {found? : Option α} {outcome : Except Failure α}
    (hends : EndsBy (Action.found subject found?).run acts outcome) :
    acts = [] ∧ (found? = none ∧ outcome = .error (.notFound subject) ∨
      ∃ value, found? = some value ∧ outcome = .ok value) := by
  cases found? with
  | none =>
      cases hends
      exact ⟨rfl, .inl ⟨rfl, rfl⟩⟩
  | some value =>
      cases hends
      exact ⟨rfl, .inr ⟨value, rfl, rfl⟩⟩

/-- Looking for something makes the acts of the look, and fails if there is nothing. -/
theorem of_lookup {look : Action (Option α)} {subject : Subject} {outcome : Except Failure α}
    (hends : EndsBy (look >>= Action.found subject).run acts outcome) :
    (∃ failure, EndsBy look.run acts (.error failure)) ∨
      ∃ found?, EndsBy look.run acts (.ok found?) ∧
        (found? = none ∧ outcome = .error (.notFound subject) ∨
          ∃ value, found? = some value ∧ outcome = .ok value) := by
  rcases hends.of_andThen with ⟨failure, -, hfailed⟩ | ⟨found?, earlier, later, rfl, hlook, hfound⟩
  · exact .inl ⟨failure, hfailed⟩
  · obtain ⟨rfl, houtcome⟩ := hfound.of_found
    rw [List.append_nil]
    exact .inr ⟨found?, hlook, houtcome⟩

end EndsBy

end ServiceRoutine

end FishMarket
