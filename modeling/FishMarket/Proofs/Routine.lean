import FishMarket.Routine

/-! # Promises about routines

A routine does not know the answers that it will get, so whatever is promised about it has to hold
for all of them. The simplest promise is that it only asks questions of a certain sort. A contract
says more: which question may be asked depends on the phase that the questions and answers so far
have led to. Both kinds of promise are kept when routines are put together, and what follows from
that alone is said once for all properties that carry over.
-/

namespace FishMarket

variable {Call : Type} {Answer : Call → Type} {α β σ Phase : Type}

/-- Which questions may be asked in which phase, and the phase that an answer leads to. -/
structure Contract (Call : Type) (Answer : Call → Type) (Phase : Type) where
  Permits : Phase → Call → Prop
  next : Phase → (call : Call) → Answer call → Phase

/-- The contract that looks at everything that was asked and answered before. -/
def Contract.ofLog (permits : List ((call : Call) × Answer call) → Call → Prop) :
    Contract Call Answer (List ((call : Call) × Answer call)) where
  Permits := permits
  next log call answer := log ++ [⟨call, answer⟩]

namespace Routine

/-- The questions of a routine with their answers, in the order in which they are asked. -/
def transcript (answer : (call : Call) → σ → Answer call × σ) :
    Routine Call Answer α → σ → List ((call : Call) × Answer call)
  | done _, _ => []
  | ask call next, state =>
    let (reply, state) := answer call state
    ⟨call, reply⟩ :: (next reply).transcript answer state

theorem transcript_bind (answer : (call : Call) → σ → Answer call × σ)
    (routine : Routine Call Answer α) (next : α → Routine Call Answer β) (state : σ) :
    (routine.bind next).transcript answer state =
      routine.transcript answer state ++
        (next (routine.run answer state).1).transcript answer (routine.run answer state).2 := by
  induction routine generalizing state with
  | done value => rfl
  | ask call rest ih => exact congrArg (List.cons _) (ih _ _)

/-! ## Questions replaced by others -/

/-- Who answers the questions of a routine may do so by asking others. -/
theorem run_expand {Other : Type} {OtherAnswer : Other → Type}
    (replace : (call : Call) → Routine Other OtherAnswer (Answer call))
    (answer : (call : Other) → σ → OtherAnswer call × σ) (routine : Routine Call Answer α)
    (state : σ) :
    (routine.expand replace).run answer state =
      routine.run (fun call state => (replace call).run answer state) state := by
  induction routine generalizing state with
  | done value => rfl
  | ask call next ih => rw [expand, run_bind, ih]; rfl

theorem expand_bind {Other : Type} {OtherAnswer : Other → Type}
    (replace : (call : Call) → Routine Other OtherAnswer (Answer call))
    (routine : Routine Call Answer α) (next : α → Routine Call Answer β) :
    (routine.bind next).expand replace =
      (routine.expand replace).bind fun value => (next value).expand replace := by
  induction routine with
  | done value => rfl
  | ask call rest ih => simp only [bind, expand, ih, bind_assoc]

/-! ## Questions of one sort -/

/-- Whether a routine asks questions of one sort only, whatever the answers are. -/
def Asks (sort : Call → Prop) : Routine Call Answer α → Prop
  | done _ => True
  | ask call next => sort call ∧ ∀ answer, (next answer).Asks sort

namespace Asks

variable {sort other : Call → Prop} {routine : Routine Call Answer α}

theorem pure (value : α) : (done value : Routine Call Answer α).Asks sort := trivial

theorem bind {next : α → Routine Call Answer β} (hfirst : routine.Asks sort)
    (hnext : ∀ value, (next value).Asks sort) : (routine.bind next).Asks sort := by
  induction routine with
  | done value => exact hnext value
  | ask call rest ih => exact ⟨hfirst.1, fun answer => ih answer (hfirst.2 answer)⟩

theorem mono (hasks : routine.Asks sort) (hother : ∀ call, sort call → other call) :
    routine.Asks other := by
  induction routine with
  | done value => exact trivial
  | ask call rest ih => exact ⟨hother call hasks.1, fun answer => ih answer (hasks.2 answer)⟩

/-- What no question of a sort changes, a routine that only asks such questions does not change. -/
theorem run {answer : (call : Call) → σ → Answer call × σ} {holds : σ → Prop} {state : σ}
    (hasks : routine.Asks sort)
    (hstep : ∀ call state, sort call → holds state → holds (answer call state).2)
    (hholds : holds state) : holds (routine.run answer state).2 := by
  induction routine generalizing state with
  | done value => exact hholds
  | ask call next ih => exact ih _ (hasks.2 _) (hstep call state hasks.1 hholds)

/-- A routine that only asks questions that are answered is not broken off. -/
theorem run? {answer : (call : Call) → σ → Answer call × σ}
    {answer? : (call : Call) → σ → Option (Answer call) × σ} (hasks : routine.Asks sort)
    (hanswers : ∀ call state, sort call →
      answer? call state = (some (answer call state).1, (answer call state).2)) (state : σ) :
    routine.run? answer? state =
      (some (routine.run answer state).1, (routine.run answer state).2) := by
  induction routine generalizing state with
  | done value => rfl
  | ask call next ih =>
      rw [Routine.run?, hanswers call state hasks.1]
      exact ih _ (hasks.2 _) _

end Asks

/-! ## Routines that may fail -/

/-- Whether a property of routines that may fail carries over to what is put together from them. -/
structure Composes {ε : Type}
    (property : (α : Type) → ExceptT ε (Routine Call Answer) α → Prop) : Prop where
  returned : ∀ {α : Type} (value : α), property α (pure value)
  thrown : ∀ {α : Type} (failure : ε), property α (throw failure)
  andThen : ∀ {α β : Type} {first : ExceptT ε (Routine Call Answer) α}
    {next : α → ExceptT ε (Routine Call Answer) β}, property α first →
      (∀ value, property β (next value)) → property β (first >>= next)

namespace Composes

variable {ε : Type} {property : (α : Type) → ExceptT ε (Routine Call Answer) α → Prop}

/-- What follows a check is reached with or without it. -/
theorem checked (hcomposes : Composes property) {p : Prop} [Decidable p] {failure : ε}
    {next : PUnit → ExceptT ε (Routine Call Answer) α} (hnext : property α (next ⟨⟩)) :
    property α (if p then throw failure >>= next else next ⟨⟩) := by
  split
  next => exact hcomposes.andThen (hcomposes.thrown failure) fun _ => hnext
  next => exact hnext

theorem mapM (hcomposes : Composes property) {next : α → ExceptT ε (Routine Call Answer) β}
    (values : List α) (hnext : ∀ value, property β (next value)) :
    property (List β) (values.mapM next) := by
  induction values with
  | nil => exact hcomposes.returned []
  | cons value rest ih =>
      rw [List.mapM_cons]
      exact hcomposes.andThen (hnext value) fun _ =>
        hcomposes.andThen ih fun _ => hcomposes.returned _

theorem forM (hcomposes : Composes property) {next : α → ExceptT ε (Routine Call Answer) PUnit}
    (values : List α) (hnext : ∀ value, property PUnit (next value)) :
    property PUnit (values.forM next) := by
  induction values with
  | nil => exact hcomposes.returned PUnit.unit
  | cons value rest ih => exact hcomposes.andThen (hnext value) fun _ => ih

end Composes

/-! ## Contracts -/

/-- Whether a routine that starts in a phase keeps to a contract, whatever the answers are, and ends
in a phase and with a value that go together. -/
def Fulfils (contract : Contract Call Answer Phase) (final : Phase → α → Prop) :
    Routine Call Answer α → Phase → Prop
  | done value, phase => final phase value
  | ask call next, phase =>
    contract.Permits phase call ∧
      ∀ answer, (next answer).Fulfils contract final (contract.next phase call answer)

namespace Fulfils

variable {contract : Contract Call Answer Phase} {final : Phase → α → Prop}
  {routine : Routine Call Answer α} {phase : Phase}

theorem bind {next : α → Routine Call Answer β} {final' : Phase → β → Prop}
    (hfirst : routine.Fulfils contract final phase)
    (hnext : ∀ phase value, final phase value → (next value).Fulfils contract final' phase) :
    (routine.bind next).Fulfils contract final' phase := by
  induction routine generalizing phase with
  | done value => exact hnext phase value hfirst
  | ask call rest ih => exact ⟨hfirst.1, fun answer => ih answer (hfirst.2 answer)⟩

/-- A contract may be replaced by one that permits more, and what is promised of the end by
something weaker. -/
theorem mono {contract' : Contract Call Answer Phase} {final' : Phase → α → Prop}
    (hfulfils : routine.Fulfils contract final phase)
    (hpermits : ∀ phase call, contract.Permits phase call → contract'.Permits phase call)
    (hsame : contract'.next = contract.next)
    (hfinal : ∀ phase value, final phase value → final' phase value) :
    routine.Fulfils contract' final' phase := by
  induction routine generalizing phase with
  | done value => exact hfinal phase value hfulfils
  | ask call rest ih =>
      refine ⟨hpermits phase call hfulfils.1, fun answer => ?_⟩
      rw [hsame]
      exact ih answer (hfulfils.2 answer)

/-- A routine that keeps to a contract asks only what the contract permits at some point. -/
theorem asks {sort : Call → Prop} (hfulfils : routine.Fulfils contract final phase)
    (hpermits : ∀ phase call, contract.Permits phase call → sort call) : routine.Asks sort := by
  induction routine generalizing phase with
  | done value => exact trivial
  | ask call rest ih =>
      exact ⟨hpermits phase call hfulfils.1, fun answer => ih answer (hfulfils.2 answer)⟩

/-- A routine stays in a phase if its questions are permitted there and do not lead out of it. -/
theorem of_asks {sort : Call → Prop} (hasks : routine.Asks sort)
    (hstays : ∀ call, sort call →
      contract.Permits phase call ∧ ∀ answer, contract.next phase call answer = phase) :
    routine.Fulfils contract (fun latest _ => latest = phase) phase := by
  induction routine with
  | done value => rfl
  | ask call rest ih =>
      obtain ⟨hpermits, hnext⟩ := hstays call hasks.1
      refine ⟨hpermits, fun answer => ?_⟩
      rw [hnext]
      exact ih answer (hasks.2 answer)

/-- A routine keeps to a contract if its questions are permitted in every phase. -/
theorem of_permitted {sort : Call → Prop} (hasks : routine.Asks sort)
    (hpermits : ∀ phase call, sort call → contract.Permits phase call) :
    routine.Fulfils contract (fun _ _ => True) phase := by
  induction routine generalizing phase with
  | done value => exact trivial
  | ask call rest ih =>
      exact ⟨hpermits phase call hasks.1, fun answer => ih answer (hasks.2 answer)⟩

/-- What holds in each phase of whoever answers, as long as the questions are permitted, holds in
the phase in which a routine that keeps to the contract ends. -/
theorem run {answer : (call : Call) → σ → Answer call × σ} {holds : Phase → σ → Prop} {state : σ}
    (hfulfils : routine.Fulfils contract final phase)
    (hstep : ∀ phase call state, contract.Permits phase call → holds phase state →
      holds (contract.next phase call (answer call state).1) (answer call state).2)
    (hholds : holds phase state) :
    ∃ latest, holds latest (routine.run answer state).2 ∧
      final latest (routine.run answer state).1 := by
  induction routine generalizing phase state with
  | done value => exact ⟨phase, hholds, hfulfils⟩
  | ask call next ih => exact ih _ (hfulfils.2 _) (hstep phase call state hfulfils.1 hholds)

/-- Whoever answers, what a routine asks is permitted after what was asked before. -/
theorem transcript {permits : List ((call : Call) × Answer call) → Call → Prop}
    {final : List ((call : Call) × Answer call) → α → Prop}
    {log : List ((call : Call) × Answer call)}
    (hfulfils : routine.Fulfils (Contract.ofLog permits) final log)
    (answer : (call : Call) → σ → Answer call × σ) (state : σ) :
    (∀ before asked after, routine.transcript answer state = before ++ asked :: after →
      permits (log ++ before) asked.1) ∧
    final (log ++ routine.transcript answer state) (routine.run answer state).1 := by
  induction routine generalizing log state with
  | done value =>
      refine ⟨fun before asked after hsplit => ?_, ?_⟩
      · exact absurd hsplit.symm (List.append_ne_nil_of_right_ne_nil _ (List.cons_ne_nil _ _))
      · rw [Routine.transcript, List.append_nil]
        exact hfulfils
  | ask call next ih =>
      obtain ⟨hpermits, hnext⟩ := hfulfils
      obtain ⟨hlater, hfinal⟩ := ih _ (hnext (answer call state).1) (answer call state).2
      constructor
      · intro before asked after hsplit
        cases before with
        | nil =>
            obtain ⟨rfl, -⟩ := List.cons.inj hsplit
            rw [List.append_nil]
            exact hpermits
        | cons first rest =>
            obtain ⟨rfl, hrest⟩ := List.cons.inj hsplit
            have hasked := hlater rest asked after hrest
            rwa [Contract.ofLog, List.append_assoc] at hasked
      · rwa [Contract.ofLog, List.append_assoc] at hfinal

end Fulfils

end Routine

end FishMarket
