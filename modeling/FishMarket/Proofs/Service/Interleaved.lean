import Mathlib.Data.List.Chain
import FishMarket.Proofs.Settlement.Deletion

/-! # Between the acts of a routine

A routine among others can be taken apart at any moment: its acts so far tell what it has left to
do, and whatever lasts and was so after one of its acts is still so before a later one. Where nobody
comes in between, each act finds the service as the one before has left it.
-/

namespace FishMarket

variable {α : Type}

namespace ServiceRoutine

/-- Whether a routine has a certain rest left to do after it has made certain acts. -/
inductive Leaves : ServiceRoutine α → List Act → ServiceRoutine α → Prop where
  | all (routine : ServiceRoutine α) : Leaves routine [] routine
  | ask {call : ServiceCall} {next : call.Answer → ServiceRoutine α} {acts : List Act}
      {rest : ServiceRoutine α} (reception : Reception) (before : Service)
      (hrest : Leaves (next (Act.answer ⟨call, reception, before⟩)) acts rest) :
      Leaves (.ask call next) (⟨call, reception, before⟩ :: acts) rest

/-- What is left after one more act. -/
theorem Leaves.act {routine : ServiceRoutine α} {acts : List Act} {call : ServiceCall}
    {next : call.Answer → ServiceRoutine α} (hleaves : routine.Leaves acts (.ask call next))
    (reception : Reception) (before : Service) :
    let act : Act := ⟨call, reception, before⟩
    routine.Leaves (acts ++ [act]) (next act.answer) := by
  intro act
  generalize hasked : Routine.ask call next = asked at hleaves
  induction hleaves with
  | all routine => exact hasked ▸ .ask reception before (.all _)
  | ask earlier found _ ih => exact .ask earlier found (ih hasked)

/-- A routine that calls the store next, and is not refused, goes on with the answer of the store. -/
theorem Leaves.of_store {call : StoreCall} {next : call.Answer → ServiceRoutine α}
    {acts : List Act} {rest : ServiceRoutine α}
    (hleaves : Leaves (.ask (.store call) next) acts rest)
    (hanswered : ∀ act ∈ acts, act.reception = .answered) :
    acts = [] ∧ rest = .ask (.store call) next ∨
      ∃ before : Service, ∃ later, acts = ⟨.store call, .answered, before⟩ :: later ∧
        (next (before.market.answer call).1).Leaves later rest ∧
        ∀ act ∈ later, act.reception = .answered := by
  cases hleaves with
  | all => exact .inl ⟨rfl, rfl⟩
  | ask reception before hrest =>
      obtain ⟨hfirst, hlater⟩ := List.forall_mem_cons.mp hanswered
      obtain rfl : reception = .answered := hfirst
      exact .inr ⟨before, _, rfl, hrest, hlater⟩

theorem Leaves.of_done {value : α} {acts : List Act} {rest : ServiceRoutine α}
    (hleaves : Leaves (.done value) acts rest) : acts = [] ∧ rest = .done value := by
  cases hleaves
  exact ⟨rfl, rfl⟩

end ServiceRoutine

/-- Whether a state of the market may have come before another, as far as can be told by what
lasts. -/
def Market.Precedes (earlier later : Market) : Prop :=
  ∀ property, Stable property → property earlier → property later

namespace Interleaving

variable {interleaving : Interleaving α}

/-! ## What is left to do -/

theorem leaves_take {routine : ServiceRoutine α}
    (hleaves : routine.Leaves interleaving.course.acts interleaving.course.rest) (turn : Turn) :
    routine.Leaves (interleaving.take turn).course.acts (interleaving.take turn).course.rest := by
  cases turn with
  | own reception =>
      obtain ⟨⟨acts, rest⟩, service⟩ := interleaving
      cases rest with
      | done value => exact hleaves
      | ask call next => exact hleaves.act reception service
  | other call reception => exact interleaving.course_take_other call reception ▸ hleaves
  | refuseBid | wait elapsed => exact hleaves

/-- At any moment a routine has left to do what its acts leave. -/
theorem leaves_play {routine : ServiceRoutine α}
    (hleaves : routine.Leaves interleaving.course.acts interleaving.course.rest)
    (turns : List Turn) :
    routine.Leaves (interleaving.play turns).course.acts
      (interleaving.play turns).course.rest := by
  induction turns generalizing interleaving with
  | nil => exact hleaves
  | cons turn rest ih => exact ih (leaves_take hleaves turn)

/-- As long as a routine gets no turn it does not go on. -/
theorem course_play_others (turns : List Turn) (hothers : ∀ turn ∈ turns, turn.isOwn = false) :
    (interleaving.play turns).course = interleaving.course := by
  induction turns generalizing interleaving with
  | nil => rfl
  | cons turn rest ih =>
      obtain ⟨hturn, hrest⟩ := List.forall_mem_cons.mp hothers
      refine (ih hrest).trans ?_
      cases turn with
      | own reception => cases hturn
      | other call reception => exact interleaving.course_take_other call reception
      | refuseBid | wait elapsed => rfl

/-! ## What lasts from one act to the next -/

/-- Whether the acts of a routine are in the order of time: each was made in a consistent state,
and what lasts has lasted from one to the next and up to now. -/
structure Timely (interleaving : Interleaving α) : Prop where
  consistent : interleaving.service.market.Consistent
  found : ∀ act ∈ interleaving.course.acts, act.before.market.Consistent
  since : ∀ act ∈ interleaving.course.acts,
    act.after.market.Precedes interleaving.service.market
  order : interleaving.course.acts.Pairwise fun first second =>
    first.after.market.Precedes second.before.market

namespace Timely

theorem start (routine : ServiceRoutine α) : (Interleaving.start routine).Timely where
  consistent := .initial
  found _ hmem := absurd hmem List.not_mem_nil
  since _ hmem := absurd hmem List.not_mem_nil
  order := .nil

/-- After a turn of somebody else what has lasted so far lasts on. -/
theorem foreign (htimely : interleaving.Timely) {turn : Turn}
    (hcourse : (interleaving.take turn).course = interleaving.course) :
    (interleaving.take turn).Timely where
  consistent := take_stable Market.Consistent.stable htimely.consistent htimely.consistent turn
  found := hcourse ▸ htimely.found
  since := by
    rw [hcourse]
    intro act hmem property hstable hholds
    have hnow := htimely.since act hmem property hstable hholds
    exact take_stable hstable hnow htimely.consistent turn
  order := hcourse ▸ htimely.order

theorem own (htimely : interleaving.Timely) (reception : Reception) :
    (interleaving.take (.own reception)).Timely := by
  obtain ⟨⟨acts, rest⟩, service⟩ := interleaving
  cases rest with
  | done value => exact htimely
  | ask call next =>
      obtain ⟨hconsistent, hfound, hsince, horder⟩ := htimely
      refine ⟨Service.consistent_receive hconsistent call reception, ?_, ?_, ?_⟩
      · exact List.forall_mem_append.mpr ⟨hfound, List.forall_mem_singleton.mpr hconsistent⟩
      · refine List.forall_mem_append.mpr ⟨fun act hmem property hstable hholds => ?_,
          List.forall_mem_singleton.mpr fun _ _ hholds => hholds⟩
        have hnow := hsince act hmem property hstable hholds
        exact Service.receive_stable hstable hnow hconsistent call reception
      · refine List.pairwise_append.mpr ⟨horder, List.pairwise_singleton _ _, ?_⟩
        intro first hfirst last hlast
        obtain rfl := List.mem_singleton.mp hlast
        exact hsince first hfirst

theorem take (htimely : interleaving.Timely) (turn : Turn) :
    (interleaving.take turn).Timely := by
  cases turn with
  | own reception => exact htimely.own reception
  | other call reception => exact htimely.foreign (interleaving.course_take_other call reception)
  | refuseBid | wait elapsed => exact htimely.foreign rfl

theorem play (htimely : interleaving.Timely) (turns : List Turn) :
    (interleaving.play turns).Timely := by
  induction turns generalizing interleaving with
  | nil => exact htimely
  | cons turn rest ih => exact ih (htimely.take turn)

end Timely

/-! ## Routines that nobody interrupts -/

/-- Whether each act of a routine finds the service as the act before it has left it. -/
structure Unbroken (interleaving : Interleaving α) : Prop where
  chain : interleaving.course.acts.IsChain fun first second => second.before = first.after
  last : ∀ act ∈ interleaving.course.acts.getLast?, act.after = interleaving.service

namespace Unbroken

theorem of_idle (hidle : interleaving.course.acts = []) : interleaving.Unbroken where
  chain := hidle ▸ .nil
  last _ hlast := by rw [hidle] at hlast; cases hlast

theorem own (hunbroken : interleaving.Unbroken) (reception : Reception) :
    (interleaving.take (.own reception)).Unbroken := by
  obtain ⟨⟨acts, rest⟩, service⟩ := interleaving
  cases rest with
  | done value => exact hunbroken
  | ask call next =>
      obtain ⟨hchain, hlast⟩ := hunbroken
      refine ⟨List.isChain_append.mpr ⟨hchain, .singleton _, fun first hfirst second hsecond => ?_⟩,
        fun act hact => ?_⟩
      · obtain rfl := Option.some.inj hsecond
        exact (hlast first hfirst).symm
      · obtain rfl := Option.some.inj (List.getLast?_concat.symm.trans hact)
        rfl

theorem play_own (hunbroken : interleaving.Unbroken) (reception : Reception) (count : Nat) :
    (interleaving.play (List.replicate count (.own reception))).Unbroken := by
  induction count generalizing interleaving with
  | zero => exact hunbroken
  | succ count ih => exact ih (hunbroken.own reception)

/-- A routine that begins after others and then has all turns to itself is not interrupted. -/
theorem start (routine : ServiceRoutine α) {others : List Turn}
    (hothers : ∀ turn ∈ others, turn.isOwn = false) (reception : Reception) (count : Nat) :
    ((Interleaving.start routine).play
      (others ++ List.replicate count (.own reception))).Unbroken := by
  rw [play_append]
  have hcourse : ((Interleaving.start routine).play others).course = .start routine :=
    course_play_others others hothers
  exact (of_idle (hcourse ▸ rfl)).play_own reception count

end Unbroken

end Interleaving

end FishMarket
