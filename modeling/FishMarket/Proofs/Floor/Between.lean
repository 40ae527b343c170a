import FishMarket.Proofs.Floor.Tasks
import FishMarket.Proofs.Service.Interleaved

/-! # Between the acts of a task

The acts of a task tell what it has left to do. They are in the order of time: whatever lasts on the
floor and was so after one act of a task is still so before a later one. More lasts there than is
stable, because what is committed on the floor are settlements and nothing else.
-/

namespace FishMarket

namespace Market

/-- Whether a property of the market survives all that can be done on the floor. -/
def Lasting (property : Market → Prop) : Prop :=
  ∀ ⦃market after : Market⦄, property market → market.Consistent → market.Traded after →
    property after

theorem Stable.lasting {property : Market → Prop} (hstable : Stable property) :
    Lasting property :=
  fun _ _ hholds hconsistent htraded => hstable.traded hholds hconsistent htraded

/-- Whether a state of the market may have come before another on the floor, as far as can be told
by what lasts there. -/
def Antecedes (earlier later : Market) : Prop :=
  ∀ property, Lasting property → property earlier → property later

variable {earlier market after : Market}

theorem Antecedes.refl (market : Market) : market.Antecedes market :=
  fun _ _ hholds => hholds

theorem Antecedes.traded (hantecedes : earlier.Antecedes market)
    (hconsistent : market.Consistent) (htraded : market.Traded after) :
    earlier.Antecedes after :=
  fun property hlasting hholds =>
    hlasting (hantecedes property hlasting hholds) hconsistent htraded

end Market

/-! ## The order of time -/

namespace Course

variable {α : Type}

/-- Whether the acts of a course are in the order of time: each was made in a consistent state, and
what lasts has lasted from one to the next and up to now. -/
structure Timely (course : Course α) (market : Market) : Prop where
  found : ∀ act ∈ course.acts, act.before.market.Consistent
  since : ∀ act ∈ course.acts, act.after.market.Antecedes market
  order : course.acts.Pairwise fun first second =>
    first.after.market.Antecedes second.before.market

namespace Timely

theorem start (routine : ServiceRoutine α) (market : Market) :
    (Course.start routine).Timely market where
  found _ hmem := absurd hmem List.not_mem_nil
  since _ hmem := absurd hmem List.not_mem_nil
  order := .nil

theorem traded {course : Course α} {market after : Market} (htimely : course.Timely market)
    (hconsistent : market.Consistent) (htraded : market.Traded after) : course.Timely after :=
  { htimely with since := fun act hmem => (htimely.since act hmem).traded hconsistent htraded }

theorem act {acts : List Act} {call : ServiceCall} {next : call.Answer → ServiceRoutine α}
    {service : Service} (htimely : (⟨acts, .ask call next⟩ : Course α).Timely service.market)
    (hconsistent : service.market.Consistent) (reception : Reception) :
    let act : Act := ⟨call, reception, service⟩
    service.market.Traded act.after.market →
      (⟨acts ++ [act], next act.answer⟩ : Course α).Timely act.after.market := by
  intro act htraded
  obtain ⟨hfound, hsince, horder⟩ := htimely
  refine ⟨?_, ?_, ?_⟩
  · exact List.forall_mem_append.mpr ⟨hfound, List.forall_mem_singleton.mpr hconsistent⟩
  · refine List.forall_mem_append.mpr ⟨fun earlier hmem => ?_,
      List.forall_mem_singleton.mpr (.refl _)⟩
    exact (hsince earlier hmem).traded hconsistent htraded
  · refine List.pairwise_append.mpr ⟨horder, List.pairwise_singleton _ _, ?_⟩
    intro first hfirst last hlast
    obtain rfl := List.mem_singleton.mp hlast
    exact hsince first hfirst

end Timely

end Course

/-! ## Tasks on the floor -/

namespace Floor

variable {Errand : Type} [Trade Errand]

/-- A task has left to do what its acts leave of its errand. -/
theorem leaves {service : Service} (moves : List (Move Errand)) :
    ∀ task ∈ ((opened service).play moves : Floor Errand).tasks,
      (Trade.routine task.errand).Leaves task.course.acts task.course.rest := by
  refine task_induction (motive := fun _ (task : Task Errand) =>
    (Trade.routine task.errand).Leaves task.course.acts task.course.rest) ?_ ?_ ?_ ?_ moves
  · exact fun move hleaves => hleaves
  · exact fun moves errand => .all _
  · exact fun index reception hleaves => hleaves.act reception _
  · exact fun index hleaves => hleaves

/-- Every move leaves the acts of all tasks in the order of time. -/
theorem timely_take {floor : Floor Errand} (horderly : Orderly floor.service floor.tasks)
    (htimely : ∀ task ∈ floor.tasks, task.course.Timely floor.market) (move : Move Errand) :
    ∀ task ∈ (floor.take move).tasks, task.course.Timely (floor.take move).market := by
  have hconsistent : floor.market.Consistent := horderly.consistent
  have htraded := (horderly.take move).2
  intro task hmem
  obtain ⟨index, hindex⟩ := List.mem_iff_getElem?.mp hmem
  rcases task_cases hindex with hsame | ⟨errand, -, -, rfl⟩ |
    ⟨errand, acts, call, next, reception, rfl, hserved, rfl⟩ | ⟨former, -, hformer, rfl⟩
  · exact (htimely task (List.mem_of_getElem? hsame)).traded hconsistent htraded
  · exact .start _ _
  · have hmarket : (floor.take (.serve index reception)).market =
        (Act.after ⟨call, reception, floor.service⟩).market :=
      congrArg Service.market (take_serve hserved reception).1
    rw [hmarket] at htraded ⊢
    exact (htimely _ (List.mem_of_getElem? hserved)).act hconsistent reception htraded
  · exact (htimely former (List.mem_of_getElem? hformer)).traded hconsistent htraded

theorem timely_play (moves : List (Move Errand)) :
    ∀ task ∈ (initial.play moves : Floor Errand).tasks,
      task.course.Timely (initial.play moves : Floor Errand).market := by
  induction moves using List.reverseRecOn with
  | nil => exact nofun
  | append_singleton moves move ih =>
      rw [play_singleton]
      exact timely_take (Orderly.initial.play moves) ih move

end Floor

end FishMarket
