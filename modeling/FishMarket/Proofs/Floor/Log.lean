import FishMarket.Proofs.Floor.Moments

/-! # The log of the floor

The acts of all tasks in the order in which they were made. Nothing else that happens on the floor
touches what is on record, so the log tells how every row came about.
-/

namespace FishMarket

variable {Errand : Type} [Trade Errand]

/-- The call that a task makes when it is served. -/
def Task.pending? (task : Task Errand) : Option ServiceCall :=
  match task.dropped, task.course.rest with
  | false, .ask call _ => some call
  | _, _ => none

theorem Task.sort_of_pending {task : Task Errand} {sort : ServiceCall → Prop} {call : ServiceCall}
    (hasks : task.course.rest.Asks sort) (hpending : task.pending? = some call) : sort call := by
  obtain ⟨errand, ⟨acts, rest⟩, dropped⟩ := task
  cases dropped with
  | true => cases hpending
  | false =>
      cases rest with
      | done outcome => cases hpending
      | ask asked next =>
          obtain rfl := Option.some.inj hpending
          exact hasks.1

namespace Floor

/-- The act that a move consists in. -/
def act? (floor : Floor Errand) : Move Errand → Option Act
  | .serve index reception =>
    (floor.tasks[index]?.bind Task.pending?).map fun call => ⟨call, reception, floor.service⟩
  | _ => none

/-- The acts that moves consist in. -/
def log (floor : Floor Errand) : List (Move Errand) → List Act
  | [] => []
  | move :: rest => (floor.act? move).toList ++ (floor.take move).log rest

theorem log_append (floor : Floor Errand) (moves later : List (Move Errand)) :
    floor.log (moves ++ later) = floor.log moves ++ (floor.play moves).log later := by
  induction moves generalizing floor with
  | nil => rfl
  | cons move rest ih =>
      rw [List.cons_append, log, ih, log, List.append_assoc]
      rfl

theorem log_singleton (floor : Floor Errand) (move : Move Errand) :
    floor.log [move] = (floor.act? move).toList :=
  List.append_nil _

/-- A move is the next act of a task, or it leaves everything on record as it is. -/
theorem take_cases (floor : Floor Errand) (move : Move Errand) :
    (∃ act, floor.act? move = some act ∧ act.before = floor.service ∧
      (floor.take move).service = act.after ∧
      (∃ index, move = .serve index act.reception) ∧
      ∃ task ∈ floor.tasks, task.pending? = some act.call) ∨
    floor.act? move = none ∧ (floor.take move).market.entities = floor.market.entities := by
  cases move with
  | enter | refuseBid | wait => exact .inr ⟨rfl, rfl⟩
  | drop index =>
      refine .inr ⟨rfl, ?_⟩
      simp only [take, update]
      split
      next task _ =>
        simp only [Task.drop, market]
        split
        next => rfl
        next =>
          change (task.handles.foldl Market.close floor.service.market).entities = _
          rw [Market.foldl_close_eq]
          rfl
      next => rfl
  | serve index reception =>
      simp only [take, update, act?]
      cases hfound : floor.tasks[index]? with
      | none => exact .inr ⟨rfl, rfl⟩
      | some task =>
          have hmem := List.mem_of_getElem? hfound
          obtain ⟨errand, ⟨acts, rest⟩, dropped⟩ := task
          cases dropped with
          | true => exact .inr ⟨rfl, rfl⟩
          | false =>
              cases rest with
              | done outcome => exact .inr ⟨rfl, rfl⟩
              | ask call next =>
                  exact .inl ⟨⟨call, reception, floor.service⟩, rfl, rfl, rfl, ⟨index, rfl⟩, _,
                    hmem, rfl⟩

end Floor

end FishMarket
