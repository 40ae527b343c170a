import Mathlib.Data.List.Induction
import FishMarket.Proofs.Floor.Orderly
import FishMarket.Proofs.Service.Promises
import FishMarket.Proofs.Service.Trace

/-! # Moments of the floor

Every act of a task took place at some moment of the run, which is the moves that were made before
it. What a task has done is told by induction over the moves, and what is stable passes from an
earlier moment to a later one.
-/

namespace FishMarket

/-! ## What is stable -/

namespace Market.Stable

variable {property : Market → Prop} {market after : Market}

theorem foldl_close (hstable : Stable property) (hholds : property market)
    (hconsistent : market.Consistent) (transactions : List TransactionId) :
    property (transactions.foldl close market) := by
  induction transactions generalizing market with
  | nil => exact hholds
  | cons transaction rest ih =>
      have hchange : Change market (some transaction) (market.close transaction) :=
        .closed transaction
      exact ih (hstable.change hholds hconsistent hchange) (hconsistent.change hchange)

theorem traded (hstable : Stable property) (hholds : property market)
    (hconsistent : market.Consistent) (htraded : market.Traded after) : property after := by
  cases htraded with
  | changed hchange => exact hstable.change hholds hconsistent hchange
  | settled transaction bid hfits hready => exact hstable.committed hholds hconsistent hready
  | abandoned transactions => exact hstable.foldl_close hholds hconsistent transactions

end Market.Stable

variable {Errand : Type} [Trade Errand]

theorem Orderly.play_stable {floor : Floor Errand} (horderly : Orderly floor.service floor.tasks)
    {property : Market → Prop} (hstable : Market.Stable property) (hholds : property floor.market)
    (moves : List (Move Errand)) : property (floor.play moves).market :=
  horderly.play_preserves property hholds hstable.traded moves

/-! ## What tasks do -/

namespace Floor

theorem play_cons (floor : Floor Errand) (move : Move Errand) (moves : List (Move Errand)) :
    floor.play (move :: moves) = (floor.take move).play moves :=
  rfl

theorem play_append (floor : Floor Errand) (moves later : List (Move Errand)) :
    floor.play (moves ++ later) = (floor.play moves).play later :=
  List.foldl_append

theorem play_singleton (floor : Floor Errand) (moves : List (Move Errand)) (move : Move Errand) :
    floor.play (moves ++ [move]) = (floor.play moves).take move := by
  rw [play_append]
  rfl

theorem mem_update {floor : Floor Errand} {index : Nat}
    {change : Task Errand → Service → Task Errand × Service} {task : Task Errand}
    (hmem : task ∈ (floor.update index change).tasks) :
    task ∈ floor.tasks ∨ ∃ former ∈ floor.tasks, task = (change former floor.service).1 := by
  unfold update at hmem
  split at hmem
  next former hformer =>
    rcases List.mem_or_eq_of_mem_set hmem with hbefore | hchanged
    · exact .inl hbefore
    · exact .inr ⟨former, List.mem_of_getElem? hformer, hchanged⟩
  next => exact .inl hmem

variable {service : Service}

/-- Whatever state the service was in, what is stable survives a move. -/
theorem stable_take {property : Market → Prop} (hstable : Market.Stable property)
    {floor : Floor Errand} (hholds : property floor.market)
    (hconsistent : floor.market.Consistent) (move : Move Errand) :
    property (floor.take move).market := by
  have hupdate (index : Nat) (change : Task Errand → Service → Task Errand × Service)
      (hchange : ∀ task, property (change task floor.service).2.market) :
      property (floor.update index change).market := by
    unfold update
    split
    next task _ => exact hchange task
    next => exact hholds
  cases move with
  | enter | wait => exact hholds
  | refuseBid =>
      have hchange : Market.Change floor.market none (floor.take .refuseBid).market :=
        .refusalSet true
      exact hstable.change hholds hconsistent hchange
  | serve index reception =>
      refine hupdate index _ fun ⟨errand, ⟨acts, rest⟩, dropped⟩ => ?_
      cases dropped with
      | true => exact hholds
      | false =>
          cases rest with
          | done outcome => exact hholds
          | ask call next =>
              rcases floor.service.receive_cases call reception with
                hchange | ⟨transaction, -, hready, heq⟩
              · exact hstable.change hholds hconsistent hchange
              · have hcommitted := hstable.committed hholds hconsistent hready
                exact heq.symm ▸ hcommitted
  | drop index =>
      refine hupdate index _ fun task => ?_
      unfold Task.drop
      split
      next => exact hholds
      next => exact hstable.foldl_close hholds hconsistent task.handles

theorem consistent_take {floor : Floor Errand} (hconsistent : floor.market.Consistent)
    (move : Move Errand) : (floor.take move).market.Consistent :=
  stable_take Market.Consistent.stable hconsistent hconsistent move

theorem consistent_play {floor : Floor Errand} (hconsistent : floor.market.Consistent)
    (moves : List (Move Errand)) : (floor.play moves).market.Consistent := by
  induction moves generalizing floor with
  | nil => exact hconsistent
  | cons move rest ih => exact ih (consistent_take hconsistent move)

/-- What holds of every task that comes in, and stays so with every call of the task and when it is
dropped, holds of all tasks at all times. -/
theorem task_induction {motive : List (Move Errand) → Task Errand → Prop}
    (hstays : ∀ {moves task} move, motive moves task → motive (moves ++ [move]) task)
    (henters : ∀ moves errand, motive (moves ++ [.enter errand]) (.start errand))
    (hacts : ∀ {moves errand acts call next} index reception,
      motive moves ⟨errand, ⟨acts, .ask call next⟩, false⟩ →
      let act : Act := ⟨call, reception, ((opened service).play moves : Floor Errand).service⟩
      motive (moves ++ [.serve index reception])
        ⟨errand, ⟨acts ++ [act], next act.answer⟩, false⟩)
    (hdrops : ∀ {moves task} index, motive moves task →
      motive (moves ++ [.drop index]) { task with dropped := true })
    (moves : List (Move Errand)) :
    ∀ task ∈ ((opened service).play moves : Floor Errand).tasks, motive moves task := by
  induction moves using List.reverseRecOn with
  | nil => exact nofun
  | append_singleton moves move ih =>
      have hold : ∀ task ∈ ((opened service).play moves : Floor Errand).tasks,
          motive (moves ++ [move]) task := fun task hmem => hstays move (ih task hmem)
      intro task hmem
      rw [play_singleton] at hmem
      cases move with
      | enter errand =>
          rcases List.mem_append.mp hmem with hbefore | hnew
          · exact hold task hbefore
          · exact List.mem_singleton.mp hnew ▸ henters moves errand
      | refuseBid | wait => exact hold task hmem
      | serve index reception =>
          rcases mem_update hmem with hbefore | ⟨⟨errand, ⟨acts, rest⟩, dropped⟩, hserved, rfl⟩
          · exact hold task hbefore
          · cases dropped with
            | true => exact hold _ hserved
            | false =>
                cases rest with
                | done outcome => exact hold _ hserved
                | ask call next => exact hacts index reception (ih _ hserved)
      | drop index =>
          rcases mem_update hmem with hbefore | ⟨former, hformer, rfl⟩
          · exact hold task hbefore
          · unfold Task.drop
            split
            next => exact hold former hformer
            next => exact hdrops index (ih former hformer)

/-- Every act took place at some moment of the run. -/
theorem moment_of_act (moves : List (Move Errand)) :
    ∀ task ∈ ((opened service).play moves : Floor Errand).tasks, ∀ act ∈ task.course.acts,
      ∃ moment, moment <+: moves ∧
        act.before = ((opened service).play moment : Floor Errand).service := by
  refine task_induction (motive := fun moves task => ∀ act ∈ task.course.acts,
    ∃ moment, moment <+: moves ∧ act.before = ((opened service).play moment : Floor Errand).service)
    ?_ ?_ ?_ ?_ moves
  · intro moves task move hmoments act hmem
    obtain ⟨moment, hprefix, hservice⟩ := hmoments act hmem
    exact ⟨moment, hprefix.trans (List.prefix_append _ _), hservice⟩
  · exact fun moves errand act hmem => absurd hmem List.not_mem_nil
  · intro moves errand acts call next index reception hmoments act earlier hmem
    rcases List.mem_append.mp hmem with hbefore | hnew
    · obtain ⟨moment, hprefix, hservice⟩ := hmoments earlier hbefore
      exact ⟨moment, hprefix.trans (List.prefix_append _ _), hservice⟩
    · obtain rfl := List.mem_singleton.mp hnew
      exact ⟨moves, List.prefix_append _ _, rfl⟩
  · intro moves task index hmoments act hmem
    obtain ⟨moment, hprefix, hservice⟩ := hmoments act hmem
    exact ⟨moment, hprefix.trans (List.prefix_append _ _), hservice⟩

/-- A task keeps to whatever contract its routine fulfils. -/
theorem kept_of_fulfils {Phase : Type} {moves : List (Move Errand)} {task : Task Errand}
    (hmem : task ∈ ((opened service).play moves : Floor Errand).tasks)
    {contract : Contract ServiceCall ServiceCall.Answer Phase}
    {final : Phase → Trade.Outcome task.errand → Prop} {start : Phase}
    (hfulfils : (Trade.routine task.errand).Fulfils contract final start) :
    task.course.Kept contract start := by
  have hkeeps := task_induction (motive := fun _ (task : Task Errand) =>
    ∀ (final : Phase → Trade.Outcome task.errand → Prop),
      (Trade.routine task.errand).Fulfils contract final start →
        task.course.Kept contract start ∧ task.course.Keeps contract final start)
    ?_ ?_ ?_ ?_ moves task hmem
  · exact (hkeeps final hfulfils).1
  · exact fun move hkeeps => hkeeps
  · intro moves errand final hfulfils
    refine ⟨fun before act hprefix => ?_, hfulfils⟩
    exact absurd (List.prefix_nil.mp hprefix) (List.concat_ne_nil act before)
  · intro moves errand acts call next index reception hkeeps act final hfulfils
    obtain ⟨hkept, hrest⟩ := hkeeps final hfulfils
    exact ⟨hkept.act hrest reception _, hrest.act reception _⟩
  · exact fun index hkeeps => hkeeps

/-- What a routine never asks, no task on the floor has asked or will ask. -/
theorem asks_of_asks {sort : ServiceCall → Prop} (moves : List (Move Errand)) :
    ∀ task ∈ ((opened service).play moves : Floor Errand).tasks,
      (Trade.routine task.errand).Asks sort →
        task.course.rest.Asks sort ∧ ∀ act ∈ task.course.acts, sort act.call := by
  refine task_induction (motive := fun _ (task : Task Errand) =>
    (Trade.routine task.errand).Asks sort →
      task.course.rest.Asks sort ∧ ∀ act ∈ task.course.acts, sort act.call) ?_ ?_ ?_ ?_ moves
  · exact fun move hasks => hasks
  · exact fun moves errand hasks => ⟨hasks, fun act hmem => absurd hmem List.not_mem_nil⟩
  · intro moves errand acts call next index reception hasks act hroutine
    obtain ⟨⟨hcall, hnext⟩, hacts⟩ := hasks hroutine
    refine ⟨hnext act.answer, fun other hmem => ?_⟩
    rcases List.mem_append.mp hmem with hearlier | hlast
    · exact hacts other hearlier
    · obtain rfl := List.mem_singleton.mp hlast
      exact hcall
  · exact fun index hasks => hasks

/-- The acts of a task that has ended tell the whole of its routine. -/
theorem endsBy (moves : List (Move Errand)) :
    ∀ task ∈ ((opened service).play moves : Floor Errand).tasks, ∀ outcome,
      task.result? = some outcome →
        (Trade.routine task.errand).EndsBy task.course.acts outcome := by
  have hcourse : ∀ task ∈ ((opened service).play moves : Floor Errand).tasks, ∀ later outcome,
      task.course.rest.EndsBy later outcome →
        (Trade.routine task.errand).EndsBy (task.course.acts ++ later) outcome := by
    refine task_induction (motive := fun _ (task : Task Errand) => ∀ later outcome,
      task.course.rest.EndsBy later outcome →
        (Trade.routine task.errand).EndsBy (task.course.acts ++ later) outcome) ?_ ?_ ?_ ?_ moves
    · exact fun move hends => hends
    · exact fun moves errand later outcome hends => hends
    · intro moves errand acts call next index reception hends act later outcome hlater
      have hwhole := hends (act :: later) outcome (.ask reception _ hlater)
      rw [List.append_assoc]
      exact hwhole
    · exact fun index hends => hends
  intro task hmem outcome hresult
  obtain ⟨errand, ⟨acts, rest⟩, dropped⟩ := task
  cases rest with
  | ask call next => cases hresult
  | done value =>
      obtain rfl := Option.some.inj hresult
      have hends := hcourse _ hmem [] value (.done value)
      rwa [List.append_nil] at hends

end Floor

end FishMarket
