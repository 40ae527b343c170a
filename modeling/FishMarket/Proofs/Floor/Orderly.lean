import Mathlib.Data.List.Lattice
import FishMarket.Proofs.Floor.Basic
import FishMarket.Proofs.Market.Stability

/-! # Order on the floor

Every task has handles of its own, so no task can do anything to what another has staged. Whatever
move is made, all tasks still stand where their acts have brought them, and the ledger holds the
bids that the tasks have settled. To the market itself only two things can happen: a change, or the
commit of a settlement.
-/

namespace FishMarket

namespace Market

variable {market after : Market}

/-- What a move can do to the market. -/
inductive Traded (market : Market) : Market → Prop where
  | changed {named : Option TransactionId} {after : Market}
      (hchange : Change market named after) : Traded market after
  | settled (transaction : TransactionId) (bid : Bid)
      (hfits : market.Fits (.staged transaction bid)) (hready : market.Committable transaction) :
      Traded market (market.committed transaction)
  | abandoned (transactions : List TransactionId) :
      Traded market (transactions.foldl close market)

theorem Traded.refl (market : Market) : market.Traded market :=
  .changed (.nothing : Change market none market)

/-- Giving up transactions touches nothing but what is staged. -/
theorem foldl_close_eq (market : Market) (transactions : List TransactionId) :
    transactions.foldl close market =
      { market with staged := transactions.foldl Table.erase market.staged } := by
  induction transactions generalizing market with
  | nil => rfl
  | cons transaction rest ih =>
      rw [List.foldl_cons, ih]
      rfl

theorem Consistent.foldl_close (hconsistent : market.Consistent)
    (transactions : List TransactionId) : (transactions.foldl close market).Consistent := by
  induction transactions generalizing market with
  | nil => exact hconsistent
  | cons transaction rest ih => exact ih (hconsistent.change (.closed transaction))

theorem Fits.ledger_committed {transaction : TransactionId} {bid : Bid}
    (hfits : market.Fits (.staged transaction bid)) :
    (market.committed transaction).ledger = market.ledger ++ [bid] :=
  congrArg Entities.ledger hfits.entities_committed

end Market

namespace Settlement

variable {phase : Settlement} {call : ServiceCall} {service : Service}

/-- A plain call makes a change. -/
theorem change_of_plain (hplain : call.IsPlain) (service : Service) (reception : Reception) :
    Market.Change service.market call.transaction? (service.receive call reception).2.market := by
  rcases service.receive_cases call reception with hchange | ⟨transaction, rfl, -, -⟩
  · exact hchange
  · cases hplain.2

/-- Whoever keeps to the protocol makes changes, or commits a settlement. -/
theorem Admits.traded (hadmits : Admits phase call) (hfits : service.market.Fits phase)
    (reception : Reception) :
    service.market.Traded (service.receive call reception).2.market := by
  rcases service.receive_cases call reception with hchange | ⟨transaction, rfl, hready, heq⟩
  · exact .changed hchange
  · rcases hadmits.cases with ⟨-, hplain⟩ | ⟨place, now, hplaces⟩
    · cases hplain.2
    · rw [heq]
      cases hplaces with
      | commit _ bid => exact .settled transaction bid hfits hready

/-- The ledger grows by the bid of a settlement when that is settled, and at no other time. -/
theorem Admits.ledger (hadmits : Admits phase call) (hfits : service.market.Fits phase)
    (reception : Reception) :
    let reply := service.receive call reception
    reply.2.market.ledger = service.market.ledger ∧
        (phase.after call reply.1).settled? = phase.settled? ∨
      ∃ bid, reply.2.market.ledger = service.market.ledger ++ [bid] ∧
        phase.settled? = none ∧ (phase.after call reply.1).settled? = some bid := by
  intro reply
  rcases hadmits.cases with ⟨rfl, hplain⟩ | ⟨place, now, hplaces⟩
  · rw [after_plain hplain]
    exact .inl ⟨(change_of_plain hplain service reception).ledger_eq, rfl⟩
  · obtain ⟨hstride, -⟩ := hplaces.stride hfits reception
    cases hstride with
    | hidden hentities _ _ hbefore hafter =>
        exact .inl ⟨congrArg Market.Entities.ledger hentities, hafter.trans hbefore.symm⟩
    | settles transaction bid hphase _ hservice _ _ hafter =>
        subst hphase
        refine .inr ⟨bid, ?_, rfl, hafter ▸ rfl⟩
        rw [hservice]
        exact hfits.ledger_committed
    | forgets bid hphase _ hmarket _ _ hafter =>
        subst hphase
        exact .inl ⟨congrArg Market.ledger hmarket, hafter ▸ rfl⟩

end Settlement

/-- The ledger grows by the bid of a routine when that is settled, and at no other of its acts. -/
theorem Course.Sound.ledger_act {α : Type} {permits : Settlement → ServiceCall → Prop}
    {final : Settlement → α → Prop}
    (hpermits : ∀ phase call, permits phase call → Settlement.Admits phase call)
    {acts : List Act} {call : ServiceCall} {next : call.Answer → ServiceRoutine α}
    {service : Service}
    (hsound : (⟨acts, .ask call next⟩ : Course α).Sound permits final service.market)
    (reception : Reception) :
    let act : Act := ⟨call, reception, service⟩
    let course : Course α := ⟨acts, .ask call next⟩
    let course' : Course α := ⟨acts ++ [act], next act.answer⟩
    act.after.market.ledger = service.market.ledger ∧ course'.settled? = course.settled? ∨
      ∃ bid, act.after.market.ledger = service.market.ledger ++ [bid] ∧
        course.settled? = none ∧ course'.settled? = some bid := by
  intro act course course'
  have hbefore : course.settled? = course.phase.settled? := hsound.settled?_eq
  have hafter : course'.settled? = (course.phase.after call act.answer).settled? := by
    rw [(hsound.act hpermits reception).settled?_eq, Course.phase_append]
    rfl
  rw [hbefore, hafter]
  exact (hpermits _ call hsound.promise.1).ledger hsound.fits reception

theorem Course.Sound.foldl_close {α : Type} {permits : Settlement → ServiceCall → Prop}
    {final : Settlement → α → Prop} {course : Course α} {market : Market}
    (hsound : course.Sound permits final market) (hhandled : market.Handled)
    {transactions : List TransactionId} (hdisjoint : transactions.Disjoint course.handles) :
    course.Sound permits final (transactions.foldl Market.close market) := by
  induction transactions generalizing market with
  | nil => exact hsound
  | cons transaction rest ih =>
      have hchange : Market.Change market (some transaction) (market.close transaction) :=
        .closed transaction
      refine ih (hsound.change hhandled hchange ?_) (hhandled.change hchange) ?_
      · rintro other hother hsame
        obtain rfl := Option.some.inj hsame
        exact hdisjoint List.mem_cons_self hother
      · exact fun other hmem => hdisjoint (List.mem_cons_of_mem _ hmem)

/-! ## The tasks and the market -/

variable {Errand : Type} [Trade Errand]

/-- Whether a task stands where its acts have brought it. One that was dropped has not ended, and
what it had staged is gone. -/
structure Task.Sound (task : Task Errand) (market : Market) : Prop where
  faithful : task.course.Faithful (Trade.Permits task.errand) (Trade.Concludes task.errand)
  fits : task.dropped = false → market.Fits task.course.phase
  stopped : task.dropped = true → task.result? = none

namespace Task.Sound

variable {task : Task Errand} {market after : Market}

theorem running (hsound : task.Sound market) (hrunning : task.dropped = false) :
    task.course.Sound (Trade.Permits task.errand) (Trade.Concludes task.errand) market :=
  ⟨hsound.faithful, hsound.fits hrunning⟩

theorem imp (hsound : task.Sound market)
    (hcourse : task.course.Sound (Trade.Permits task.errand) (Trade.Concludes task.errand) market →
      task.course.Sound (Trade.Permits task.errand) (Trade.Concludes task.errand) after) :
    task.Sound after :=
  { hsound with fits := fun hrunning => (hcourse (hsound.running hrunning)).fits }

end Task.Sound

/-- What holds of the service and the tasks at all times. -/
structure Orderly (service : Service) (tasks : List (Task Errand)) : Prop where
  consistent : service.market.Consistent
  sound : ∀ task ∈ tasks, task.Sound service.market
  issued : ∀ task ∈ tasks, ∀ transaction ∈ task.handles,
    transaction ≤ service.market.lastTransaction
  apart : tasks.Pairwise fun task other => task.handles.Disjoint other.handles
  recorded : service.market.ledger.Perm (tasks.filterMap Task.settled?)

namespace Orderly

variable {service : Service} {tasks others : List (Task Errand)} {task : Task Errand}

/-- The order in which tasks have come in does not matter. -/
theorem perm (horderly : Orderly service tasks) (hperm : tasks.Perm others) :
    Orderly service others where
  consistent := horderly.consistent
  sound task hmem := horderly.sound task (hperm.mem_iff.mpr hmem)
  issued task hmem := horderly.issued task (hperm.mem_iff.mpr hmem)
  apart := (hperm.pairwise_iff fun hdisjoint => List.Disjoint.symm hdisjoint).mp horderly.apart
  recorded := horderly.recorded.trans (hperm.filterMap _)

theorem initial : Orderly Service.initial ([] : List (Task Errand)) where
  consistent := .initial
  sound := nofun
  issued := nofun
  apart := .nil
  recorded := .nil

/-- Nothing happens to the tasks when the market changes in a way that names no transaction. -/
theorem change (horderly : Orderly service tasks) {service' : Service}
    (hchange : Market.Change service.market none service'.market) : Orderly service' tasks where
  consistent := horderly.consistent.change hchange
  sound task hmem := (horderly.sound task hmem).imp fun hcourse =>
    hcourse.change horderly.consistent.handled hchange nofun
  issued task hmem transaction hhandle :=
    Int.le_trans (horderly.issued task hmem transaction hhandle) hchange.lastTransaction_le
  apart := horderly.apart
  recorded := hchange.ledger_eq ▸ horderly.recorded

theorem enter (horderly : Orderly service tasks) (errand : Errand) :
    Orderly service (.start errand :: tasks) where
  consistent := horderly.consistent
  sound := List.forall_mem_cons.mpr
    ⟨⟨.start (Trade.fulfils errand), fun _ => nofun, nofun⟩, horderly.sound⟩
  issued := List.forall_mem_cons.mpr ⟨nofun, horderly.issued⟩
  apart := List.pairwise_cons.mpr ⟨fun _ _ => List.disjoint_nil_left _, horderly.apart⟩
  recorded := horderly.recorded

theorem recorded_kept {ledger ledger' : List Bid} {task' : Task Errand}
    (hrecorded : ledger.Perm ((task :: others).filterMap Task.settled?))
    (hledger : ledger' = ledger) (hkept : task'.settled? = task.settled?) :
    ledger'.Perm ((task' :: others).filterMap Task.settled?) := by
  rw [List.filterMap_cons] at hrecorded ⊢
  rw [hledger, hkept]
  exact hrecorded

theorem recorded_settled {ledger ledger' : List Bid} {task' : Task Errand} {bid : Bid}
    (hrecorded : ledger.Perm ((task :: others).filterMap Task.settled?))
    (hledger : ledger' = ledger ++ [bid]) (hnone : task.settled? = none)
    (hsome : task'.settled? = some bid) :
    ledger'.Perm ((task' :: others).filterMap Task.settled?) := by
  rw [List.filterMap_cons_none hnone] at hrecorded
  rw [List.filterMap_cons_some hsome, hledger]
  exact (List.perm_append_singleton bid ledger).trans (hrecorded.cons bid)

/-- The next call of a task leaves the other tasks where they are. -/
theorem act {errand : Errand} {acts : List Act} {call : ServiceCall}
    {next : call.Answer → ServiceRoutine (Trade.Outcome errand)}
    (horderly : Orderly service (⟨errand, ⟨acts, .ask call next⟩, false⟩ :: others))
    (reception : Reception) :
    let act : Act := ⟨call, reception, service⟩
    Orderly act.after (⟨errand, ⟨acts ++ [act], next act.answer⟩, false⟩ :: others) := by
  intro act
  obtain ⟨hconsistent, hsounds, hissueds, hapart, hrecorded⟩ := horderly
  obtain ⟨hsound, hsounds⟩ := List.forall_mem_cons.mp hsounds
  obtain ⟨hissued, hissueds⟩ := List.forall_mem_cons.mp hissueds
  obtain ⟨hdisjoint, hapart⟩ := List.pairwise_cons.mp hapart
  have hsound := hsound.running rfl
  have hsound' := hsound.act (Trade.admits errand) reception
  have hadmits := Trade.admits errand _ call hsound.promise.1
  have hgrows := service.lastTransaction_le_receive call reception
  have hhandles : ∀ transaction ∈ (⟨acts ++ [act], next act.answer⟩ : Course _).handles,
      transaction ∈ (⟨acts, .ask call next⟩ : Course _).handles ∨
        transaction = service.market.lastTransaction + 1 ∧
          act.after.market.lastTransaction = transaction := by
    intro transaction hmem
    rw [Course.handles_append] at hmem
    rcases List.mem_append.mp hmem with hold | hnew
    · exact .inl hold
    · exact .inr (Service.receive_begun (Option.mem_toList.mp hnew))
  refine ⟨?_, ?_, ?_, ?_, ?_⟩
  · exact Service.consistent_receive hconsistent call reception
  · refine List.forall_mem_cons.mpr
      ⟨⟨hsound'.toFaithful, fun _ => hsound'.fits, nofun⟩, fun other hmem => ?_⟩
    -- the call names at most the open transaction of its own task
    refine (hsounds other hmem).imp fun hcourse => ?_
    refine hcourse.receive hconsistent.handled ?_ reception
    intro transaction hother hnamed
    have hown := hsound.held transaction (hadmits.transaction?_eq hnamed)
    exact hdisjoint other hmem hown hother
  · refine List.forall_mem_cons.mpr ⟨fun transaction hmem => ?_, fun other hmem transaction h => ?_⟩
    · rcases hhandles transaction hmem with hold | ⟨-, hlast⟩
      · exact Int.le_trans (hissued transaction hold) hgrows
      · exact Int.le_of_eq hlast.symm
    · exact Int.le_trans (hissueds other hmem transaction h) hgrows
  · refine List.pairwise_cons.mpr ⟨fun other hmem transaction hown hother => ?_, hapart⟩
    rcases hhandles transaction hown with hold | ⟨hnext, -⟩
    · exact hdisjoint other hmem hold hother
    · -- a new handle is greater than any that was given out
      have hle := hissueds other hmem transaction hother
      rw [hnext] at hle
      exact absurd hle (Int.not_le.mpr (Int.lt_succ _))
  · rcases hsound.ledger_act (Trade.admits errand) reception with
      ⟨hledger, hsame⟩ | ⟨bid, hledger, hnone, hsome⟩
    · exact recorded_kept hrecorded hledger hsame
    · exact recorded_settled hrecorded hledger hnone hsome

theorem serve (horderly : Orderly service (task :: others)) (reception : Reception) :
    let served := task.serve reception service
    Orderly served.2 (served.1 :: others) ∧ service.market.Traded served.2.market := by
  obtain ⟨errand, ⟨acts, rest⟩, dropped⟩ := task
  cases dropped with
  | true => exact ⟨horderly, Market.Traded.refl _⟩
  | false =>
      cases rest with
      | done outcome => exact ⟨horderly, Market.Traded.refl _⟩
      | ask call next =>
          refine ⟨horderly.act reception, ?_⟩
          have hsound := (horderly.sound _ List.mem_cons_self).running rfl
          exact (Trade.admits errand _ call hsound.promise.1).traded hsound.fits reception

/-- Giving up the handles of a task leaves the other tasks where they are. -/
theorem drop (horderly : Orderly service (task :: others)) :
    let dropped := task.drop service
    Orderly dropped.2 (dropped.1 :: others) ∧ service.market.Traded dropped.2.market := by
  unfold Task.drop
  split
  next => exact ⟨horderly, Market.Traded.refl _⟩
  next hrunning =>
    have hnone : task.result? = none := by
      cases hresult : task.result? with
      | none => rfl
      | some outcome => simp [hresult] at hrunning
    obtain ⟨hconsistent, hsounds, hissueds, hapart, hrecorded⟩ := horderly
    have hdisjoint := (List.pairwise_cons.mp hapart).1
    have heq := service.market.foldl_close_eq task.handles
    refine ⟨⟨hconsistent.foldl_close task.handles, ?_, ?_, ?_, ?_⟩, .abandoned task.handles⟩
    · have hfaithful := (hsounds task List.mem_cons_self).faithful
      refine List.forall_mem_cons.mpr ⟨⟨hfaithful, nofun, fun _ => hnone⟩, fun other hmem => ?_⟩
      refine (hsounds other (List.mem_cons_of_mem _ hmem)).imp fun hcourse => ?_
      exact hcourse.foldl_close hconsistent.handled (hdisjoint other hmem)
    · intro other hmem transaction hhandle
      have hlast := congrArg Market.lastTransaction heq
      refine Int.le_trans ?_ (Int.le_of_eq hlast.symm)
      rcases List.mem_cons.mp hmem with rfl | hmem
      · exact hissueds task List.mem_cons_self transaction hhandle
      · exact hissueds other (List.mem_cons_of_mem _ hmem) transaction hhandle
    · exact List.pairwise_cons.mpr ⟨hdisjoint, (List.pairwise_cons.mp hapart).2⟩
    · have hledger := congrArg Market.ledger heq
      exact recorded_kept hrecorded hledger rfl

/-- A task stands beside the others, and so does whatever takes its place. -/
theorem exists_others {index : Nat} (hfound : tasks[index]? = some task) :
    ∃ others, tasks.Perm (task :: others) ∧
      ∀ task', (tasks.set index task').Perm (task' :: others) := by
  obtain ⟨hlt, rfl⟩ := List.getElem?_eq_some_iff.mp hfound
  refine ⟨tasks.take index ++ tasks.drop (index + 1), ?_, fun task' => ?_⟩
  · refine List.Perm.trans (.of_eq ?_) List.perm_middle
    rw [List.getElem_cons_drop hlt, List.take_append_drop]
  · rw [List.set_eq_take_append_cons_drop, if_pos hlt]
    exact List.perm_middle

/-- Whatever happens to one task, the floor is in order again. -/
theorem update {floor : Floor Errand} (horderly : Orderly floor.service floor.tasks)
    {change : Task Errand → Service → Task Errand × Service}
    (hchange : ∀ (task : Task Errand) (others : List (Task Errand)),
      Orderly floor.service (task :: others) →
      let changed := change task floor.service
      Orderly changed.2 (changed.1 :: others) ∧ floor.service.market.Traded changed.2.market)
    (index : Nat) :
    let updated := floor.update index change
    Orderly updated.service updated.tasks ∧ floor.market.Traded updated.market := by
  unfold Floor.update
  split
  next task hfound =>
    obtain ⟨others, hbefore, hafter⟩ := exists_others hfound
    obtain ⟨horderly', htraded⟩ := hchange task others (horderly.perm hbefore)
    exact ⟨horderly'.perm (hafter _).symm, htraded⟩
  next => exact ⟨horderly, Market.Traded.refl _⟩

/-- Every move leaves the floor in order, and does to the market what can be done to it. -/
theorem take {floor : Floor Errand} (horderly : Orderly floor.service floor.tasks)
    (move : Move Errand) :
    Orderly (floor.take move).service (floor.take move).tasks ∧
      floor.market.Traded (floor.take move).market := by
  cases move with
  | enter errand =>
      refine ⟨(horderly.enter errand).perm ?_, Market.Traded.refl _⟩
      exact (List.perm_append_singleton _ _).symm
  | serve index reception =>
      exact horderly.update (fun task others h => h.serve reception) index
  | drop index => exact horderly.update (fun task others h => h.drop) index
  | refuseBid =>
      have hchange : Market.Change floor.service.market none floor.service.refuseBid.market :=
        .refusalSet true
      exact ⟨horderly.change hchange, .changed hchange⟩
  | wait elapsed =>
      have hchange : Market.Change floor.service.market none (floor.service.wait elapsed).market :=
        .nothing
      exact ⟨horderly.change hchange, .changed hchange⟩

theorem play {floor : Floor Errand} (horderly : Orderly floor.service floor.tasks)
    (moves : List (Move Errand)) :
    Orderly (floor.play moves).service (floor.play moves).tasks := by
  induction moves generalizing floor with
  | nil => exact horderly
  | cons move rest ih => exact ih (horderly.take move).1

/-- What survives everything that can be done to the market survives all moves. -/
theorem play_preserves {floor : Floor Errand} (horderly : Orderly floor.service floor.tasks)
    (invariant : Market → Prop) (hholds : invariant floor.market)
    (hpreserved : ∀ {market after : Market}, invariant market → market.Consistent →
      market.Traded after → invariant after) (moves : List (Move Errand)) :
    invariant (floor.play moves).market := by
  induction moves generalizing floor with
  | nil => exact hholds
  | cons move rest ih =>
      obtain ⟨horderly', htraded⟩ := horderly.take move
      exact ih horderly' (hpreserved hholds horderly.consistent htraded)

end Orderly

end FishMarket
