import FishMarket.Proofs.Floor.Lifecycle
import FishMarket.Proofs.Floor.Log

/-! # Reconcilers at the same time

Any number of readers list auctions and complete those that are overdue, each at its own pace and by
its own clock. Which of them comes first to a row decides how the row ends, and the others leave it
as it is. Nobody returns an auction that is overdue: what a reader returns it has either found not
to be so, or it has just been told how the auction ended.
-/

namespace FishMarket

open Calendar
open ServiceRoutine (EndsBy)

/-! ## What reconcilers come to -/

/-- Whether an act is to complete an auction that is not there. -/
def Act.Misses (act : Act) (id : Int) (now : Instant) : Prop :=
  act.call = .store (.completeAuction id now) ∧ act.before.market.auctions.find? id = none

/-- What it may come to that some auctions are reconciled by certain acts: either no row that is
returned is overdue, or one that was overdue is missing when it is to be completed. -/
inductive Reconciled (now : Instant) (auctions : List Auction) (acts : List Act) :
    Except Failure (List Auction) → Prop where
  | current {rows : List Auction} (hcurrent : ∀ row ∈ rows, row.isOverdue now = false)
      (hpresent : ∀ act ∈ acts, ∀ id, ¬ act.Misses id now) : Reconciled now auctions acts (.ok rows)
  | missed {auction : Auction} {act : Act} (hauction : auction ∈ auctions)
      (hoverdue : auction.isOverdue now = true) (hact : act ∈ acts)
      (hmisses : act.Misses auction.id now) :
      Reconciled now auctions acts (.error (.notFound (.auction auction.id)))

namespace Reconciled

variable {now : Instant} {auction : Auction} {auctions : List Auction}
  {acts earlier later : List Act}

theorem failed {failure : Failure} (hfailed : Reconciled now [auction] acts (.error failure)) :
    Reconciled now (auction :: auctions) acts (.error failure) := by
  cases hfailed with
  | missed hauction hoverdue hact hmisses =>
      obtain rfl := List.mem_singleton.mp hauction
      exact .missed List.mem_cons_self hoverdue hact hmisses

/-- After one auction the others are reconciled. -/
theorem cons {row : Auction} {outcome : Except Failure (List Auction)}
    (hfirst : Reconciled now [auction] earlier (.ok [row]))
    (hrest : Reconciled now auctions later outcome) :
    Reconciled now (auction :: auctions) (earlier ++ later) (outcome.map (row :: ·)) := by
  obtain ⟨hrow, hpresent⟩ := hfirst
  cases hrest with
  | current hrows hpresents =>
      refine .current (List.forall_mem_cons.mpr ⟨?_, hrows⟩) ?_
      · exact hrow row List.mem_cons_self
      · exact List.forall_mem_append.mpr ⟨hpresent, hpresents⟩
  | missed hauction hoverdue hact hmisses =>
      exact .missed (List.mem_cons_of_mem _ hauction) hoverdue (List.mem_append_right _ hact)
        hmisses

end Reconciled

namespace Query

variable {acts : List Act} {now : Instant} (hanswered : ∀ act ∈ acts, act.reception = .answered)

include hanswered

theorem completeAuction_ends {id : Int} {outcome : Except Failure (Option Auction)}
    (hends : EndsBy (Action.store (.completeAuction id now)).run acts outcome) :
    ∃ before : Service, acts = [⟨.store (.completeAuction id now), .answered, before⟩] ∧
      outcome = .ok ((before.market.auctions.find? id).map fun auction =>
        auction.completed now) := by
  obtain ⟨before, hacts, houtcome⟩ := hends.of_store hanswered
  refine ⟨before, hacts, houtcome.trans ?_⟩
  rw [Market.answer, Market.completeAuction_eq]

theorem reconcile_ends {auction : Auction} {outcome : Except Failure Auction}
    (hends : EndsBy (reconcile auction now).run acts outcome) :
    Reconciled now [auction] acts (outcome.map fun row => [row]) := by
  unfold reconcile at hends
  split at hends
  next hoverdue =>
    rcases hends.of_lookup with ⟨failure, hfailed⟩ | ⟨found?, hlook, hfound⟩
    · obtain ⟨before, -, hfailed⟩ := completeAuction_ends hanswered hfailed
      cases hfailed
    · obtain ⟨before, rfl, hstored⟩ := completeAuction_ends hanswered hlook
      obtain rfl := Except.ok.inj hstored
      rcases hfound with ⟨hnone, rfl⟩ | ⟨row, hrow, rfl⟩
      · exact .missed List.mem_cons_self hoverdue List.mem_cons_self
          ⟨rfl, Option.map_eq_none_iff.mp hnone⟩
      · -- the row that is returned has ended, and so it is not overdue
        obtain ⟨stored, hstored, rfl⟩ := Option.map_eq_some_iff.mp hrow
        refine .current (List.forall_mem_singleton.mpr ?_) (List.forall_mem_singleton.mpr ?_)
        · exact Auction.isOverdue_of_ended (stored.isTerminal_completed now)
        · rintro id ⟨hcall, hnone⟩
          cases hcall
          cases hstored.symm.trans hnone
  next hoverdue =>
    obtain ⟨rfl, rfl⟩ := hends.of_returned
    exact .current (List.forall_mem_singleton.mpr ((Bool.not_eq_true _).mp hoverdue))
      fun act hmem => absurd hmem List.not_mem_nil

theorem reconcileEach_ends {auctions : List Auction} {outcome : Except Failure (List Auction)}
    (hends : EndsBy (auctions.mapM fun auction => reconcile auction now).run acts outcome) :
    Reconciled now auctions acts outcome := by
  induction auctions generalizing acts outcome with
  | nil =>
      obtain ⟨rfl, rfl⟩ := hends.of_returned
      exact .current (List.forall_mem_nil _) (List.forall_mem_nil _)
  | cons auction rest ih =>
      rw [List.mapM_cons] at hends
      rcases hends.of_andThen with
        ⟨failure, rfl, hfirst⟩ | ⟨row, earlier, later, rfl, hfirst, hnext⟩
      · exact (reconcile_ends hanswered hfirst).failed
      · obtain ⟨hearlier, hlater⟩ := List.forall_mem_append.mp hanswered
        have hrow := reconcile_ends hearlier hfirst
        rcases hnext.of_andThen with ⟨failure, rfl, hrest⟩ | ⟨rows, middle, last, rfl, hrest, hlast⟩
        · exact hrow.cons (ih hlater hrest)
        · obtain ⟨rfl, rfl⟩ := hlast.of_returned
          rw [List.append_nil] at hlater ⊢
          exact hrow.cons (ih hlater hrest)

/-- A reader that looks for one auction is told first whether there is one. -/
theorem getAuction_ends {id : Int} {outcome : Except Failure Auction}
    (hends : EndsBy (getAuction id now).run acts outcome) :
    ∃ before : Service, ∃ later,
      acts = ⟨.store (.findAuction id), .answered, before⟩ :: later ∧
      (before.market.auctions.find? id = none ∧ outcome = .error (.notFound (.auction id)) ∨
        ∃ auction, before.market.auctions.find? id = some auction ∧
          Reconciled now [auction] later (outcome.map fun row => [row])) := by
  rcases hends.of_andThen with
    ⟨failure, rfl, hfirst⟩ | ⟨auction, earlier, later, rfl, hfirst, hnext⟩
  · rcases hfirst.of_lookup with
      ⟨failure, hfailed⟩ | ⟨found?, hlook, ⟨hnone, hfailed⟩ | ⟨auction, -, hfound⟩⟩
    · obtain ⟨before, -, hfailed⟩ := hfailed.of_store hanswered
      cases hfailed
    · obtain ⟨before, rfl, hstored⟩ := hlook.of_store hanswered
      obtain rfl := Except.ok.inj hstored
      obtain rfl := Except.error.inj hfailed
      exact ⟨before, [], rfl, .inl ⟨hnone, rfl⟩⟩
    · cases hfound
  · obtain ⟨hearlier, hlater⟩ := List.forall_mem_append.mp hanswered
    rcases hfirst.of_lookup with
      ⟨failure, hfailed⟩ | ⟨found?, hlook, ⟨-, hfailed⟩ | ⟨value, hfound, hvalue⟩⟩
    · obtain ⟨before, -, hfailed⟩ := hfailed.of_store hearlier
      cases hfailed
    · cases hfailed
    · obtain rfl := Except.ok.inj hvalue
      obtain ⟨before, rfl, hstored⟩ := hlook.of_store hearlier
      obtain rfl := Except.ok.inj hstored
      exact ⟨before, later, rfl, .inr ⟨auction, hfound, reconcile_ends hlater hnext⟩⟩

theorem getAllAuctions_ends {outcome : Except Failure (List Auction)}
    (hends : EndsBy (getAllAuctions now).run acts outcome) :
    ∃ before : Service, ∃ later, acts = ⟨.store .listAuctions, .answered, before⟩ :: later ∧
      Reconciled now before.market.listAuctions later outcome := by
  rcases hends.of_andThen with
    ⟨failure, -, hfailed⟩ | ⟨auctions, earlier, later, rfl, hfirst, hnext⟩
  · obtain ⟨before, -, hfailed⟩ := hfailed.of_store hanswered
    cases hfailed
  · obtain ⟨hearlier, hlater⟩ := List.forall_mem_append.mp hanswered
    obtain ⟨before, rfl, hlisted⟩ := hfirst.of_store hearlier
    obtain rfl := Except.ok.inj hlisted
    exact ⟨before, later, rfl, reconcileEach_ends hlater hnext⟩

theorem completeOverdue_ends {auctions : List Auction} {outcome : Except Failure Nat}
    (hends : EndsBy (completeOverdue now auctions).run acts outcome) :
    ∃ count, outcome = .ok count := by
  induction auctions generalizing acts outcome with
  | nil => exact ⟨0, hends.of_returned.2⟩
  | cons auction rest ih =>
      unfold completeOverdue at hends
      split at hends
      next =>
        rcases hends.of_andThen with ⟨failure, -, hfailed⟩ | ⟨_, earlier, later, rfl, -, hnext⟩
        · obtain ⟨before, -, hfailed⟩ := completeAuction_ends hanswered hfailed
          cases hfailed
        · have hlater := (List.forall_mem_append.mp hanswered).2
          rcases hnext.of_andThen with ⟨failure, -, hfailed⟩ | ⟨count, _, _, -, -, hlast⟩
          · obtain ⟨count, hcount⟩ := ih hlater hfailed
            cases hcount
          · exact ⟨count + 1, hlast.of_returned.2⟩
      next => exact ih hanswered hends

/-- A sweep over all auctions never fails. -/
theorem reconcileAll_ends {outcome : Except Failure Nat}
    (hends : EndsBy (reconcileAll now).run acts outcome) : ∃ count, outcome = .ok count := by
  rcases hends.of_andThen with ⟨failure, -, hfailed⟩ | ⟨auctions, earlier, later, rfl, -, hnext⟩
  · obtain ⟨before, -, hfailed⟩ := hfailed.of_store hanswered
    cases hfailed
  · exact completeOverdue_ends (List.forall_mem_append.mp hanswered).2 hnext

end Query

/-! ## Only readers -/

/-- Of two completions the first one counts. -/
theorem Auction.elim_completed (auction : Auction) (first? next? : Option Instant) :
    let row := first?.elim auction auction.completed
    next?.elim row row.completed = (first?.or next?).elim auction auction.completed := by
  cases first? with
  | none => rfl
  | some first =>
      cases next? with
      | none => rfl
      | some next => exact auction.completed_completed first next

/-- The time of a completion of an auction, if an act is one. -/
def Act.completion? (id : Int) (act : Act) : Option Instant :=
  match act.call with
  | .store (.completeAuction other now) => if other = id then some now else none
  | _ => none

/-- Whether nobody comes but to read, and no call is refused. -/
def Move.OnlyReads : Move Business → Prop
  | .enter business => ∃ now, business.ReadsAt now
  | .serve _ reception => reception = .answered
  | _ => True

/-- A call of a reader reads, or it completes an auction. -/
theorem Business.asks_of_reads {business : Business} {now : Instant}
    (hreads : business.ReadsAt now) :
    (Trade.routine business).Asks fun call =>
      call.IsReading ∨ ∃ id time, call = .store (.completeAuction id time) :=
  (completes hreads).asks fun _ _ hpermits =>
    hpermits.imp_right fun ⟨auction, _, _, hcall⟩ => ⟨auction.id, now, hcall⟩

namespace Act

/-- What an act of a reader does to a row. -/
theorem find?_after {act : Act} (hanswered : act.reception = .answered)
    (hcall : act.call.IsReading ∨ ∃ id time, act.call = .store (.completeAuction id time))
    (id : Int) :
    act.after.market.auctions.find? id =
      (act.before.market.auctions.find? id).map fun auction =>
        (act.completion? id).elim auction auction.completed := by
  obtain ⟨call, reception, before⟩ := act
  obtain rfl : reception = .answered := hanswered
  rcases hcall with hreads | ⟨other, now, rfl⟩
  · have hmarket := before.receive_reading hreads .answered
    have hnone : completion? id ⟨call, .answered, before⟩ = none := by
      cases call with
      | cache call => rfl
      | store call => cases call <;> first | rfl | cases hreads
    rw [hnone, after, hmarket]
    exact Option.map_id'.symm
  · change (before.market.completeAuction other now).2.auctions.find? id = _
    rw [Market.completeAuction_eq, Table.find?_modify, completion?]
    by_cases hsame : other = id
    · subst hsame
      simp
    · simp [hsame, Ne.symm hsame]

end Act

namespace Floor

variable {service : Service} {moves : List (Move Business)}

/-- The time of the completion that comes first to an auction. -/
def firstCompletion? (floor : Floor Business) (moves : List (Move Business)) (id : Int) :
    Option Instant :=
  (floor.log moves).findSome? (Act.completion? id)

theorem firstCompletion?_append (floor : Floor Business) (moves later : List (Move Business))
    (id : Int) :
    floor.firstCompletion? (moves ++ later) id =
      (floor.firstCompletion? moves id).or ((floor.play moves).firstCompletion? later id) := by
  rw [firstCompletion?, log_append, List.findSome?_append]
  rfl

theorem firstCompletion?_singleton (floor : Floor Business) (move : Move Business) (id : Int) :
    floor.firstCompletion? [move] id = (floor.act? move).bind (Act.completion? id) := by
  rw [firstCompletion?, log_singleton]
  cases floor.act? move <;> simp

section

variable (hmoves : ∀ move ∈ moves, move.OnlyReads)

include hmoves

/-- Then all tasks are those of readers, and all their calls were answered. -/
theorem only_readers : ∀ task ∈ ((opened service).play moves : Floor Business).tasks,
    (∃ now, task.errand.ReadsAt now) ∧ ∀ act ∈ task.course.acts, act.reception = .answered := by
  intro task hmem
  refine task_induction (motive := fun moves (task : Task Business) =>
    (∀ move ∈ moves, move.OnlyReads) → (∃ now, task.errand.ReadsAt now) ∧
      ∀ act ∈ task.course.acts, act.reception = .answered) ?_ ?_ ?_ ?_ moves task hmem hmoves
  · intro moves task move hreaders hmoves
    exact hreaders (List.forall_mem_append.mp hmoves).1
  · intro moves errand hmoves
    refine ⟨(List.forall_mem_append.mp hmoves).2 _ List.mem_cons_self, fun act hmem => ?_⟩
    exact absurd hmem List.not_mem_nil
  · intro moves errand acts call next index reception hreaders act hmoves
    obtain ⟨hearlier, hlast⟩ := List.forall_mem_append.mp hmoves
    obtain ⟨hreads, hanswered⟩ := hreaders hearlier
    refine ⟨hreads, List.forall_mem_append.mpr ⟨hanswered, List.forall_mem_singleton.mpr ?_⟩⟩
    exact hlast _ List.mem_cons_self
  · intro moves task index hreaders hmoves
    exact hreaders (List.forall_mem_append.mp hmoves).1

/-- The completion that comes first to a row is the only one that changes it. -/
theorem rows_of_readers (id : Int) :
    ((opened service).play moves : Floor Business).market.auctions.find? id =
      (service.market.auctions.find? id).map fun auction =>
        ((opened service).firstCompletion? moves id).elim auction auction.completed := by
  induction moves using List.reverseRecOn with
  | nil => exact Option.map_id'.symm
  | append_singleton moves move ih =>
      obtain ⟨hearlier, hlast⟩ := List.forall_mem_append.mp hmoves
      have hrow := ih hearlier
      rw [play_singleton, firstCompletion?_append, firstCompletion?_singleton]
      rcases take_cases ((opened service).play moves) move with
        ⟨act, hact, hbefore, hafter, ⟨index, rfl⟩, task, htask, hpending⟩ | ⟨hnone, hsame⟩
      · obtain ⟨⟨now, hreads⟩, -⟩ := only_readers hearlier task htask
        have hasks := asks_of_asks moves task htask (Business.asks_of_reads hreads)
        have hanswered : act.reception = .answered := hlast _ List.mem_cons_self
        have hwritten := act.find?_after hanswered (Task.sort_of_pending hasks.1 hpending) id
        have hmarket : act.before.market = ((opened service).play moves : Floor Business).market :=
          congrArg Service.market hbefore
        rw [market, hafter, hwritten, hmarket, hrow, hact, Option.map_map]
        congr 1
        funext auction
        exact auction.elim_completed _ _
      · have hauctions :
            (((opened service).play moves : Floor Business).take move).market.auctions =
              ((opened service).play moves : Floor Business).market.auctions :=
          congrArg Market.Entities.auctions hsame
        rw [hauctions, hrow, hnone, Option.bind_none, Option.or_none]

/-- Readers neither add an auction nor delete one. -/
theorem missing_iff {task : Task Business}
    (hmem : task ∈ ((opened service).play moves : Floor Business).tasks) {act : Act}
    (hact : act ∈ task.course.acts) (id : Int) :
    act.before.market.auctions.find? id = none ↔ service.market.auctions.find? id = none := by
  obtain ⟨moment, ⟨later, rfl⟩, hbefore⟩ := moment_of_act moves task hmem act hact
  have hmarket : act.before.market = ((opened service).play moment : Floor Business).market :=
    congrArg Service.market hbefore
  rw [hmarket, rows_of_readers (List.forall_mem_append.mp hmoves).1, Option.map_eq_none_iff]

end

/-- The market was consistent at every act. -/
theorem consistent_before (hconsistent : service.market.Consistent) {task : Task Business}
    (hmem : task ∈ ((opened service).play moves : Floor Business).tasks) {act : Act}
    (hact : act ∈ task.course.acts) : act.before.market.Consistent := by
  obtain ⟨moment, -, hbefore⟩ := moment_of_act moves task hmem act hact
  have hmarket : act.before.market = ((opened service).play moment : Floor Business).market :=
    congrArg Service.market hbefore
  have hopened : (opened service : Floor Business).market.Consistent := hconsistent
  exact hmarket ▸ consistent_play hopened moment

end Floor

/-- Whether no call was refused so far. -/
def Course.Answered {α : Type} (course : Course α) : Prop :=
  ∀ act ∈ course.acts, act.reception = .answered

/-- Whether an auction was listed as overdue and was missing when it was to be completed. -/
structure Course.Loses {α : Type} (course : Course α) (auction : Auction) (now : Instant) :
    Prop where
  overdue : auction.isOverdue now = true
  listed : ∃ act ∈ course.acts, act.call = .store .listAuctions ∧
    act.before.market.auctions.find? auction.id = some auction
  missed : ∃ act ∈ course.acts, act.Misses auction.id now

namespace Floor

variable {service : Service} {moves : List (Move Business)} {now : Instant}

/-- What is returned for one auction is not overdue. -/
theorem getAuction_current {id : Int} {course : Course (Except Failure Auction)} {dropped : Bool}
    (hmem : (⟨.errand (.getAuction id now), course, dropped⟩ : Task Business) ∈
      ((opened service).play moves).tasks)
    (hanswered : course.Answered) {auction : Auction}
    (hresult : course.result? = some (.ok auction)) :
    auction.isOverdue now = false := by
  have hends := endsBy moves _ hmem _ hresult
  obtain ⟨before, later, -, ⟨-, hfailed⟩ | ⟨stored, -, hreconciled⟩⟩ :=
    Query.getAuction_ends hanswered hends
  · cases hfailed
  · cases hreconciled with
    | current hcurrent => exact hcurrent auction List.mem_cons_self

/-- What is returned for all auctions is not overdue, and it fails only because one is lost. -/
theorem getAllAuctions_current (hconsistent : service.market.Consistent)
    {course : Course (Except Failure (List Auction))} {dropped : Bool}
    (hmem : (⟨.errand (.getAllAuctions now), course, dropped⟩ : Task Business) ∈
      ((opened service).play moves).tasks)
    (hanswered : course.Answered) {outcome : Except Failure (List Auction)}
    (hresult : course.result? = some outcome) :
    (∃ auctions, outcome = .ok auctions ∧ (∀ auction ∈ auctions, auction.isOverdue now = false) ∧
      ∀ auction, ¬ course.Loses auction now) ∨
    ∃ auction, outcome = .error (.notFound (.auction auction.id)) ∧ course.Loses auction now := by
  have hends := endsBy moves _ hmem _ hresult
  obtain ⟨before, later, hacts, hreconciled⟩ := Query.getAllAuctions_ends hanswered hends
  have hlist : (⟨.store .listAuctions, .answered, before⟩ : Act) ∈ course.acts :=
    hacts ▸ List.mem_cons_self
  have hstored (auction : Auction) (hlisted : auction ∈ before.market.listAuctions) :
      before.market.auctions.find? auction.id = some auction :=
    Act.find?_shown (consistent_before hconsistent hmem hlist) hlisted
  cases hreconciled with
  | current hcurrent hpresent =>
      refine .inl ⟨_, rfl, hcurrent, fun auction hloses => ?_⟩
      obtain ⟨act, hact, hmisses⟩ := hloses.missed
      rw [hacts] at hact
      rcases List.mem_cons.mp hact with rfl | hlater
      · cases hmisses.1
      · exact hpresent act hlater auction.id hmisses
  | @missed auction act hauction hoverdue hact hmisses =>
      have hlater : act ∈ course.acts := hacts ▸ List.mem_cons_of_mem _ hact
      exact .inr ⟨auction, rfl, hoverdue, ⟨_, hlist, rfl, hstored auction hauction⟩, act, hlater,
        hmisses⟩

/-- A sweep over all auctions does not fail. -/
theorem reconcileAll_succeeds {course : Course (Except Failure Nat)} {dropped : Bool}
    (hmem : (⟨.errand (.reconcileAll now), course, dropped⟩ : Task Business) ∈
      ((opened service).play moves).tasks)
    (hanswered : course.Answered) (failure : Failure) :
    course.result? ≠ some (.error failure) := by
  intro hresult
  obtain ⟨count, hcount⟩ := Query.reconcileAll_ends hanswered (endsBy moves _ hmem _ hresult)
  cases hcount

/-- Among readers only, one that looks for an auction fails if there is none, and the others do not
fail. -/
theorem getAuction_fails (hmoves : ∀ move ∈ moves, move.OnlyReads)
    (hconsistent : service.market.Consistent) {id : Int}
    {course : Course (Except Failure Auction)} {dropped : Bool}
    (hmem : (⟨.errand (.getAuction id now), course, dropped⟩ : Task Business) ∈
      ((opened service).play moves).tasks) {failure : Failure}
    (hresult : course.result? = some (.error failure)) :
    failure = .notFound (.auction id) ∧ service.market.auctions.find? id = none := by
  have hanswered := (only_readers hmoves _ hmem).2
  have hends := endsBy moves _ hmem _ hresult
  obtain ⟨before, later, hacts, hlooked⟩ := Query.getAuction_ends hanswered hends
  have hlook : (⟨.store (.findAuction id), .answered, before⟩ : Act) ∈ course.acts :=
    hacts ▸ List.mem_cons_self
  rcases hlooked with ⟨hnone, hfailed⟩ | ⟨auction, hfound, hreconciled⟩
  · exact ⟨Except.error.inj hfailed, (missing_iff hmoves hmem hlook id).mp hnone⟩
  · -- what was there when it was looked for is there when it is to be completed
    cases hreconciled with
    | @missed missed act hauction hoverdue hact hmisses =>
        obtain rfl := List.mem_singleton.mp hauction
        have hid : missed.id = id :=
          (consistent_before hconsistent hmem hlook).filed.auctions id missed hfound
        have hlater : act ∈ course.acts := hacts ▸ List.mem_cons_of_mem _ hact
        have hgone := (missing_iff hmoves hmem hlater missed.id).mp hmisses.2
        rw [hid] at hgone
        cases hfound.symm.trans ((missing_iff hmoves hmem hlook id).mpr hgone)

theorem getAllAuctions_succeeds (hmoves : ∀ move ∈ moves, move.OnlyReads)
    (hconsistent : service.market.Consistent)
    {course : Course (Except Failure (List Auction))} {dropped : Bool}
    (hmem : (⟨.errand (.getAllAuctions now), course, dropped⟩ : Task Business) ∈
      ((opened service).play moves).tasks) (failure : Failure) :
    course.result? ≠ some (.error failure) := by
  intro hresult
  have hanswered := (only_readers hmoves _ hmem).2
  rcases getAllAuctions_current hconsistent hmem hanswered hresult with
    ⟨auctions, hauctions, -⟩ | ⟨auction, -, -, ⟨list, hlist, -, hlisted⟩, act, hact, hmisses⟩
  · cases hauctions
  · have hgone := (missing_iff hmoves hmem hact auction.id).mp hmisses.2
    cases hlisted.symm.trans ((missing_iff hmoves hmem hlist auction.id).mpr hgone)

/-- Between two moments at most one change happens to a row: it is then as it was at the start, and
it becomes what it is at the end. -/
theorem row_changes_once (hmoves : ∀ move ∈ moves, move.OnlyReads)
    {first later : List (Move Business)} (hpart : first ++ later <+: moves) (id : Int) :
    let row (moves : List (Move Business)) :=
      ((opened service).play moves : Floor Business).market.auctions.find? id
    row (first ++ later) = row first ∨ row first = row [] ∧ row (first ++ later) = row moves := by
  intro row
  obtain ⟨last, rfl⟩ := hpart
  obtain ⟨hboth, -⟩ := List.forall_mem_append.mp hmoves
  have hfirst : row first = _ := rows_of_readers (List.forall_mem_append.mp hboth).1 id
  have hsecond : row (first ++ later) = _ := rows_of_readers hboth id
  have hwhole : row (first ++ later ++ last) = _ := rows_of_readers hmoves id
  have hlater := (opened service).firstCompletion?_append first later id
  have hlast := (opened service).firstCompletion?_append (first ++ later) last id
  cases hearly : (opened service).firstCompletion? first id with
  | some time =>
      rw [hearly, Option.some_or] at hlater
      exact .inl (by rw [hsecond, hfirst, hlater, hearly])
  | none =>
      have hstart : row first = row [] := by
        rw [hfirst, hearly]
        exact Option.map_id'
      cases hsoon : (opened service).firstCompletion? (first ++ later) id with
      | none =>
          refine .inl (Eq.trans ?_ hstart.symm)
          rw [hsecond, hsoon]
          exact Option.map_id'
      | some time =>
          rw [hsoon, Option.some_or] at hlast
          exact .inr ⟨hstart, by rw [hsecond, hwhole, hsoon, hlast]⟩

/-- Any number of readers at the same time, over any market that there can be, each with its own
clock. If nobody else comes, then the row of an auction changes once at most: the completion that
comes to it first, if the auction has not ended, completes it with the time of that reader, and
nothing happens to it afterwards; and only the look for an auction that there was none of fails.
Whatever else is done meanwhile, nobody returns an auction that is overdue by their clock, a sweep
never fails, and the list of all auctions fails just if an auction that was listed as overdue is
missing when the same reader is to complete it. -/
theorem reconcilers_converge (steps : List Market.Step) (cache : MemoryCache) (moment : Nat)
    (moves : List (Move Business)) :
    let opened : Floor Business := .opened ⟨Market.initial.takeAll steps, cache, moment⟩
    let row (moves : List (Move Business)) (id : Int) :=
      (opened.play moves).market.auctions.find? id
    let tasks := (opened.play moves).tasks
    ((∀ move ∈ moves, move.OnlyReads) →
      (∀ id, row moves id = (row [] id).map fun auction =>
        (opened.firstCompletion? moves id).elim auction auction.completed) ∧
      (∀ first later, first ++ later <+: moves → ∀ id, row (first ++ later) id = row first id ∨
        row first id = row [] id ∧ row (first ++ later) id = row moves id) ∧
      (∀ id now (course : Course (Except Failure Auction)) dropped,
        (⟨.errand (.getAuction id now), course, dropped⟩ : Task Business) ∈ tasks →
        ∀ failure, course.result? = some (.error failure) →
          failure = .notFound (.auction id) ∧ row [] id = none) ∧
      (∀ now (course : Course (Except Failure (List Auction))) dropped,
        (⟨.errand (.getAllAuctions now), course, dropped⟩ : Task Business) ∈ tasks →
        ∀ failure, course.result? ≠ some (.error failure)) ∧
      ∀ now (course : Course (Except Failure Nat)) dropped,
        (⟨.errand (.reconcileAll now), course, dropped⟩ : Task Business) ∈ tasks →
        ∀ failure, course.result? ≠ some (.error failure)) ∧
    (∀ id now (course : Course (Except Failure Auction)) dropped,
      (⟨.errand (.getAuction id now), course, dropped⟩ : Task Business) ∈ tasks →
      course.Answered → ∀ auction, course.result? = some (.ok auction) →
        auction.isOverdue now = false) ∧
    (∀ now (course : Course (Except Failure (List Auction))) dropped,
      (⟨.errand (.getAllAuctions now), course, dropped⟩ : Task Business) ∈ tasks →
      course.Answered → ∀ outcome, course.result? = some outcome →
        (∀ auctions, outcome = .ok auctions → ∀ auction ∈ auctions,
          auction.isOverdue now = false) ∧
        ((∃ failure, outcome = .error failure) ↔ ∃ auction, course.Loses auction now) ∧
        ∀ failure, outcome = .error failure → ∃ auction, course.Loses auction now ∧
          failure = .notFound (.auction auction.id)) ∧
    ∀ now (course : Course (Except Failure Nat)) dropped,
      (⟨.errand (.reconcileAll now), course, dropped⟩ : Task Business) ∈ tasks →
      course.Answered → ∀ failure, course.result? ≠ some (.error failure) := by
  intro opened row tasks
  have hconsistent : opened.market.Consistent := Market.Consistent.initial.takeAll steps
  refine ⟨fun hmoves => ⟨rows_of_readers hmoves, ?_, ?_, ?_, ?_⟩, ?_, ?_, ?_⟩
  · exact fun first later hpart id => row_changes_once hmoves hpart id
  · exact fun id now course dropped hmem failure => getAuction_fails hmoves hconsistent hmem
  · exact fun now course dropped hmem => getAllAuctions_succeeds hmoves hconsistent hmem
  · exact fun now course dropped hmem => reconcileAll_succeeds hmem (only_readers hmoves _ hmem).2
  · exact fun id now course dropped hmem hanswered auction => getAuction_current hmem hanswered
  · intro now course dropped hmem hanswered outcome hresult
    rcases getAllAuctions_current hconsistent hmem hanswered hresult with
      ⟨auctions, rfl, hcurrent, hkept⟩ | ⟨auction, rfl, hloses⟩
    · refine ⟨fun shown hshown => Except.ok.inj hshown ▸ hcurrent, ⟨nofun, ?_⟩, nofun⟩
      exact fun ⟨auction, hloses⟩ => absurd hloses (hkept auction)
    · refine ⟨nofun, ⟨fun _ => ⟨auction, hloses⟩, fun _ => ⟨_, rfl⟩⟩, ?_⟩
      exact fun failure hfailed => ⟨auction, hloses, (Except.error.inj hfailed).symm⟩
  · exact fun now course dropped => reconcileAll_succeeds

end Floor

end FishMarket
