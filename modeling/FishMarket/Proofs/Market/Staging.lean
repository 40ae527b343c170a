import FishMarket.Proofs.Service.Plain
import FishMarket.Proofs.Settlement.Progress

/-! # What is staged

What a transaction writes waits with its handle, in the order in which it was asked for, and nobody
can see it, not even who has asked for it. A commit looks at all that waits before it writes
anything: if an item is missing nothing is written, and otherwise the writes are applied in their
order.
-/

namespace FishMarket

/-! ## What is staged under a handle -/

namespace StoreCall

/-- Whether a call opens a transaction, stages something, or gives up what is staged. -/
def staysAside : StoreCall → Bool
  | .begin => true
  | .rollback _ => true
  | .abandon _ => true
  | .setItemStatusIn _ _ _ => true
  | .insertBidIn _ _ _ => true
  | _ => false

/-- Whether a call ends a transaction. -/
def ends (transaction : TransactionId) : StoreCall → Bool
  | .commit other => other = transaction
  | .rollback other => other = transaction
  | .abandon other => other = transaction
  | _ => false

/-- What an answer tells to be staged under a transaction. -/
def stages (transaction : TransactionId) : (call : StoreCall) → call.Answer → List StagedWrite
  | .setItemStatusIn other id status, .ok _ =>
    if other = transaction then [.itemStatus id status] else []
  | .insertBidIn other _ _, .ok bid => if other = transaction then [.bid bid] else []
  | _, _ => []

theorem stages_of_other {transaction : TransactionId} {call : StoreCall}
    (hother : call.transaction? ≠ some transaction) (answer : call.Answer) :
    call.stages transaction answer = [] := by
  cases call with
  | setItemStatusIn other id status =>
      have hne : other ≠ transaction := fun heq => hother (congrArg some heq)
      cases answer <;> simp [stages, hne]
  | insertBidIn other bid now =>
      have hne : other ≠ transaction := fun heq => hother (congrArg some heq)
      cases answer <;> simp [stages, hne]
  | _ => rfl

end StoreCall

/-- The status that a write gives to an item. -/
def StagedWrite.statusOf? (id : Int) : StagedWrite → Option ItemStatus
  | .itemStatus item status => if item = id then some status else none
  | .bid _ => none

namespace Market

variable {market : Market} {transaction : TransactionId} {writes : List StagedWrite}

/-- Whether a step ends a transaction. -/
def Step.ends (transaction : TransactionId) : Step → Bool
  | .call asked => asked.ends transaction
  | .refuseBid => false

/-- What a step stages under a transaction. -/
def Step.stages (transaction : TransactionId) (market : Market) : Step → List StagedWrite
  | .call asked => asked.stages transaction (market.answer asked).1
  | .refuseBid => []

/-- What steps stage under a transaction, in the order of the steps. -/
def stagedBy (transaction : TransactionId) (market : Market) : List Step → List StagedWrite
  | [] => []
  | step :: rest => step.stages transaction market ++ stagedBy transaction (market.take step) rest

theorem find?_setItemStatusIn (hopen : market.staged.find? transaction = some writes) (id : Int)
    (status : ItemStatus) :
    (market.setItemStatusIn transaction id status).2.staged.find? transaction = some (writes ++
      StoreCall.stages transaction (.setItemStatusIn transaction id status)
        (market.setItemStatusIn transaction id status).1) := by
  unfold setItemStatusIn
  split
  next =>
    rw [find?_stage hopen]
    simp [StoreCall.stages]
  next =>
    rw [hopen]
    simp [StoreCall.stages]

theorem find?_insertBidIn (hopen : market.staged.find? transaction = some writes) (bid : PlaceBid)
    (now : Calendar.Instant) :
    (market.insertBidIn transaction bid now).2.staged.find? transaction = some (writes ++
      StoreCall.stages transaction (.insertBidIn transaction bid now)
        (market.insertBidIn transaction bid now).1) := by
  unfold insertBidIn
  split
  next => simp [StoreCall.stages, hopen]
  next =>
    split
    next =>
      have htaken : market.takeId.staged.find? transaction = some writes := hopen
      rw [find?_stage htaken]
      simp [StoreCall.stages]
    next => simp [StoreCall.stages, hopen]

/-- As long as a transaction is not ended, what a step stages under it comes after all that was
staged before. -/
theorem find?_staged_take (hhandled : market.Handled)
    (hopen : market.staged.find? transaction = some writes) {step : Step}
    (hends : step.ends transaction = false) :
    (market.take step).staged.find? transaction =
      some (writes ++ step.stages transaction market) := by
  cases step with
  | refuseBid =>
      rw [Step.stages, List.append_nil]
      exact hopen
  | call call =>
      by_cases hnamed : call.transaction? = some transaction
      · cases call
        case setItemStatusIn other id status =>
          obtain rfl : other = transaction := Option.some.inj hnamed
          exact find?_setItemStatusIn hopen id status
        case insertBidIn other bid now =>
          obtain rfl : other = transaction := Option.some.inj hnamed
          exact find?_insertBidIn hopen bid now
        case commit | rollback | abandon =>
          obtain rfl := Option.some.inj hnamed
          simp [Step.ends, StoreCall.ends] at hends
        all_goals cases hnamed
      · rw [Step.stages, StoreCall.stages_of_other hnamed, List.append_nil]
        by_cases hcommit : ∃ other, call = .commit other
        · -- a commit of another transaction takes away what is staged there
          obtain ⟨other, rfl⟩ := hcommit
          have hother : transaction ≠ other := fun heq => hnamed (congrArg some heq.symm)
          have herased : (market.staged.erase other).find? transaction = some writes := by
            rw [Table.find?_erase, if_neg hother]
            exact hopen
          change (market.commit other).2.staged.find? transaction = _
          rcases market.commit_cases other with ⟨failure, heq⟩ | ⟨-, heq⟩
          · rw [heq]
            exact herased
          · rw [heq, committed_eq]
            exact herased
        · have hchange := market.answer_change call fun other heq => hcommit ⟨other, heq⟩
          exact hchange.find?_staged hhandled hopen hnamed

/-- What is staged under a transaction is what was staged since it was opened. -/
theorem find?_staged_takeAll (hconsistent : market.Consistent)
    (hopen : market.staged.find? transaction = some writes) {steps : List Step}
    (hends : ∀ step ∈ steps, step.ends transaction = false) :
    (market.takeAll steps).staged.find? transaction =
      some (writes ++ market.stagedBy transaction steps) := by
  induction steps generalizing market writes with
  | nil => rw [stagedBy, List.append_nil]; exact hopen
  | cons step rest ih =>
      obtain ⟨hstep, hrest⟩ := List.forall_mem_cons.mp hends
      have hnext := find?_staged_take hconsistent.handled hopen hstep
      have hlater := ih (hconsistent.take step) hnext hrest
      rw [List.append_assoc] at hlater
      exact hlater

/-! ## Nobody sees what is staged -/

/-- What is only staged, or given up, is not on record. -/
theorem entities_staysAside {call : StoreCall} (haside : call.staysAside = true) :
    (market.answer call).2.entities = market.entities := by
  cases call with
  | begin | rollback | abandon => rfl
  | setItemStatusIn other id status =>
      simp only [answer, setItemStatusIn]
      split <;> rfl
  | insertBidIn other bid now =>
      simp only [answer, insertBidIn]
      split
      next => rfl
      next => split <;> rfl
  | _ => cases haside

/-- Who looks at what is stored does not see what is staged. -/
theorem answer_reads {call : StoreCall} (hreads : call.reads = true) (market : Market)
    (staged : Table (List StagedWrite)) :
    (answer call { market with staged := staged }).1 = (answer call market).1 := by
  cases call <;> first | rfl | cases hreads

/-! ## All or nothing -/

theorem committable_iff : market.Committable transaction ↔
    ∀ write ∈ market.writesOf transaction, market.items.contains write.item = true := by
  simp [Committable, orphan?, List.find?_eq_none]

/-- A commit is refused because of a write whose item is missing. -/
theorem commit_of_missing (hmissing : ¬ market.Committable transaction) :
    ∃ write ∈ market.writesOf transaction, market.items.contains write.item = false ∧
      market.commit transaction =
        (.error (.conflict (.itemDeleted write.item)), market.close transaction) := by
  obtain ⟨write, horphan⟩ := Option.ne_none_iff_exists'.mp hmissing
  refine ⟨write, List.mem_of_find?_eq_some horphan, ?_, ?_⟩
  · simpa using List.find?_some horphan
  · unfold commit
    simp only [horphan]

theorem commit_of_committable (hready : market.Committable transaction) :
    market.commit transaction = (.ok (), market.committed transaction) := by
  unfold Committable at hready
  unfold commit
  simp only [hready]
  rfl

/-- The status that writes leave an item with is the last that they give to it. -/
theorem statusAfter_eq (id : Int) (writes : List StagedWrite) (status : ItemStatus) :
    statusAfter id writes status =
      (writes.filterMap (StagedWrite.statusOf? id)).getLast?.getD status := by
  induction writes generalizing status with
  | nil => rfl
  | cons write rest ih =>
      refine (ih _).trans ?_
      cases write with
      | bid staged => rfl
      | itemStatus item written =>
          by_cases hsame : id = item
          · subst hsame
            simp [StagedWrite.statusOf?, List.getLast?_cons]
          · simp [StagedWrite.statusOf?, hsame, Ne.symm hsame]

/-- In every state of the market, whatever transactions are open: to open one, to stage something
and to give up what is staged changes nothing that is on record, and whoever looks at what is on
record gets the same answer whatever is staged. What is staged under a handle is what was staged
since it was opened, in that order. A commit is refused just if the item of a staged write is
missing, and then nothing is written. Otherwise the writes are applied one after the other: an item
gets the last status that was staged for it, the bids come to the end of the ledger in their order,
and nothing else changes but that the transaction is closed. -/
theorem staged_writes_unseen_until_commit (steps : List Step) :
    let market := initial.takeAll steps
    (∀ call, call.staysAside = true → (answer call market).2.entities = market.entities) ∧
    (∀ call, call.reads = true → ∀ staged,
      (answer call { market with staged := staged }).1 = (answer call market).1) ∧
    (∀ later, let opened := market.begin
      (∀ step ∈ later, step.ends opened.1 = false) →
        (opened.2.takeAll later).writesOf opened.1 = opened.2.stagedBy opened.1 later) ∧
    ∀ transaction, let writes := market.writesOf transaction
      let reply := answer (.commit transaction) market
      ((∃ write ∈ writes, market.items.contains write.item = false) ↔
        ∃ item, reply = (.error (.conflict (.itemDeleted item)), market.close transaction)) ∧
      ((∀ write ∈ writes, market.items.contains write.item = true) →
        reply = (.ok (), (writes.foldl apply market).close transaction) ∧
        reply.2 = { market with
          items := reply.2.items
          ledger := market.ledger ++ writes.filterMap StagedWrite.bid?
          staged := market.staged.erase transaction } ∧
        ∀ id, reply.2.items.find? id = (market.items.find? id).map fun item =>
          { item with status :=
            (writes.filterMap (StagedWrite.statusOf? id)).getLast?.getD item.status }) := by
  intro market
  have hconsistent : market.Consistent := Consistent.initial.takeAll steps
  refine ⟨fun call => entities_staysAside, fun call hreads => answer_reads hreads market, ?_, ?_⟩
  · intro later opened hends
    have hbegun : Change market none opened.2 := .begun
    rw [writesOf, find?_staged_takeAll (hconsistent.change hbegun) market.find?_begun hends]
    rfl
  · intro transaction writes reply
    refine ⟨⟨?_, ?_⟩, fun hpresent => ?_⟩
    · rintro ⟨write, hmem, hmissing⟩
      have hrefused : ¬ market.Committable transaction := fun hready => by
        rw [committable_iff.mp hready write hmem] at hmissing
        cases hmissing
      obtain ⟨first, -, -, heq⟩ := commit_of_missing hrefused
      exact ⟨first.item, heq⟩
    · rintro ⟨item, hrefused⟩
      have hmissing : ¬ market.Committable transaction := fun hready => by
        cases (commit_of_committable hready).symm.trans hrefused
      obtain ⟨write, hmem, habsent, -⟩ := commit_of_missing hmissing
      exact ⟨write, hmem, habsent⟩
    · have heq : reply = (.ok (), market.committed transaction) :=
        commit_of_committable (committable_iff.mpr hpresent)
      rw [heq]
      refine ⟨rfl, by rw [committed_eq], fun id => ?_⟩
      simp only [committed_eq, find?_writeItems, statusAfter_eq]
      rfl

end Market

end FishMarket
