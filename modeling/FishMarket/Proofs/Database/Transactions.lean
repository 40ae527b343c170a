import FishMarket.Proofs.Routine
import FishMarket.Service.Remote

/-! # Transactions on the wire

What may be sent to a database server by whoever writes in a transaction, whatever the server
answers. Each call depends on all calls before it and the answers to them, so the rules are a
contract that looks at the whole log. Beginning and ending a transaction is ruled once; which
statements may be run in it, and when it is complete, differs from one plan to another.
-/

namespace FishMarket.Remote

/-- A call that was sent, with its answer. -/
abbrev Answered : Type := (call : RemoteCall) × call.Answer

/-- The calls that were sent. -/
def calls (log : List Answered) : List RemoteCall :=
  log.map (·.1)

/-- Whether a transaction was begun and is still to be ended. -/
structure IsOpen (log : List Answered) (transaction : TransactionId) : Prop where
  begun : ⟨.database .begin, .ok transaction⟩ ∈ log
  uncommitted : .database (.commit transaction) ∉ calls log
  unrolled : .database (.rollback transaction) ∉ calls log
  kept : .database (.abandon transaction) ∉ calls log

/-! ## Plans -/

/-- What is to be written in a transaction. -/
structure Plan (α : Type) where
  /-- The statements that may be run in the transaction after what was sent before. -/
  Stage : TransactionId → List Answered → DatabaseCall → Prop
  /-- The answers that make the plan fail, and the failures that they lead to. -/
  Fails : TransactionId → Answered → Failure → Prop
  /-- When there is nothing left to do but to commit, and the result of the plan. -/
  Complete : TransactionId → List Answered → α → Prop
  /-- What a failure becomes when the rollback after it fails as well. -/
  worsen : Failure → ServerError → Failure
  /-- The key that is forgotten after the commit. -/
  key? : Option String

namespace Plan

variable {α σ : Type}

/-- The calls that may be sent after others. -/
inductive Permits (plan : Plan α) (log : List Answered) : RemoteCall → Prop where
  /-- One transaction is begun. -/
  | begin (hfirst : log = []) : Permits plan log (.database .begin)
  | stage {call : DatabaseCall} (transaction : TransactionId) (hopen : IsOpen log transaction)
      (hstage : plan.Stage transaction log call) : Permits plan log (.database call)
  | commit (transaction : TransactionId) (result : α) (hopen : IsOpen log transaction)
      (hcomplete : plan.Complete transaction log result) :
      Permits plan log (.database (.commit transaction))
  | rollback (transaction : TransactionId) (step : Answered) (failure : Failure)
      (hopen : IsOpen log transaction) (hstep : step ∈ log)
      (hfails : plan.Fails transaction step failure) :
      Permits plan log (.database (.rollback transaction))
  /-- A transaction is abandoned when it has failed to end. -/
  | abandon (transaction : TransactionId) (error : ServerError)
      (hfails : ⟨.database (.commit transaction), .error error⟩ ∈ log ∨
        ⟨.database (.rollback transaction), .error error⟩ ∈ log) :
      Permits plan log (.database (.abandon transaction))
  | forget (transaction : TransactionId) (key : String) (hkey : plan.key? = some key)
      (hcommitted : ⟨.database (.commit transaction), .ok ()⟩ ∈ log) :
      Permits plan log (.cache (.delete key))

/-- What the outcome of a plan has to do with everything that was sent. -/
structure Ended (plan : Plan α) (log : List Answered) (outcome : Except Failure α) : Prop where
  /-- What is not committed is rolled back, and the failure is that of a step. -/
  rolledBack : ∀ transaction, ⟨.database .begin, .ok transaction⟩ ∈ log →
    .database (.commit transaction) ∉ calls log →
      ∃ step ∈ log, ∃ failure, plan.Fails transaction step failure ∧
        ((⟨.database (.rollback transaction), .ok ()⟩ ∈ log ∧ outcome = .error failure) ∨
          ∃ error, ⟨.database (.rollback transaction), .error error⟩ ∈ log ∧
            outcome = .error (plan.worsen failure error))
  /-- The result is the one that was committed. -/
  committed : ∀ result, outcome = .ok result → ∃ transaction,
    plan.Complete transaction log result ∧ ⟨.database (.commit transaction), .ok ()⟩ ∈ log
  fails : ∀ failure, outcome = .error failure → ∀ transaction,
    ⟨.database (.commit transaction), .ok ()⟩ ∉ log
  forgets_iff : ∀ key, .cache (.delete key) ∈ calls log ↔
    plan.key? = some key ∧ ∃ result, outcome = .ok result

/-- Whether a routine keeps to a plan with a server and a cache that answer in a certain way. -/
structure KeptBy (plan : Plan α)
    (routine : Routine RemoteCall RemoteCall.Answer (Except Failure α))
    (server : (call : RemoteCall) → σ → call.Answer × σ) (state : σ) : Prop where
  permits : ∀ before sent after, routine.transcript server state = before ++ sent :: after →
    plan.Permits before sent.1
  ended : plan.Ended (routine.transcript server state) (routine.run server state).1

/-- The contract of a plan is kept with every server. -/
theorem KeptBy.of_fulfils {plan : Plan α}
    {routine : Routine RemoteCall RemoteCall.Answer (Except Failure α)}
    (hfulfils : routine.Fulfils (Contract.ofLog plan.Permits) plan.Ended [])
    (server : (call : RemoteCall) → σ → call.Answer × σ) (state : σ) :
    plan.KeptBy routine server state where
  permits := (hfulfils.transcript server state).1
  ended := (hfulfils.transcript server state).2

end Plan

/-! ## Between the beginning and the end -/

/-- Whether nothing is done yet but statements in one transaction. -/
structure Pending (transaction : TransactionId) (log : List Answered) : Prop where
  begun : ⟨.database .begin, .ok transaction⟩ ∈ log
  only : ∀ sent ∈ log, sent = ⟨.database .begin, .ok transaction⟩ ∨
    ∃ statement parameters, sent.1 = .database (.run (some transaction) statement parameters)

namespace Pending

variable {transaction : TransactionId} {log : List Answered}

theorem start (transaction : TransactionId) :
    Pending transaction [⟨.database .begin, .ok transaction⟩] where
  begun := List.mem_singleton_self _
  only _ hsent := .inl (List.mem_singleton.mp hsent)

theorem run (hpending : Pending transaction log) (call : DatabaseCall)
    (hcall : ∃ statement parameters, call = .run (some transaction) statement parameters)
    (answer : call.Answer) : Pending transaction (log ++ [⟨.database call, answer⟩]) where
  begun := List.mem_append_left _ hpending.begun
  only sent hsent := by
    rcases List.mem_append.mp hsent with hbefore | hlast
    · exact hpending.only sent hbefore
    · obtain rfl := List.mem_singleton.mp hlast
      obtain ⟨statement, parameters, rfl⟩ := hcall
      exact .inr ⟨statement, parameters, rfl⟩

theorem notMem (hpending : Pending transaction log) {call : RemoteCall}
    (hbegin : call ≠ .database .begin)
    (hrun : ∀ transaction? statement parameters,
      call ≠ .database (.run transaction? statement parameters)) : call ∉ calls log := by
  intro hmem
  obtain ⟨sent, hsent, rfl⟩ := List.mem_map.mp hmem
  rcases hpending.only sent hsent with rfl | ⟨statement, parameters, hsame⟩
  · exact hbegin rfl
  · exact hrun _ _ _ hsame

theorem isOpen (hpending : Pending transaction log) : IsOpen log transaction where
  begun := hpending.begun
  uncommitted := hpending.notMem nofun nofun
  unrolled := hpending.notMem nofun nofun
  kept := hpending.notMem nofun nofun

theorem eq_of_begun (hpending : Pending transaction log) {other : TransactionId}
    (hbegun : ⟨.database .begin, .ok other⟩ ∈ log) : other = transaction := by
  rcases hpending.only _ hbegun with hsame | ⟨_, _, hsame⟩
  · cases hsame
    rfl
  · cases hsame

/-- Nothing was sent yet that ends a transaction or comes after one. -/
theorem mem_rest (hpending : Pending transaction log) {call : RemoteCall} {answer : call.Answer}
    {rest : List Answered} (hmem : ⟨call, answer⟩ ∈ log ++ rest) (hbegin : call ≠ .database .begin)
    (hrun : ∀ transaction? statement parameters,
      call ≠ .database (.run transaction? statement parameters)) : ⟨call, answer⟩ ∈ rest := by
  refine (List.mem_append.mp hmem).resolve_left fun hbefore => ?_
  exact hpending.notMem hbegin hrun (List.mem_map_of_mem hbefore)

end Pending

/-! ## The end -/

section

variable {α : Type}

/-- Rolls back a transaction after a failure. -/
def rollBack (plan : Plan α) (transaction : TransactionId) (failure : Failure) :
    Routine RemoteCall RemoteCall.Answer (Except Failure α) :=
  .ask (.database (.rollback transaction)) fun
    | .ok () => .done (.error failure)
    | .error error => .ask (.database (.abandon transaction)) fun _ =>
      .done (.error (plan.worsen failure error))

/-- Runs a statement in a transaction and goes on with what comes of it; if it fails, the
transaction is rolled back. -/
def runStep {β : Type} (plan : Plan α) (transaction : TransactionId) (call : DatabaseCall)
    (outcome : call.Answer → Except Failure β)
    (next : β → Routine RemoteCall RemoteCall.Answer (Except Failure α)) :
    Routine RemoteCall RemoteCall.Answer (Except Failure α) :=
  .ask (.database call) fun answer =>
    match outcome answer with
    | .error failure => rollBack plan transaction failure
    | .ok value => next value

/-- Forgets a key, if there is one. -/
def forgetting (key? : Option String) (result : α) :
    Routine RemoteCall RemoteCall.Answer (Except Failure α) :=
  match key? with
  | none => .done (.ok result)
  | some key => .ask (.cache (.delete key)) fun _ => .done (.ok result)

/-- Commits a transaction. -/
def conclude (plan : Plan α) (transaction : TransactionId) (result : α) :
    Routine RemoteCall RemoteCall.Answer (Except Failure α) :=
  .ask (.database (.commit transaction)) fun
    | .ok () => forgetting plan.key? result
    | .error error => .ask (.database (.abandon transaction)) fun _ =>
      .done (.error (.ofServerError error))

variable {plan : Plan α} {transaction : TransactionId} {log : List Answered}

/-- Where no transaction could be begun, nothing has to be ended. -/
theorem Plan.Ended.of_refused {failure : Failure}
    (honly : ∀ sent ∈ log, ∃ error, sent = ⟨.database .begin, .error error⟩) :
    plan.Ended log (.error failure) where
  rolledBack _ hbegun _ := by
    obtain ⟨error, hsent⟩ := honly _ hbegun
    cases hsent
  committed _ hresult := nomatch hresult
  fails _ _ _ hcommitted := by
    obtain ⟨error, hsent⟩ := honly _ hcommitted
    cases hsent
  forgets_iff key := by
    refine ⟨fun hmem => ?_, fun ⟨_, _, hresult⟩ => nomatch hresult⟩
    obtain ⟨sent, hsent, hcall⟩ := List.mem_map.mp hmem
    obtain ⟨error, rfl⟩ := honly sent hsent
    cases hcall

theorem Plan.Ended.of_rollBack (hpending : Pending transaction log) {step : Answered}
    (hstep : step ∈ log) {failure reported : Failure}
    (hfails : plan.Fails transaction step failure) {rest : List Answered}
    (honly : ∀ call ∈ calls rest,
      call = .database (.rollback transaction) ∨ call = .database (.abandon transaction))
    (hreported : (⟨.database (.rollback transaction), .ok ()⟩ ∈ rest ∧ reported = failure) ∨
      ∃ error, ⟨.database (.rollback transaction), .error error⟩ ∈ rest ∧
        reported = plan.worsen failure error) :
    plan.Ended (log ++ rest) (.error reported) where
  rolledBack other hbegun _ := by
    -- whatever transaction was begun is the one that is rolled back
    obtain rfl : other = transaction := by
      rcases List.mem_append.mp hbegun with hbefore | hafter
      · exact hpending.eq_of_begun hbefore
      · rcases honly _ (List.mem_map_of_mem hafter) with hsame | hsame <;> cases hsame
    refine ⟨step, List.mem_append_left _ hstep, failure, hfails, ?_⟩
    rcases hreported with ⟨hrolled, rfl⟩ | ⟨error, hrolled, rfl⟩
    · exact .inl ⟨List.mem_append_right _ hrolled, rfl⟩
    · exact .inr ⟨error, List.mem_append_right _ hrolled, rfl⟩
  committed _ hresult := nomatch hresult
  fails _ _ other hcommitted := by
    have hrest := hpending.mem_rest hcommitted nofun nofun
    rcases honly _ (List.mem_map_of_mem hrest) with hsame | hsame <;> cases hsame
  forgets_iff key := by
    refine ⟨fun hmem => ?_, fun ⟨_, _, hresult⟩ => nomatch hresult⟩
    obtain ⟨⟨call, answer⟩, hsent, rfl⟩ := List.mem_map.mp hmem
    have hrest := hpending.mem_rest hsent nofun nofun
    rcases honly _ (List.mem_map_of_mem hrest) with hsame | hsame <;> cases hsame

theorem rollBack_fulfils (hpending : Pending transaction log) {step : Answered}
    (hstep : step ∈ log) {failure : Failure} (hfails : plan.Fails transaction step failure) :
    (rollBack plan transaction failure).Fulfils (Contract.ofLog plan.Permits) plan.Ended log := by
  refine ⟨.rollback transaction step failure hpending.isOpen hstep hfails, fun answer => ?_⟩
  cases answer with
  | ok =>
      exact .of_rollBack hpending hstep hfails (by simp [calls]) (.inl ⟨by simp, rfl⟩)
  | error error =>
      refine ⟨.abandon transaction error (.inr ?_), fun answer => ?_⟩
      · exact List.mem_concat_self
      · change plan.Ended (log ++ [_] ++ [_]) _
        rw [List.append_assoc]
        exact .of_rollBack hpending hstep hfails (by simp [calls]) (.inr ⟨error, by simp, rfl⟩)

/-- A step is run while the transaction is open. If it fails the plan fails, and otherwise what
follows may rely on its answer. -/
theorem runStep_fulfils {β : Type} {call : DatabaseCall} {outcome : call.Answer → Except Failure β}
    {next : β → Routine RemoteCall RemoteCall.Answer (Except Failure α)}
    (hpending : Pending transaction log)
    (hcall : ∃ statement parameters, call = .run (some transaction) statement parameters)
    (hstage : plan.Stage transaction log call)
    (hfails : ∀ answer failure, outcome answer = .error failure →
      plan.Fails transaction ⟨.database call, answer⟩ failure)
    (hnext : ∀ answer value, outcome answer = .ok value →
      Pending transaction (log ++ [⟨.database call, answer⟩]) →
        (next value).Fulfils (Contract.ofLog plan.Permits) plan.Ended
          (log ++ [⟨.database call, answer⟩])) :
    (runStep plan transaction call outcome next).Fulfils (Contract.ofLog plan.Permits) plan.Ended
      log := by
  refine ⟨.stage transaction hpending.isOpen hstage, fun answer => ?_⟩
  have hpending := hpending.run call hcall answer
  dsimp only
  cases houtcome : outcome answer with
  | error failure =>
      exact rollBack_fulfils hpending List.mem_concat_self (hfails answer failure houtcome)
  | ok value => exact hnext answer value houtcome hpending

theorem Plan.Ended.of_commit (hpending : Pending transaction log) {outcome : Except Failure α}
    {rest : List Answered} (hbegin : .database .begin ∉ calls rest)
    (hcommit : .database (.commit transaction) ∈ calls rest)
    (hcommitted : ∀ result, outcome = .ok result → plan.Complete transaction (log ++ rest) result ∧
      ⟨.database (.commit transaction), .ok ()⟩ ∈ rest)
    (hfails : ∀ failure, outcome = .error failure → ∀ other,
      ⟨.database (.commit other), .ok ()⟩ ∉ rest)
    (hforgets : ∀ key, .cache (.delete key) ∈ calls rest ↔
      plan.key? = some key ∧ ∃ result, outcome = .ok result) :
    plan.Ended (log ++ rest) outcome where
  rolledBack other hbegun huncommitted := by
    obtain rfl : other = transaction := by
      rcases List.mem_append.mp hbegun with hbefore | hafter
      · exact hpending.eq_of_begun hbefore
      · exact absurd (List.mem_map_of_mem hafter) hbegin
    refine absurd ?_ huncommitted
    rw [calls, List.map_append]
    exact List.mem_append_right _ hcommit
  committed result hresult := by
    obtain ⟨hcomplete, hok⟩ := hcommitted result hresult
    exact ⟨transaction, hcomplete, List.mem_append_right _ hok⟩
  fails failure hfailure other hok :=
    hfails failure hfailure other (hpending.mem_rest hok nofun nofun)
  forgets_iff key := by
    rw [← hforgets key, calls, List.map_append, List.mem_append]
    exact or_iff_right (hpending.notMem nofun nofun)

theorem conclude_fulfils (hpending : Pending transaction log) {result : α}
    (hcomplete : ∀ rest, plan.Complete transaction (log ++ rest) result) :
    (conclude plan transaction result).Fulfils (Contract.ofLog plan.Permits) plan.Ended log := by
  have hnow : plan.Complete transaction log result := List.append_nil log ▸ hcomplete []
  refine ⟨.commit transaction result hpending.isOpen hnow, fun answer => ?_⟩
  cases answer with
  | ok =>
      simp only [forgetting]
      cases hkey : plan.key? with
      | none =>
          exact .of_commit hpending (by simp [calls]) (by simp [calls])
            (fun _ hok => by cases hok; exact ⟨hcomplete _, by simp⟩) (by simp)
            (by simp [calls, hkey])
      | some key =>
          refine ⟨.forget transaction key hkey ?_, fun answer => ?_⟩
          · exact List.mem_concat_self
          · change plan.Ended (log ++ [_] ++ [_]) _
            rw [List.append_assoc]
            exact .of_commit hpending (by simp [calls]) (by simp [calls])
              (fun _ hok => by cases hok; exact ⟨hcomplete _, by simp⟩) (by simp)
              (by simp [calls, hkey, eq_comm])
  | error error =>
      refine ⟨.abandon transaction error (.inl ?_), fun answer => ?_⟩
      · exact List.mem_concat_self
      · change plan.Ended (log ++ [_] ++ [_]) _
        rw [List.append_assoc]
        exact .of_commit hpending (by simp [calls]) (by simp [calls]) nofun (by simp)
          (by simp [calls])

end

end FishMarket.Remote
