import FishMarket.Proofs.Settlement.Requests

/-! # Who completes auctions

Whoever reads auctions completes those that are overdue. Readers decide on rows that they have been
shown, and by the time of the write these may be out of date. What is promised here is only that no
reader asks for a completion without having been shown a row that was overdue.
-/

namespace FishMarket

open Calendar

variable {α β ε : Type} {now : Instant} {seen : List Auction}

/-- The auctions that an answer shows. -/
def StoreCall.shown : (call : StoreCall) → call.Answer → List Auction
  | .findAuction _, .ok auction? => auction?.toList
  | .listAuctions, .ok auctions => auctions
  | .listOpenAuctions, .ok auctions => auctions
  | _, _ => []

/-- The auctions that an answer shows. -/
def ServiceCall.shown : (call : ServiceCall) → call.Answer → List Auction
  | .store call, answer => call.shown answer
  | .cache _, _ => []

/-- The contract of readers. The phase is what a reader has been shown. -/
def Query.completion (now : Instant) :
    Contract ServiceCall ServiceCall.Answer (List Auction) where
  Permits seen call := call.IsReading ∨
    ∃ auction ∈ seen, auction.isOverdue now = true ∧
      call = .store (.completeAuction auction.id now)
  next seen call answer := seen ++ call.shown answer

/-- Whether a routine that has been shown some auctions completes no others, and these only if they
were overdue. What it has been shown it does not forget. -/
def ServiceRoutine.Completes (routine : ServiceRoutine α) (now : Instant) (seen : List Auction) :
    Prop :=
  routine.Fulfils (Query.completion now) (fun later _ => seen ⊆ later) seen

namespace ServiceRoutine.Completes

theorem returned (value : α) : Completes (.done value) now seen := List.Subset.refl seen

theorem bind {routine : ServiceRoutine α} {next : α → ServiceRoutine β}
    (hfirst : routine.Completes now seen)
    (hnext : ∀ later value, seen ⊆ later → (next value).Completes now later) :
    Completes (routine.bind next) now seen :=
  Routine.Fulfils.bind hfirst fun later value hlater =>
    (hnext later value hlater).mono (fun _ _ => id) rfl fun _ _ => List.Subset.trans hlater

theorem andThen {first : ExceptT ε (Routine ServiceCall ServiceCall.Answer) α}
    {next : α → ExceptT ε (Routine ServiceCall ServiceCall.Answer) β}
    (hfirst : Completes first.run now seen)
    (hnext : ∀ later value, seen ⊆ later → Completes (next value).run now later) :
    Completes (first >>= next).run now seen := by
  refine ServiceRoutine.Completes.bind hfirst fun later outcome hlater => ?_
  cases outcome with
  | ok value => exact hnext later value hlater
  | error failure => exact returned _

theorem mapM {next : α → ExceptT ε (Routine ServiceCall ServiceCall.Answer) β} {values : List α}
    (hnext : ∀ value ∈ values, ∀ later, seen ⊆ later → Completes (next value).run now later) :
    Completes (values.mapM next).run now seen := by
  induction values generalizing seen with
  | nil => exact returned _
  | cons value rest ih =>
      rw [List.mapM_cons]
      refine andThen (hnext value List.mem_cons_self seen (List.Subset.refl _)) ?_
      refine fun later _ hlater => andThen (ih fun value hmem later' hlater' => ?_) ?_
      · exact hnext value (List.mem_cons_of_mem _ hmem) later' (List.Subset.trans hlater hlater')
      · exact fun _ _ _ => returned _

/-- A routine that only asks for what is stored completes nothing. -/
theorem of_asks {routine : ServiceRoutine α} (hasks : routine.Asks ServiceCall.IsReading) :
    routine.Completes now seen := by
  induction routine generalizing seen with
  | done value => exact returned value
  | ask call next ih =>
      refine ⟨.inl hasks.1, fun answer => ?_⟩
      exact (ih answer (hasks.2 answer)).mono (fun _ _ => id) rfl
        fun _ _ => List.Subset.trans (List.subset_append_left _ _)

end ServiceRoutine.Completes

open ServiceRoutine (Completes)

/-! ## Queries -/

namespace Query

/-- One write, after an overdue row was shown. -/
theorem completeAuction_completes {auction : Auction} (hseen : auction ∈ seen)
    (hoverdue : auction.isOverdue now = true) :
    Completes (Action.store (.completeAuction auction.id now)).run now seen :=
  ⟨.inr ⟨auction, hseen, hoverdue, rfl⟩, fun _ => List.subset_append_left _ _⟩

theorem reconcile_completes {auction : Auction} (hseen : auction ∈ seen) :
    Completes (reconcile auction now).run now seen := by
  unfold reconcile
  split
  next hoverdue =>
    exact .andThen (completeAuction_completes hseen hoverdue) fun _ _ _ =>
      .of_asks (Action.found_asks _ _)
  next => exact .returned _

theorem completeOverdue_completes {auctions : List Auction} (hseen : auctions ⊆ seen) :
    Completes (completeOverdue now auctions).run now seen := by
  induction auctions generalizing seen with
  | nil => exact .returned _
  | cons auction rest ih =>
      obtain ⟨hauction, hrest⟩ := List.cons_subset.mp hseen
      unfold completeOverdue
      split
      next hoverdue =>
        refine .andThen (completeAuction_completes hauction hoverdue) fun later _ hlater => ?_
        exact .andThen (ih (List.Subset.trans hrest hlater)) fun _ _ _ => .returned _
      next => exact ih hrest

/-- What a question for auctions is answered with has then been shown. -/
theorem ask_completes {call : StoreCall} {next : call.Yield → Action α} (hreads : call.reads = true)
    (hnext : ∀ value later, call.shown (.ok value) ⊆ later → Completes (next value).run now later) :
    Completes (Action.store call >>= next).run now seen := by
  refine ⟨.inl hreads, fun answer => ?_⟩
  cases answer with
  | error failure => exact List.subset_append_left _ _
  | ok value =>
      have hlater := hnext value (seen ++ call.shown (.ok value)) (List.subset_append_right _ _)
      exact hlater.mono (fun _ _ => id) rfl fun _ _ => List.Subset.trans (List.subset_append_left _ _)

theorem getAuction_completes (id : Int) : Completes (getAuction id now).run now seen := by
  unfold getAuction
  rw [bind_assoc]
  refine ask_completes rfl fun auction? later hlater => ?_
  cases auction? with
  | none => exact .returned _
  | some auction => exact reconcile_completes (hlater List.mem_cons_self)

theorem getAllAuctions_completes : Completes (getAllAuctions now).run now seen :=
  ask_completes rfl fun _ _ hshown => .mapM fun _ hmem _ hlater =>
    reconcile_completes (hlater (hshown hmem))

theorem reconcileAll_completes : Completes (reconcileAll now).run now seen :=
  ask_completes rfl fun _ _ => completeOverdue_completes

theorem sweep_completes : Completes (sweep now) now seen :=
  reconcileAll_completes.bind fun _ _ _ => .returned ()

end Query

/-! ## Requests -/

namespace Http

variable {ttl : Nat} {request : Request}

theorem perform_completes {action : Action α} (hcompletes : Completes action.run now seen) :
    Completes (Handler.perform action).run now seen :=
  hcompletes.bind fun _ _ _ => .returned _

theorem handle_get_completes {resource : Resource} (hmethod : resource.method = .get) :
    Completes (handle ttl now request resource).run now seen := by
  cases resource with
  | auctions => exact .andThen (perform_completes Query.getAllAuctions_completes) fun _ _ _ => .returned _
  | auction id =>
      refine .andThen (.of_asks (Routine.Asks.ended _)) fun _ id _ => ?_
      exact .andThen (perform_completes (Query.getAuction_completes id)) fun _ _ _ => .returned _
  | buyerBids | adminVenues | adminVenue | adminAuctions | adminAuction | adminItems
  | auctionStatus | adminItemStatus => cases hmethod
  | _ => exact .of_asks (handle_reads rfl)

/-- Who answers a request for something to be read is a reader. -/
theorem respond_completes (hmethod : request.method = .get ∨ request.method = .head) :
    Completes (respond ttl now request) now seen := by
  unfold respond
  dsimp only
  split
  next => exact .returned _
  next =>
    split
    next => exact .returned _
    next resource _ =>
      split
      next haccepts =>
        have hget : resource.method = .get := by
          rcases hmethod with heq | heq <;> simp [Resource.accepts, heq] at haccepts
          · exact haccepts.symm
          · exact haccepts.resolve_left fun hhead => by cases resource <;> cases hhead
        refine (handle_get_completes hget).bind fun later outcome _ => ?_
        cases outcome <;> exact .returned _
      next => exact .returned _

end Http

end FishMarket
