import FishMarket.Proofs.Floor.Errands
import FishMarket.Proofs.Market.Rows

/-! # Requests as errands

Whoever answers a request runs one errand, if the request is not refused beforehand, and makes a
response of what the errand comes to. Only a request to place a bid takes two errands, the first of
which looks for the buyer. So what holds of errands carries over to requests.
-/

namespace FishMarket

open Calendar

namespace Errand

/-- Whether no item is changed or deleted by hand, behind the back of the cache. -/
def isRegular : Errand → Bool
  | direct (.deleteAuction _) _ => false
  | direct (.updateItemStatus _ _) _ => false
  | _ => true

/-- Whether what an errand may add to the market is within the ranges of its fields. -/
def InRange : Errand → Prop
  | createItem item now => StoreCall.InRange (.createItem item now)
  | direct call _ => call.InRange
  | _ => True

/-- The longest time in milliseconds for which an errand wants something to be cached. -/
def ttl : Errand → Nat
  | getItem ttl _ => Cache.itemTtl ttl
  | getBuyer ttl _ => ttl
  | getFisherman ttl _ => ttl
  | _ => 0

end Errand

namespace Http

variable {α : Type} {ttl : Nat} {now : Instant} {request : Request} {resource : Resource}

/-! ## Handlers -/

namespace Handler

/-- A handler that makes a reply of what an action yields. -/
theorem run_perform (action : Action α) (make : α → Reply) :
    (do return make (← perform action) : Handler Reply).run =
      action.run.bind fun outcome => .done ((outcome.mapError .failure).map make) := by
  refine (Routine.bind_assoc action.run _ _).trans ?_
  congr 1
  funext outcome
  cases outcome <;> rfl

/-- Whether a handler refuses a request, or runs an errand of some sort. -/
def Runs (handler : Handler Reply) (sort : Errand → Prop) : Prop :=
  (∃ outcome, handler.run = .done outcome) ∨
    ∃ errand, sort errand ∧ ∃ make : errand.Outcome → Except Refusal Reply,
      handler.run = errand.routine.bind fun outcome => .done (make outcome)

variable {sort : Errand → Prop}

theorem Runs.extracted {extracted : Except Refusal α} {next : α → Handler Reply}
    (hnext : ∀ value, extracted = .ok value → (next value).Runs sort) :
    (extract extracted >>= next).Runs sort := by
  cases extracted with
  | error refusal => exact .inl ⟨.error refusal, rfl⟩
  | ok value => exact hnext value rfl

end Handler

open Handler

/-- The errands that requests lead to, except for reading an item. -/
structure IsServed (ttl : Nat) (now : Instant) (errand : Errand) : Prop where
  regular : errand.isRegular = true
  inRange : now.Readable → errand.InRange
  noItem : ∀ ttl id, errand ≠ .getItem ttl id
  ttl_le : errand.ttl ≤ ttl

theorem handle_runs (hbids : resource ≠ .buyerBids) (hitem : ∀ id, resource ≠ .item id) :
    (handle ttl now request resource).Runs (IsServed ttl now) := by
  cases resource with
  | buyerBids => exact absurd rfl hbids
  | item id => exact absurd rfl (hitem id)
  | health => exact .inl ⟨_, rfl⟩
  | venues =>
      exact .inr ⟨.getAllVenues, ⟨rfl, fun _ => trivial, nofun, Nat.zero_le _⟩, _, run_perform _ _⟩
  | venue id =>
      refine .extracted fun id _ => ?_
      exact .inr ⟨.getVenue id, ⟨rfl, fun _ => trivial, nofun, Nat.zero_le _⟩, _, run_perform _ _⟩
  | auctions =>
      exact .inr ⟨.getAllAuctions now, ⟨rfl, fun _ => trivial, nofun, Nat.zero_le _⟩, _,
        run_perform _ _⟩
  | auction id =>
      refine .extracted fun id _ => ?_
      exact .inr ⟨.getAuction id now, ⟨rfl, fun _ => trivial, nofun, Nat.zero_le _⟩, _,
        run_perform _ _⟩
  | auctionItems id =>
      refine .extracted fun id _ => ?_
      exact .inr ⟨.getAuctionItems id, ⟨rfl, fun _ => trivial, nofun, Nat.zero_le _⟩, _,
        run_perform _ _⟩
  | auctionStatus id =>
      refine .extracted fun _ _ => .extracted fun id _ => .extracted fun body _ => ?_
      exact .inr ⟨.updateAuctionStatus id body.status now,
        ⟨rfl, fun _ => trivial, nofun, Nat.zero_le _⟩, _, run_perform _ _⟩
  | itemBids id =>
      refine .extracted fun id _ => ?_
      exact .inr ⟨.getItemBids id, ⟨rfl, fun _ => trivial, nofun, Nat.zero_le _⟩, _,
        run_perform _ _⟩
  | itemHighestBid id =>
      refine .extracted fun id _ => ?_
      exact .inr ⟨.getHighestBid id, ⟨rfl, fun _ => trivial, nofun, Nat.zero_le _⟩, _,
        run_perform _ _⟩
  | invoices =>
      exact .inr ⟨.listInvoices, ⟨rfl, fun _ => trivial, nofun, Nat.zero_le _⟩, _, run_perform _ _⟩
  | buyer id =>
      refine .extracted fun id _ => ?_
      exact .inr ⟨.getBuyer ttl id, ⟨rfl, fun _ => trivial, nofun, Nat.le_refl _⟩, _,
        run_perform _ _⟩
  | fisherman id =>
      refine .extracted fun id _ => ?_
      exact .inr ⟨.getFisherman ttl id, ⟨rfl, fun _ => trivial, nofun, Nat.le_refl _⟩, _,
        run_perform _ _⟩
  | adminVenues =>
      refine .extracted fun _ _ => .extracted fun venue _ => ?_
      exact .inr ⟨.createVenue venue now, ⟨rfl, fun _ => trivial, nofun, Nat.zero_le _⟩, _,
        run_perform _ _⟩
  | adminVenue id =>
      refine .extracted fun _ _ => .extracted fun id _ => ?_
      exact .inr ⟨.deleteVenue id now, ⟨rfl, fun _ => trivial, nofun, Nat.zero_le _⟩, _,
        run_perform _ _⟩
  | adminAuctions =>
      refine .extracted fun _ _ => .extracted fun auction _ => ?_
      exact .inr ⟨.createAuction auction now, ⟨rfl, fun _ => trivial, nofun, Nat.zero_le _⟩, _,
        run_perform _ _⟩
  | adminAuction id =>
      refine .extracted fun _ _ => .extracted fun id _ => ?_
      exact .inr ⟨.deleteAuction id, ⟨rfl, fun _ => trivial, nofun, Nat.zero_le _⟩, _,
        run_perform _ _⟩
  | adminItems =>
      refine .extracted fun _ _ => .extracted fun item hitem => ?_
      exact .inr ⟨.createItem item now, ⟨rfl, fun hnow => ⟨NewItem.inRange_of_record hitem, hnow⟩,
        nofun, Nat.zero_le _⟩, _, run_perform _ _⟩
  | adminItemStatus id =>
      refine .extracted fun _ _ => .extracted fun id _ => .extracted fun body _ => ?_
      exact .inr ⟨.updateItemStatus id body.status,
        ⟨rfl, fun _ => trivial, nofun, Nat.zero_le _⟩, _, run_perform _ _⟩

/-- What is replied to a request for an item. -/
def itemReply (outcome : Except Failure Item) : Except Refusal Reply :=
  (outcome.mapError .failure).map okRecord

theorem accepts_item {method : Method} {id : List Char}
    (haccepts : (Resource.item id).accepts method = true) : method = .get ∨ method = .head := by
  rcases Bool.or_eq_true_iff.mp haccepts with hget | hhead
  · exact .inl (of_decide_eq_true hget)
  · exact .inr (of_decide_eq_true (Bool.and_eq_true_iff.mp hhead).1)

theorem handle_item (id : List Char) :
    (handle ttl now request (.item id)).run =
      match pathId id with
      | .ok id => (Query.getItem ttl id).run.bind fun outcome => .done (itemReply outcome)
      | .error refusal => .done (.error refusal) := by
  rw [handle]
  cases pathId id with
  | error refusal => rfl
  | ok id => exact run_perform (Query.getItem ttl id) okRecord

theorem senderId?_of_sender {role : Role} {id : Int} (hsender : request.sender role = .ok id) :
    request.senderId? role = some id := by
  unfold Request.sender at hsender
  split at hsender
  next sender hid => exact Except.ok.inj hsender ▸ hid
  next => cases hsender

/-- Whoever asks for a bid to be placed, but sends no id, is refused. -/
theorem handle_buyerBids_of_nobody {refusal : Refusal} (ttl : Nat) (now : Instant)
    (hsender : request.sender .buyer = .error refusal) :
    (handle ttl now request .buyerBids).run = .done (.error refusal) := by
  rw [handle, hsender]
  rfl

/-- Whoever sends an id, but no bid, is refused before the buyer is looked for. -/
theorem handle_buyerBids_of_no_body {buyer : Int} {refusal : Refusal} (ttl : Nat) (now : Instant)
    (hsender : request.sender .buyer = .ok buyer)
    (hbody : request.record BidRequest = .error refusal) :
    (handle ttl now request .buyerBids).run = .done (.error refusal) := by
  rw [handle, hsender, hbody]
  rfl

/-- Whoever sends an id and a body is looked for, and then places the bid of the body. -/
theorem handle_buyerBids_of_ok {buyer : Int} {body : BidRequest} (ttl : Nat) (now : Instant)
    (hsender : request.sender .buyer = .ok buyer) (hbody : request.record BidRequest = .ok body) :
    (handle ttl now request .buyerBids).run =
      (Query.getBuyer ttl buyer).run.bind fun found =>
        match found with
        | .error failure => .done (.error (.failure (unknownBuyer failure)))
        | .ok _ => (Command.placeBid ⟨body.itemId, buyer, body.price⟩ now).run.bind fun outcome =>
            .done ((outcome.mapError .failure).map created) := by
  rw [handle, hsender, hbody]
  refine (Routine.bind_assoc (Query.getBuyer ttl buyer).run _ _).trans ?_
  congr 1
  funext found
  cases found with
  | error failure => rfl
  | ok found => exact run_perform (Command.placeBid _ now) created

/-- A bid is placed for the buyer who sends the request, once that buyer is found. -/
theorem handle_buyerBids (ttl : Nat) (now : Instant) (request : Request) :
    (∃ outcome, (handle ttl now request .buyerBids).run = .done outcome) ∨
      ∃ buyer place, request.senderId? .buyer = some buyer ∧ place.buyerId = buyer ∧
        (handle ttl now request .buyerBids).run =
        (Query.getBuyer ttl buyer).run.bind fun found =>
          match found with
          | .error failure => .done (.error (.failure (unknownBuyer failure)))
          | .ok _ => (Command.placeBid place now).run.bind fun outcome =>
              .done ((outcome.mapError .failure).map created) := by
  cases hsender : request.sender .buyer with
  | error refusal => exact .inl ⟨_, handle_buyerBids_of_nobody ttl now hsender⟩
  | ok buyer =>
      cases hbody : request.record BidRequest with
      | error refusal => exact .inl ⟨_, handle_buyerBids_of_no_body ttl now hsender hbody⟩
      | ok body =>
          exact .inr ⟨buyer, _, senderId?_of_sender hsender, rfl,
            handle_buyerBids_of_ok ttl now hsender hbody⟩

/-! ## Responses -/

/-- The response to a request whose handler has ended. -/
def finish (method : Method) (outcome : Except Refusal Reply) : Response :=
  let response :=
    match outcome with
    | .ok reply => reply.toResponse []
    | .error refusal => refusal.reply.toResponse []
  if method = .head then response.withoutBody else response

/-- The response to a request for a resource that answers its method is made of what the handler of
the resource comes to. -/
theorem respond_of_accepts (hresource : Resource.ofPath? request.path = some resource)
    (haccepts : resource.accepts request.method = true) :
    respond ttl now request = (handle ttl now request resource).run.bind fun outcome =>
      .done (finish request.method outcome) := by
  have hmethod : request.method ≠ .options := by
    intro hoptions
    rw [hoptions] at haccepts
    cases resource <;> cases haccepts
  simp only [respond, hresource, if_neg hmethod, if_pos haccepts]
  refine congrArg (Routine.bind _) (funext fun outcome => ?_)
  cases outcome <;> rfl

/-- Either the response is known at once, or it is made of what the handler of a resource comes
to. -/
theorem respond_cases (ttl : Nat) (now : Instant) (request : Request) :
    (∃ response, respond ttl now request = .done response) ∨
      ∃ resource, Resource.ofPath? request.path = some resource ∧
        resource.accepts request.method = true ∧
        respond ttl now request = (handle ttl now request resource).run.bind fun outcome =>
          .done (finish request.method outcome) := by
  cases hresource : Resource.ofPath? request.path with
  | none =>
      refine .inl ?_
      simp only [respond, hresource]
      split <;> exact ⟨_, rfl⟩
  | some resource =>
      cases haccepts : resource.accepts request.method with
      | true => exact .inr ⟨resource, rfl, haccepts, respond_of_accepts hresource haccepts⟩
      | false =>
          refine .inl ?_
          simp only [respond, hresource, haccepts]
          split <;> exact ⟨_, rfl⟩

/-- What holds of regular errands, and of routines that are put together from them, holds of the
answer to a request. -/
theorem respond_of_errands {property : ∀ {α : Type}, ServiceRoutine α → Prop}
    (hdone : ∀ {α : Type} (value : α), property (.done value))
    (hbind : ∀ {α β : Type} {routine : ServiceRoutine α} {next : α → ServiceRoutine β},
      property routine → (∀ value, property (next value)) → property (routine.bind next))
    (ttl : Nat) (request : Request)
    (herrand : ∀ errand : Errand, errand.isRegular = true →
      (now.Readable → errand.InRange) → property errand.routine) :
    property (respond ttl now request) := by
  rcases respond_cases ttl now request with ⟨response, heq⟩ | ⟨resource, -, -, heq⟩
  · rw [heq]
    exact hdone response
  · rw [heq]
    refine hbind ?_ fun outcome => hdone _
    by_cases hbids : resource = .buyerBids
    · subst hbids
      rcases handle_buyerBids ttl now request with ⟨outcome, heq⟩ | ⟨buyer, place, -, -, heq⟩
      · rw [heq]
        exact hdone outcome
      · rw [heq]
        refine hbind (herrand (.getBuyer ttl buyer) rfl fun _ => trivial) fun found => ?_
        cases found with
        | error failure => exact hdone _
        | ok found =>
            exact hbind (herrand (.placeBid place now) rfl fun _ => trivial) fun _ => hdone _
    · by_cases hitem : ∃ id, resource = .item id
      · obtain ⟨id, rfl⟩ := hitem
        rw [handle_item]
        split
        next id _ =>
          exact hbind (herrand (.getItem ttl id) rfl fun _ => trivial) fun _ => hdone _
        next refusal _ => exact hdone _
      · have hother : ∀ id, resource ≠ .item id := fun id heq => hitem ⟨id, heq⟩
        rcases handle_runs hbids hother with ⟨outcome, heq⟩ | ⟨errand, hserved, make, heq⟩
        · rw [heq]
          exact hdone outcome
        · rw [heq]
          exact hbind (herrand errand hserved.regular hserved.inRange) fun _ => hdone _

end Http

end FishMarket
