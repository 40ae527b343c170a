import FishMarket.Proofs.Http.Failures
import FishMarket.Proofs.Service.Surfacing

/-! # Responses after a failure of the store

Whichever call to the store fails while a request is carried out, the response does not say that the
request has succeeded. If what has failed is a matter of the service itself, the response is the
same for all such failures, so nobody learns from it what has gone wrong.
-/

namespace FishMarket.Http

open Calendar Handler

variable {α : Type} {ttl : Nat} {now : Instant} {request : Request} {resource : Resource}

/-! ## Handlers -/

namespace Handler

/-- Whether a handler refuses a request with each failure of the store. A failure may be changed
before it is reported, unless it lies inside the service. -/
def Surfaces (handler : Handler α) : Prop :=
  ServiceRoutine.Surfaces (fun report => ∃ change : Failure → Failure,
    (∀ breakdown, change (.internal breakdown) = .internal breakdown) ∧
      report = fun failure => .error (.failure (change failure))) handler.run

namespace Surfaces

theorem replied (reply : α) : (pure reply : Handler α).Surfaces := trivial

theorem extracted {β : Type} {extracted : Except Refusal α} {next : α → Handler β}
    (hnext : ∀ value, (next value).Surfaces) : (extract extracted >>= next).Surfaces := by
  cases extracted with
  | error refusal => exact trivial
  | ok value => exact hnext value

theorem performedOr {β : Type} {change : Failure → Failure} {action : Action α}
    {next : α → Handler β} (haction : action.Surfaces)
    (hchange : ∀ breakdown, change (.internal breakdown) = .internal breakdown)
    (hnext : ∀ value, (next value).Surfaces) : (performOr change action >>= next).Surfaces := by
  have hperform : (performOr change action).Surfaces := by
    refine ServiceRoutine.Surfaces.bind haction (fun _ => trivial) ?_
    rintro report rfl
    exact ⟨_, ⟨change, hchange, rfl⟩, fun _ => rfl⟩
  refine ServiceRoutine.Surfaces.bind hperform (fun outcome => ?_) fun report hreport => ?_
  · cases outcome with
    | ok value => exact hnext value
    | error refusal => exact trivial
  · obtain ⟨change, hchange, rfl⟩ := hreport
    exact ⟨_, ⟨change, hchange, rfl⟩, fun _ => rfl⟩

theorem performed {action : Action α} {make : α → Reply} (haction : action.Surfaces) :
    (do return make (← perform action) : Handler Reply).Surfaces :=
  performedOr haction (fun _ => rfl) fun _ => replied _

end Surfaces

end Handler

theorem handle_surfaces (ttl : Nat) (now : Instant) (request : Request) (resource : Resource) :
    (handle ttl now request resource).Surfaces := by
  cases resource with
  | health => exact .replied _
  | buyerBids =>
      refine .extracted fun buyer => .extracted fun body => ?_
      refine .performedOr (.lookup _ (.readThrough _ _ (.store _))) (fun _ => rfl) fun _ => ?_
      exact .performed (Command.placeBid_surfaces _ now)
  | venues => exact .performed (.store _)
  | venue id => exact .extracted fun id => .performed (.lookup _ (.store _))
  | auctions => exact .performed (Query.getAllAuctions_surfaces now)
  | auction id => exact .extracted fun id => .performed (Query.getAuction_surfaces id now)
  | auctionItems id => exact .extracted fun id => .performed (Query.getAuctionItems_surfaces id)
  | auctionStatus id =>
      refine .extracted fun _ => .extracted fun id => .extracted fun body => ?_
      exact .performed (Command.updateAuctionStatus_surfaces id body.status now)
  | item id | buyer id | fisherman id =>
      exact .extracted fun id => .performed (.lookup _ (.readThrough _ _ (.store _)))
  | itemBids id => exact .extracted fun id => .performed (Query.getItemBids_surfaces id)
  | itemHighestBid id => exact .extracted fun id => .performed (.store _)
  | invoices => exact .performed Query.listInvoices_surfaces
  | adminVenues =>
      refine .extracted fun _ => .extracted fun venue => ?_
      exact .performed (Command.createVenue_surfaces venue now)
  | adminVenue id =>
      refine .extracted fun _ => .extracted fun id => ?_
      exact .performed (Command.deleteVenue_surfaces id now)
  | adminAuctions =>
      refine .extracted fun _ => .extracted fun auction => ?_
      exact .performed (Command.createAuction_surfaces auction now)
  | adminAuction id =>
      refine .extracted fun _ => .extracted fun id => ?_
      exact .performed (Command.deleteAuction_surfaces id)
  | adminItems =>
      refine .extracted fun _ => .extracted fun item => ?_
      exact .performed (Command.createItem_surfaces item now)
  | adminItemStatus id =>
      refine .extracted fun _ => .extracted fun id => .extracted fun body => ?_
      exact .performed (Command.updateItemStatus_surfaces id body.status)

/-! ## Responses -/

/-- What is said about every failure inside the service. -/
def internalErrorText : String :=
  "\x7b\"code\":\"INTERNAL\",\"error\":\"Internal server error\"\x7d"

/-- The response to a request that a failure inside the service has ended. -/
def internalError (method : Method) : Response where
  status := 500
  headers := ("content-type", "application/json") :: lengthHeader internalErrorText ::
    sharingHeaders
  body := if method = .head then "" else internalErrorText

theorem failureContent_internal (breakdown : Breakdown) :
    failureContent (.internal breakdown) = .json internalErrorText.toList := by
  change failureContent (.internal .database) = _
  decide +kernel

theorem finish_internal (method : Method) (breakdown : Breakdown) :
    finish method (.error (.failure (.internal breakdown))) = internalError method := by
  simp only [finish, Refusal.reply, failureContent_internal, Reply.toResponse, Content.body,
    String.ofList_toList]
  cases method <;> rfl

theorem isSuccess_finish_error (method : Method) (failure : Failure) :
    isSuccess (finish method (.error (.failure failure))).status = false := by
  rw [status_finish_error]
  cases failure <;> rfl

/-- What is reported of a failure of the store. -/
def IsReport (method : Method) (report : Failure → Response) : Prop :=
  (∀ failure, isSuccess (report failure).status = false) ∧
    ∀ breakdown, report (.internal breakdown) = internalError method

theorem respond_surfaces (ttl : Nat) (now : Instant) (request : Request) :
    ServiceRoutine.Surfaces (IsReport request.method) (respond ttl now request) := by
  rcases respond_cases ttl now request with ⟨response, heq⟩ | ⟨resource, -, -, heq⟩
  · rw [heq]
    exact trivial
  · rw [heq]
    refine ServiceRoutine.Surfaces.bind (handle_surfaces ttl now request resource)
      (fun _ => trivial) fun report hreport => ?_
    obtain ⟨change, hchange, rfl⟩ := hreport
    refine ⟨_, ⟨fun failure => isSuccess_finish_error _ (change failure), fun breakdown => ?_⟩,
      fun failure => rfl⟩
    rw [hchange]
    exact finish_internal request.method breakdown

/-- If any one call to the store fails while a request is answered, the response does not say that
the request has succeeded. If the failure lies inside the service, the response says only that,
unless what has failed was a rollback, and a different failure inside the service would have led to
the same response and to the same state. -/
theorem store_failures_surface (forecast : Forecast) (exposed : Exposed) (calls ttl : Nat)
    (now : Instant) (request : Request) (failure : Failure) (call : StoreCall)
    (hstruck : ((respond ttl now request).run (Faulty.answer forecast failure)
      ⟨exposed, .due calls⟩).2.fault = .struck call) :
    let ended := (respond ttl now request).run (Faulty.answer forecast failure)
      ⟨exposed, .due calls⟩
    isSuccess ended.1.status = false ∧
      ∀ breakdown, failure = .internal breakdown →
        ((∀ transaction, call ≠ .rollback transaction) →
          ended.1 = internalError request.method) ∧
        ∀ other, (respond ttl now request).run (Faulty.answer forecast (.internal other))
          ⟨exposed, .due calls⟩ = ended := by
  intro ended
  have hsurfaces := respond_surfaces ttl now request
  obtain ⟨report, ⟨hfails, hinternal⟩, cause, hreport, hcause⟩ :=
    hsurfaces.reported forecast failure hstruck
  refine ⟨?_, ?_⟩
  · rw [hreport]
    exact hfails cause
  · rintro breakdown rfl
    refine ⟨fun hcall => ?_, fun other => ?_⟩
    · rw [hreport, hcause hcall]
      exact hinternal breakdown
    · refine hsurfaces.run_congr forecast (fun report hreport => ?_) _
      rw [hreport.2, hreport.2]

/-- A bid whose item cannot be marked, for reasons that nobody is told. -/
theorem broken_bid_is_internal_error :
    let now : Instant := ⟨⟨19792⟩, default⟩
    let forecast : Forecast := fun _ => ⟨0, fun _ => false, false⟩
    let market := Market.initial.takeAll [.call (.createBuyer "Lee" now)]
    let request : Request := ⟨.post, "/api/buyer/bids",
      [("x-buyer-id", "1"), ("content-type", "application/json")],
      "\x7b\"item_id\":2,\"price\":100\x7d".toUTF8⟩
    let ended := (respond 0 now request).run
      (Faulty.answer forecast (.internal (.stated "10.0.0.7 refused")))
      ⟨⟨⟨market, .empty, 0⟩, 0⟩, .due 2⟩
    ended.2.fault = .struck (.setItemStatusIn 1 2 .sold) ∧ ended.1 = internalError .post := by
  intro now forecast market request ended
  have hstruck : ended.2.fault = .struck (.setItemStatusIn 1 2 .sold) := by decide +kernel
  exact ⟨hstruck,
    ((store_failures_surface forecast _ 2 0 now request _ _ hstruck).2 _ rfl).1 nofun⟩

end FishMarket.Http
