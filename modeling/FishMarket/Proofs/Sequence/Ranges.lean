import FishMarket.Proofs.Sequence.Visits

/-! # Rows within their ranges

Fields of records are written as numbers and dates that have a range. Nobody comes with business
that would bring a row out of its range, except by its id, once ids have become too great.
-/

namespace FishMarket

open Calendar

variable {α : Type}

/-- Whether what a call of the service adds is within the ranges of its fields. -/
def ServiceCall.InRange : ServiceCall → Prop
  | .store call => call.InRange
  | .cache _ => True

namespace ServiceCall

variable {call : ServiceCall}

theorem IsQuiet.inRange (hquiet : call.IsQuiet) : call.InRange := by
  cases call with
  | cache call => exact trivial
  | store call => exact StoreCall.inRange_of_isQuiet hquiet

theorem IsReading.inRange (hreads : call.IsReading) : call.InRange := by
  cases call with
  | cache call => exact trivial
  | store call => exact StoreCall.inRange_of_isQuiet (StoreCall.isQuiet_of_reads hreads)

end ServiceCall

theorem Errand.routine_inRange {errand : Errand} (hrange : errand.InRange) :
    errand.routine.Asks ServiceCall.InRange := by
  cases errand with
  | placeBid place now =>
      refine (Command.placeBid_fulfils place now).asks fun phase call hplaces => ?_
      cases hplaces <;> exact trivial
  | deleteAuction id =>
      exact Command.deleteAuction_asks (fun _ => ServiceCall.IsQuiet.inRange) trivial
        fun _ => trivial
  | createItem item now =>
      exact Command.createItem_asks (fun _ => ServiceCall.IsQuiet.inRange) hrange
  | updateItemStatus id status =>
      exact Command.updateItemStatus_asks (fun _ => ServiceCall.IsQuiet.inRange) status
        (fun _ => trivial) trivial
  | getItem ttl id => exact (Query.getItem_reads ttl id).mono fun _ => ServiceCall.IsReading.inRange
  | getBuyer ttl id =>
      exact (Query.getBuyer_reads ttl id).mono fun _ => ServiceCall.IsReading.inRange
  | getFisherman ttl id =>
      exact (Query.getFisherman_reads ttl id).mono fun _ => ServiceCall.IsReading.inRange
  | direct call hplain => exact ⟨hrange, fun _ => trivial⟩
  | _ => exact (routine_quiet rfl).mono fun _ => ServiceCall.IsQuiet.inRange

theorem Visit.routine_inRange (visit : Visit) :
    (Trade.routine visit.business).Asks ServiceCall.InRange := by
  obtain ⟨business, -, hrange⟩ := visit
  cases business with
  | errand work => exact Errand.routine_inRange hrange
  | request ttl now received =>
      apply Http.respond_of_errands Routine.Asks.pure Routine.Asks.bind
      exact fun errand _ herrand => Errand.routine_inRange (herrand hrange)

namespace Market

theorem alone_ranged {routine : ServiceRoutine α} {market : Market}
    (hrange : routine.Asks ServiceCall.InRange) (hranged : market.Ranged)
    (hconsistent : market.Consistent) : (routine.run alone market).2.Ranged := by
  induction routine generalizing market with
  | done value => exact hranged
  | ask call next ih =>
      cases call with
      | store call =>
          exact ih _ (hrange.2 _) (hranged.answer hconsistent hrange.1)
            (hconsistent.take (.call call))
      | cache call => cases call <;> exact ih _ (hrange.2 _) hranged hconsistent

/-- After any visits, the rows that may be cached are within their ranges. -/
theorem after_ranged (visits : List Visit) : (after visits).Ranged ∧ (after visits).Consistent := by
  induction visits using List.reverseRecOn with
  | nil => exact ⟨.initial, .initial⟩
  | append_singleton visits visit ih =>
      obtain ⟨hranged, hconsistent⟩ := ih
      rw [after_append]
      exact ⟨alone_ranged visit.routine_inRange hranged hconsistent,
        alone_stable Consistent.stable _ hconsistent hconsistent⟩

end Market

end FishMarket
