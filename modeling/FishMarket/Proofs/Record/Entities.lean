import FishMarket.Auction
import FishMarket.Invoice
import FishMarket.Proofs.Cache.Recall
import FishMarket.Proofs.Record.Flattened
import FishMarket.Venue

/-! # Entities read back

Everything that the service writes as a record is read back as it was, as long as its numbers fit
their words, its days are of the calendar that can be written, and its leap seconds are the last of
a minute. It does not matter what the texts are made of and how fine a time is.
-/

namespace FishMarket

open Calendar

/-! ## Lawful records -/

instance : LawfulRecorded Venue where
  nodup := by decide
  shape venue := by
    refine .cons (.inr trivial) (.cons (.inr trivial) (.cons (.inr trivial) (.cons (.inr trivial)
      (.cons (.inr trivial) (.cons ?_ .nil)))))
    exact Field.matches_ofOption "deleted_at" .instant .instant (fun _ => trivial) venue.deletedAt?
  ofData?_data := fun ⟨_, _, _, _, _, deletedAt?⟩ => by cases deletedAt? <;> rfl

instance : LawfulRecorded Auction where
  nodup := by decide
  shape auction := by
    refine .cons (.inr trivial) (.cons (.inr trivial) (.cons (.inr trivial) (.cons ?_ (.cons ?_
      (.cons (.inr trivial) (.cons (.inr trivial) (.cons (.inr trivial) .nil)))))))
    · exact Field.matches_ofOption "start_time" .time .time (fun _ => trivial) auction.startTime?
    · exact Field.matches_ofOption "end_time" .time .time (fun _ => trivial) auction.endTime?
  ofData?_data := fun ⟨_, _, _, startTime?, endTime?, _, _, _⟩ => by
    cases startTime? <;> cases endTime? <;> rfl

instance : LawfulRecorded Bid where
  nodup := by decide
  shape _ := by repeat first | exact .nil | refine .cons (.inr trivial) ?_
  ofData?_data _ := rfl

instance : LawfulRecorded HighestBid where
  nodup := by decide
  shape _ := by repeat first | exact .nil | refine .cons (.inr trivial) ?_
  ofData?_data _ := rfl

instance : LawfulRecorded BuyerTotal where
  nodup := by decide
  shape _ := by repeat first | exact .nil | refine .cons (.inr trivial) ?_
  ofData?_data _ := rfl

instance : LawfulRecorded InvoiceLine where
  nodup := by decide
  shape _ := by repeat first | exact .nil | refine .cons (.inr trivial) ?_
  ofData?_data _ := rfl

/-! ## Reading back -/

/-- Whether the records of a type are read back by a reader: from their JSON form, from the cache of
the service, if its clock lasts for their time, and from one that is shared. -/
structure ReadsBack (α : Type) [Recorded α] (read : List Char → Except Json.Fault α) : Prop where
  decoded : ∀ record : α, Recorded.InRange record → read (Recorded.json record) = .ok record
  recalled : ∀ record : α, Recorded.InRange record →
    ∀ (service : Service) (key : String) (ttl : Nat) (happenings : List Happening),
      (∀ happening ∈ happenings, happening.Spares key) →
      service.moment + ttl < MemoryCache.endOfClock →
      ∃ stored, service.perform? (Action.remember key record ttl) = (some (.ok ()), stored) ∧
        let later := stored.meetAll happenings
        later.moment < service.moment + ttl →
          (later.perform? (Action.remembered? read key)).1 = some (.ok (.ok (some record)))
  shared : ∀ record : α, Recorded.InRange record →
    ∀ (bench : Remote.Bench) (cache : SharedCache), bench.cache = .shared cache →
      cache.down = false → ∀ (key : String) (ttl : Nat) (calls : List RemoteCall),
      (∀ call ∈ calls, call.Spares key) →
      let stored := (bench.run (Remote.ofService (Action.remember key record ttl).run)).2
      ((stored.answerAll calls).run (Remote.ofService (Action.remembered? read key).run)).1 =
        .ok (.ok (some record))

theorem ReadsBack.of_decoded {α : Type} [Recorded α] {read : List Char → Except Json.Fault α}
    (hdecoded : ∀ record : α, Recorded.InRange record →
      read (Recorded.json record) = .ok record) : ReadsBack α read where
  decoded := hdecoded
  recalled record hrange _ _ _ _ hspares hlasts :=
    Service.remembered?_of_remember (hdecoded record hrange) hlasts hspares
  shared record hrange _ _ hcache hdown key ttl _ hspares :=
    Remote.Bench.remembered?_of_remember (hdecoded record hrange) hcache hdown key ttl hspares

theorem ReadsBack.of_lawful (α : Type) [Recorded α] [LawfulRecorded α] :
    ReadsBack α (Record.readWhole α) :=
  .of_decoded fun _ hrange => Recorded.readWhole_json_of_inRange hrange

example :
    let venue : Venue := {
      id := Text.minInt64
      name := "\"Pier\\\u0007"
      location := "부산 🐟"
      description := ""
      createdAt := ⟨Date.ofCivil (-1) 12 31, ⟨86399, 1999999999, by decide, by decide⟩⟩
      deletedAt? := some ⟨Date.ofCivil 12345 2 28, .midnight⟩ }
    Record.readWhole Venue (Recorded.json venue) = .ok venue :=
  (ReadsBack.of_lawful Venue).decoded _ (by decide +kernel)

/-- All entities are read back as they were, if they are in range. The members of the item of a
listing stand among those of the listing. -/
theorem entities_read_back :
    ReadsBack Venue (Record.readWhole Venue) ∧ ReadsBack Auction (Record.readWhole Auction) ∧
    ReadsBack Item (Record.readWhole Item) ∧ ReadsBack Fisherman (Record.readWhole Fisherman) ∧
    ReadsBack Buyer (Record.readWhole Buyer) ∧ ReadsBack Bid (Record.readWhole Bid) ∧
    ReadsBack HighestBid (Record.readWhole HighestBid) ∧ ReadsBack Listing Listing.readWhole ∧
    ReadsBack BuyerTotal (Record.readWhole BuyerTotal) ∧
    ReadsBack InvoiceLine (Record.readWhole InvoiceLine) :=
  ⟨.of_lawful Venue, .of_lawful Auction, .of_lawful Item, .of_lawful Fisherman, .of_lawful Buyer,
    .of_lawful Bid, .of_lawful HighestBid, .of_decoded fun _ => Listing.readWhole_json,
    .of_lawful BuyerTotal, .of_lawful InvoiceLine⟩

/-- An auction that starts in a leap second after 08:00:30. -/
def leapStart : Auction where
  id := 1
  venueId := 1
  date := ⟨19800⟩
  startTime? := some ⟨28830, 1500000000, by decide, by decide⟩
  endTime? := none
  status := .scheduled
  createdAt := ⟨⟨19792⟩, default⟩
  updatedAt := ⟨⟨19792⟩, default⟩

/-- An auction that starts in a leap second within a minute is not read back as it was, although its
numbers and dates are in range. -/
theorem leap_second_within_minute_is_not_read_back :
    ¬ ∀ auction : Auction, Recorded.Fits auction →
      Record.readWhole Auction (Recorded.json auction) = .ok auction := by
  intro hread
  -- it is read as one that starts in the middle of the second after it
  have hother : (Record.readWhole Auction (Recorded.json leapStart)).toOption.map
      Auction.startTime? = some (some ⟨28831, 500000000, by decide, by decide⟩) := by
    decide +kernel
  rw [hread leapStart (by decide +kernel)] at hother
  exact absurd hother (by decide)

end FishMarket
