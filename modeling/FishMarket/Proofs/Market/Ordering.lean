import FishMarket.Proofs.Calendar.BusinessTime
import FishMarket.Proofs.Market.Listings

/-! # The order of listings

A listing has each of its rows once, and one row before the other by a rule that leaves no two rows
with different ids in the same place. So what is on record determines the listing: it does not
matter in which order the rows came in, or in which order the bids were committed.
-/

namespace FishMarket

open Calendar

variable {α : Type}

/-! ## Which row comes first -/

/-- Whether an auction is listed before another: by a later date, or on the same date by a greater
id. -/
def Auction.ListedBefore (a b : Auction) : Prop :=
  b.date < a.date ∨ a.date = b.date ∧ b.id < a.id

/-- Whether an item is listed before another: by a smaller sort order, or in the same sort order by
a smaller id. -/
def Item.ListedBefore (a b : Item) : Prop :=
  a.sortOrder < b.sortOrder ∨ a.sortOrder = b.sortOrder ∧ a.id < b.id

/-- Whether a bid is listed before another: by a later time, or at the same time by a greater id. -/
def Bid.ListedBefore (a b : Bid) : Prop :=
  b.createdAt < a.createdAt ∨ a.createdAt = b.createdAt ∧ b.id < a.id

/-- Whether a venue is listed before another: by a smaller id. -/
def Venue.ListedBefore (a b : Venue) : Prop :=
  a.id < b.id

/-- Whether sorting by a test puts rows with different ids into a strict order. -/
structure Arranges (precedes : α → α → Bool) (before : α → α → Prop) (ident : α → Int) : Prop where
  trans : ∀ a b c, precedes a b = true → precedes b c = true → precedes a c = true
  total : ∀ a b, (precedes a b || precedes b a) = true
  strict : ∀ a b, precedes a b = true → ident a ≠ ident b → before a b

theorem Auction.listedBefore_asymm (a b : Auction) (hbefore : a.ListedBefore b) :
    ¬ b.ListedBefore a := by
  unfold ListedBefore at *
  simp only [Date.lt_iff, Date.eq_iff] at *
  omega

theorem Item.listedBefore_asymm (a b : Item) (hbefore : a.ListedBefore b) :
    ¬ b.ListedBefore a := by
  unfold ListedBefore at *
  omega

theorem Bid.listedBefore_asymm (a b : Bid) (hbefore : a.ListedBefore b) :
    ¬ b.ListedBefore a := by
  unfold ListedBefore at *
  simp only [Instant.lt_iff, Instant.eq_iff] at *
  omega

theorem Venue.listedBefore_asymm (a b : Venue) (hbefore : a.ListedBefore b) :
    ¬ b.ListedBefore a :=
  Int.not_lt.mpr (Int.le_of_lt hbefore)

namespace Market

theorem auctionPrecedes_iff {a b : Auction} : auctionPrecedes a b = true ↔
    b.date.dayNumber < a.date.dayNumber ∨
      a.date.dayNumber = b.date.dayNumber ∧ b.id ≤ a.id := by
  simp [auctionPrecedes, Date.lt_iff, Date.eq_iff]

theorem itemPrecedes_iff {a b : Item} : itemPrecedes a b = true ↔
    a.sortOrder < b.sortOrder ∨ a.sortOrder = b.sortOrder ∧ a.id ≤ b.id := by
  simp [itemPrecedes]

theorem bidPrecedes_iff {a b : Bid} : bidPrecedes a b = true ↔
    b.createdAt < a.createdAt ∨ a.createdAt = b.createdAt ∧ b.id ≤ a.id := by
  simp [bidPrecedes]

theorem auctionPrecedes_arranges : Arranges auctionPrecedes Auction.ListedBefore Auction.id where
  trans a b c := by
    simp only [auctionPrecedes_iff]
    omega
  total a b := by
    rw [Bool.or_eq_true]
    simp only [auctionPrecedes_iff]
    omega
  strict a b := by
    simp only [auctionPrecedes_iff, Auction.ListedBefore, Date.lt_iff, Date.eq_iff]
    omega

theorem itemPrecedes_arranges : Arranges itemPrecedes Item.ListedBefore Item.id where
  trans a b c := by
    simp only [itemPrecedes_iff]
    omega
  total a b := by
    rw [Bool.or_eq_true]
    simp only [itemPrecedes_iff]
    omega
  strict a b := by
    simp only [itemPrecedes_iff, Item.ListedBefore]
    omega

theorem bidPrecedes_arranges : Arranges bidPrecedes Bid.ListedBefore Bid.id where
  trans a b c := by
    simp only [bidPrecedes_iff, Instant.lt_iff, Instant.eq_iff]
    omega
  total a b := by
    rw [Bool.or_eq_true]
    simp only [bidPrecedes_iff, Instant.lt_iff, Instant.eq_iff]
    omega
  strict a b := by
    simp only [bidPrecedes_iff, Bid.ListedBefore, Instant.lt_iff, Instant.eq_iff]
    omega

end Market

/-! ## Lists in strict order -/

/-- Whether a list shows certain rows and no others, each of them once and all of them in strict
order. -/
structure Shows (before : α → α → Prop) (shown : α → Prop) (list : List α) : Prop where
  complete : ∀ row, row ∈ list ↔ shown row
  once : list.Nodup
  ordered : list.Pairwise before

namespace Shows

variable {before : α → α → Prop} {shown : α → Prop} {list other rows : List α} {ident : α → Int}

/-- There is only one list that shows certain rows. -/
theorem unique (hasymm : ∀ a b, before a b → ¬ before b a) (hshows : Shows before shown list)
    (hother : Shows before shown other) : list = other := by
  have hsame (row : α) : row ∈ list ↔ row ∈ other :=
    (hshows.complete row).trans (hother.complete row).symm
  have hperm : list.Perm other :=
    (List.perm_ext_iff_of_nodup hshows.once hother.once).mpr hsame
  refine hperm.eq_of_pairwise (fun a b _ _ hbefore hafter => ?_) hshows.ordered hother.ordered
  exact absurd hafter (hasymm a b hbefore)

theorem eq_iff (hasymm : ∀ a b, before a b → ¬ before b a) (hshows : Shows before shown list) :
    Shows before shown other ↔ other = list :=
  ⟨fun hother => hother.unique hasymm hshows, fun heq => heq ▸ hshows⟩

theorem congr {shown' : α → Prop} (hshown : ∀ row, shown row ↔ shown' row)
    (hshows : Shows before shown list) : Shows before shown' list where
  complete row := (hshows.complete row).trans (hshown row)
  once := hshows.once
  ordered := hshows.ordered

/-- Rows with different ids, once they are sorted, are shown in strict order. -/
theorem of_mergeSort {precedes : α → α → Bool} (harranges : Arranges precedes before ident)
    (hids : (rows.map ident).Nodup) (hrows : ∀ row, row ∈ rows ↔ shown row) :
    Shows before shown (rows.mergeSort precedes) := by
  have hperm := List.mergeSort_perm rows precedes
  have hsorted := List.pairwise_mergeSort harranges.trans harranges.total rows
  have hdistinct : (rows.mergeSort precedes).Pairwise fun a b => ident a ≠ ident b :=
    List.pairwise_map.mp ((hperm.map ident).nodup_iff.mpr hids)
  refine ⟨fun row => hperm.mem_iff.trans (hrows row), ?_, ?_⟩
  · exact hperm.nodup_iff.mpr (.of_map ident hids)
  · exact hsorted.imp₂ harranges.strict hdistinct

end Shows

namespace Table.Keyed

variable {ident : α → Int} {table : Table α}

/-- Rows that stand under their ids are in the order of their ids. -/
theorem pairwise_values (hkeyed : table.Keyed ident) :
    table.values.Pairwise fun a b => ident a < ident b := by
  refine List.pairwise_map.mpr ?_
  refine table.ordered.imp_of_mem fun {first second} hfirst hsecond hlt => ?_
  rw [hkeyed _ _ (find?_eq_some_iff.mpr hfirst), hkeyed _ _ (find?_eq_some_iff.mpr hsecond)]
  exact hlt

theorem nodup_ids (hkeyed : table.Keyed ident) : (table.values.map ident).Nodup :=
  List.pairwise_map.mpr (hkeyed.pairwise_values.imp Int.ne_of_lt)

theorem mem_values_iff (hkeyed : table.Keyed ident) {row : α} :
    row ∈ table.values ↔ table.find? (ident row) = some row := by
  rw [Table.mem_values_iff]
  refine ⟨fun ⟨key, hfound⟩ => ?_, fun hfound => ⟨ident row, hfound⟩⟩
  rwa [hkeyed key row hfound]

end Table.Keyed

/-! ## The listings of a market -/

namespace Market

variable {market : Market}

/-- Whether an auction is on record. -/
def HasAuction (market : Market) (auction : Auction) : Prop :=
  market.auctions.find? auction.id = some auction

/-- Whether an item of an auction is on record. -/
def HasItemOf (market : Market) (auction : Int) (item : Item) : Prop :=
  market.items.find? item.id = some item ∧ item.auctionId = auction

/-- Whether a bid on an item is on record. -/
def HasBidOn (market : Market) (item : Int) (bid : Bid) : Prop :=
  bid ∈ market.ledger ∧ bid.itemId = item

/-- Whether a venue is on record and has not been given up. -/
def HasOpenVenue (market : Market) (venue : Venue) : Prop :=
  market.venues.find? venue.id = some venue ∧ venue.deletedAt? = none

theorem Filed.shows_listAuctions (hfiled : market.Filed) :
    Shows Auction.ListedBefore market.HasAuction market.listAuctions :=
  .of_mergeSort auctionPrecedes_arranges hfiled.auctions.nodup_ids fun _ =>
    hfiled.auctions.mem_values_iff

theorem Filed.shows_itemsOf (hfiled : market.Filed) (auction : Int) :
    Shows Item.ListedBefore (market.HasItemOf auction) (market.itemsOf auction) := by
  refine .of_mergeSort itemPrecedes_arranges ?_ fun item => ?_
  · exact hfiled.items.nodup_ids.sublist (List.filter_sublist.map Item.id)
  · rw [List.mem_filter, hfiled.items.mem_values_iff, decide_eq_true_iff]
    rfl

theorem Consistent.shows_listBidsForItem (hconsistent : market.Consistent) (item : Int) :
    Shows Bid.ListedBefore (market.HasBidOn item) (market.listBidsForItem item) := by
  refine .of_mergeSort bidPrecedes_arranges (hconsistent.nodup_bidsOn item) fun bid => ?_
  rw [bidsOn, List.mem_filter, decide_eq_true_iff]
  rfl

theorem Filed.shows_listVenues (hfiled : market.Filed) :
    Shows Venue.ListedBefore market.HasOpenVenue market.listVenues where
  complete venue := by
    rw [listVenues, List.mem_filter, hfiled.venues.mem_values_iff, Venue.isVisible,
      Option.isNone_iff_eq_none]
    rfl
  once := (hfiled.venues.nodup_ids.of_map Venue.id).filter _
  ordered := hfiled.venues.pairwise_values.filter _

/-- Whether listings make up the catalogue of an auction: they show its items, each with the highest
bid on it. -/
structure Catalogues (market : Market) (auction : Int) (listings : List Listing) : Prop where
  items : Shows Item.ListedBefore (market.HasItemOf auction) (listings.map Listing.item)
  highest : ∀ listing ∈ listings,
    listing = .ofItem listing.item (market.highestBid listing.item.id)

theorem map_item_listItemListings (market : Market) (auction : Int) :
    (market.listItemListings auction).map Listing.item = market.itemsOf auction := by
  simp [listItemListings, Listing.ofItem, Function.comp_def]

theorem Filed.catalogues_listItemListings (hfiled : market.Filed) (auction : Int) :
    market.Catalogues auction (market.listItemListings auction) where
  items := by
    rw [map_item_listItemListings]
    exact hfiled.shows_itemsOf auction
  highest listing hmem := by
    obtain ⟨item, -, -, rfl⟩ := mem_listItemListings_iff.mp hmem
    rfl

/-- Listings with the highest bids of the market are settled by their items. -/
theorem eq_map_of_highest {listings : List Listing}
    (hhighest : ∀ listing ∈ listings,
      listing = .ofItem listing.item (market.highestBid listing.item.id)) :
    listings =
      (listings.map Listing.item).map fun item => .ofItem item (market.highestBid item.id) := by
  rw [List.map_map]
  calc listings = listings.map id := (List.map_id listings).symm
    _ = _ := List.map_congr_left hhighest

theorem Catalogues.unique {auction : Int} {listings others : List Listing}
    (hlistings : market.Catalogues auction listings)
    (hothers : market.Catalogues auction others) : listings = others := by
  rw [eq_map_of_highest hlistings.highest, eq_map_of_highest hothers.highest,
    hlistings.items.unique Item.listedBefore_asymm hothers.items]

/-- The highest bid on an item is settled by which bids are on it. -/
theorem Consistent.highestBid_congr {other : Market} (hconsistent : market.Consistent)
    (hother : other.Consistent) {id : Int}
    (hbids : ∀ bid, market.HasBidOn id bid ↔ other.HasBidOn id bid) :
    market.highestBid id = other.highestBid id := by
  have hperm : (market.bidsOn id).Perm (other.bidsOn id) := by
    refine (List.perm_ext_iff_of_nodup (.of_map Bid.id (hconsistent.nodup_bidsOn id))
      (.of_map Bid.id (hother.nodup_bidsOn id))).mpr fun bid => ?_
    rw [bidsOn, bidsOn, List.mem_filter, List.mem_filter, decide_eq_true_iff]
    exact hbids bid
  exact (Bid.pickHighest_perm (hconsistent.nodup_bidsOn id) hperm).symm

theorem Catalogues.congr {other : Market} (hconsistent : market.Consistent)
    (hother : other.Consistent) {auction : Int}
    (hitems : ∀ item, market.HasItemOf auction item ↔ other.HasItemOf auction item)
    (hbids : ∀ item, market.HasItemOf auction item →
      ∀ bid, market.HasBidOn item.id bid ↔ other.HasBidOn item.id bid)
    {listings : List Listing} (hlistings : market.Catalogues auction listings) :
    other.Catalogues auction listings where
  items := hlistings.items.congr hitems
  highest listing hmem := by
    have hitem : market.HasItemOf auction listing.item :=
      (hlistings.items.complete listing.item).mp (List.mem_map_of_mem hmem)
    rw [← hconsistent.highestBid_congr hother (hbids listing.item hitem)]
    exact hlistings.highest listing hmem

/-- In every state of the market, a listing is the only list that has all its rows, each of them
once, in strict order: the auctions by date and id, the latest first; the items of an auction by
sort order and id, each with the highest bid on it; the bids on an item by time and id, the latest
first; and the venues that have not been given up, by id. Two markets therefore list the same if
they have the same rows on record, no matter in which order these were added or committed. -/
theorem listings_complete_and_strictly_ordered (steps : List Step) :
    let market := initial.takeAll steps
    (∀ list, Shows Auction.ListedBefore market.HasAuction list ↔ list = market.listAuctions) ∧
    (∀ auction list, market.Catalogues auction list ↔ list = market.listItemListings auction) ∧
    (∀ item list,
      Shows Bid.ListedBefore (market.HasBidOn item) list ↔ list = market.listBidsForItem item) ∧
    (∀ list, Shows Venue.ListedBefore market.HasOpenVenue list ↔ list = market.listVenues) ∧
    ∀ others, let other := initial.takeAll others
      ((∀ row, market.HasAuction row ↔ other.HasAuction row) →
        market.listAuctions = other.listAuctions) ∧
      (∀ auction, (∀ row, market.HasItemOf auction row ↔ other.HasItemOf auction row) →
        (∀ item, market.HasItemOf auction item →
          ∀ row, market.HasBidOn item.id row ↔ other.HasBidOn item.id row) →
        market.listItemListings auction = other.listItemListings auction) ∧
      (∀ item, (∀ row, market.HasBidOn item row ↔ other.HasBidOn item row) →
        market.listBidsForItem item = other.listBidsForItem item) ∧
      ((∀ row, market.HasOpenVenue row ↔ other.HasOpenVenue row) →
        market.listVenues = other.listVenues) := by
  intro market
  have hconsistent : market.Consistent := Consistent.initial.takeAll steps
  have hfiled : market.Filed := hconsistent.filed
  refine ⟨fun list => ?_, fun auction list => ⟨fun hlist => ?_, fun hlist => ?_⟩,
    fun item list => ?_, fun list => ?_, fun others => ?_⟩
  · exact hfiled.shows_listAuctions.eq_iff Auction.listedBefore_asymm
  · exact hlist.unique (hfiled.catalogues_listItemListings auction)
  · exact hlist ▸ hfiled.catalogues_listItemListings auction
  · exact (hconsistent.shows_listBidsForItem item).eq_iff Bid.listedBefore_asymm
  · exact hfiled.shows_listVenues.eq_iff Venue.listedBefore_asymm
  · intro other
    have hother : other.Consistent := Consistent.initial.takeAll others
    refine ⟨fun hrows => ?_, fun auction hitems hbids => ?_, fun item hrows => ?_,
      fun hrows => ?_⟩
    · exact (hfiled.shows_listAuctions.congr hrows).unique Auction.listedBefore_asymm
        hother.filed.shows_listAuctions
    · exact ((hfiled.catalogues_listItemListings auction).congr hconsistent hother hitems
        hbids).unique (hother.filed.catalogues_listItemListings auction)
    · exact ((hconsistent.shows_listBidsForItem item).congr hrows).unique Bid.listedBefore_asymm
        (hother.shows_listBidsForItem item)
    · exact (hfiled.shows_listVenues.congr hrows).unique Venue.listedBefore_asymm
        hother.filed.shows_listVenues

-- Two bids of one instant stand in the same order, whichever of them is committed first.
example :
    let first : Bid := ⟨6, 4, 5, 200, default⟩
    let second : Bid := ⟨7, 4, 5, 100, default⟩
    let listed ledger := ({ initial with ledger := ledger }.listBidsForItem 4).map Bid.id
    [listed [first, second], listed [second, first]] = [[7, 6], [7, 6]] := by
  cbv

end Market

end FishMarket
