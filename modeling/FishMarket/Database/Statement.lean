import FishMarket.Listing
import FishMarket.Auction
import FishMarket.Party
import FishMarket.Venue

/-! # Statements

Everything that is ever said to the database, apart from beginning and ending transactions.
Parameters are numbered from one.
-/

namespace FishMarket.Database

/-- A statement. -/
inductive Statement where
  | insertVenue
  | getVenue
  | listVenues
  /-- Finds a venue that has not been given up and keeps others from changing it. -/
  | lockVenue
  /-- Asks whether there are bids on items offered at a venue. -/
  | venueHasBids
  | softDeleteVenue
  | insertAuction
  | getAuction
  | listAuctions
  | listOpenAuctions
  /-- Changes the status of an auction that has not ended. -/
  | updateAuctionStatus
  /-- Completes an auction that has not ended. -/
  | completeAuction
  | deleteAuction
  | insertItem
  | getItem
  | listItemListings
  /-- Changes the status of an item, except from sold to anything else. -/
  | updateItemStatus
  /-- Changes the status of an item, whatever it was. -/
  | setItemStatus
  | insertBid
  | listBidsForItem
  | highestBid
  | buyerTotals
  | insertBuyer
  | getBuyer
  | insertFisherman
  | getFisherman
  /-- Creates all tables. -/
  | createSchema
deriving DecidableEq, Repr

namespace Statement

/-! ## Columns -/

/-- The columns of a table, which are the fields of its records. -/
def columnNames (α : Type) [Recorded α] : List String :=
  (Recorded.fields α).map fun field => field.name

/-- Columns as a statement lists them. -/
def listed (names : List String) : String :=
  String.intercalate ", " names

/-- The columns of a table as a statement lists them. -/
def columns (α : Type) [Recorded α] : String :=
  listed (columnNames α)

/-- The columns of items where the table goes by the letter `i`. -/
def itemColumns : String :=
  listed ((columnNames Item).map fun name => "i." ++ name)

/-! ## Tables -/

/-- The columns that every table begins with. -/
def identified : String :=
  "id BIGSERIAL PRIMARY KEY, "

/-- The type of a moment that is filled in when it is not given. -/
def momentType : String :=
  "TIMESTAMPTZ NOT NULL DEFAULT NOW()"

/-- The parts of the statement that creates all tables. -/
def schemaParts : List String := [
  "CREATE TYPE auction_status AS ENUM ('scheduled', 'in_progress', 'completed', 'cancelled');",
  "CREATE TYPE item_status AS ENUM ('pending', 'available', 'sold');",
  "CREATE TABLE venues ( " ++ identified ++ "name TEXT NOT NULL, location TEXT NOT NULL, " ++
    "description TEXT NOT NULL DEFAULT '', created_at " ++ momentType ++
    ", deleted_at TIMESTAMPTZ );",
  "CREATE TABLE fishermen ( " ++ identified ++ "name TEXT NOT NULL, created_at " ++
    momentType ++ " );",
  "CREATE TABLE buyers ( " ++ identified ++ "name TEXT NOT NULL, created_at " ++
    momentType ++ " );",
  "CREATE TABLE auctions ( " ++ identified ++
    "venue_id BIGINT NOT NULL REFERENCES venues (id) ON DELETE CASCADE, " ++
    "auction_date DATE NOT NULL, start_time TIME, end_time TIME, " ++
    "status auction_status NOT NULL DEFAULT 'scheduled', created_at " ++ momentType ++
    ", updated_at " ++ momentType ++ " );",
  "CREATE INDEX idx_auctions_venue_id ON auctions (venue_id);",
  "CREATE TABLE auction_items ( " ++ identified ++
    "auction_id BIGINT NOT NULL REFERENCES auctions (id) ON DELETE CASCADE, " ++
    "fisherman_id BIGINT NOT NULL REFERENCES fishermen (id), fish_type TEXT NOT NULL, " ++
    "quantity INTEGER NOT NULL, unit TEXT NOT NULL, " ++
    "status item_status NOT NULL DEFAULT 'pending', sort_order INTEGER NOT NULL DEFAULT 0, " ++
    "created_at " ++ momentType ++ " );",
  "CREATE INDEX idx_auction_items_auction_id ON auction_items (auction_id);",
  "-- 거래 원장: 입찰이 남아 있는 상품은 삭제할 수 없다 (RESTRICT)",
  "CREATE TABLE bids ( " ++ identified ++
    "item_id BIGINT NOT NULL REFERENCES auction_items (id) ON DELETE RESTRICT, " ++
    "buyer_id BIGINT NOT NULL REFERENCES buyers (id) ON DELETE RESTRICT, " ++
    "price BIGINT NOT NULL CHECK (price > 0), created_at " ++ momentType ++ " );",
  "CREATE INDEX idx_bids_item_id_price ON bids (item_id, price DESC);",
  "CREATE INDEX idx_bids_buyer_id ON bids (buyer_id);"]

/-! ## Texts -/

/-- The text of a statement. -/
def text : Statement → String
  | insertVenue =>
    "INSERT INTO venues (name, location, description, created_at) VALUES ($1, $2, $3, $4) " ++
      "RETURNING " ++ columns Venue
  | getVenue =>
    "SELECT " ++ columns Venue ++ " FROM venues WHERE id = $1 AND deleted_at IS NULL"
  | listVenues =>
    "SELECT " ++ columns Venue ++ " FROM venues WHERE deleted_at IS NULL ORDER BY id"
  | lockVenue =>
    "SELECT id FROM venues WHERE id = $1 AND deleted_at IS NULL FOR UPDATE"
  | venueHasBids =>
    "SELECT EXISTS ( SELECT 1 FROM bids b JOIN auction_items i ON i.id = b.item_id " ++
      "JOIN auctions a ON a.id = i.auction_id WHERE a.venue_id = $1 )"
  | softDeleteVenue =>
    "UPDATE venues SET deleted_at = $2 WHERE id = $1"
  | insertAuction =>
    "INSERT INTO auctions (venue_id, auction_date, start_time, end_time, status, created_at, " ++
      "updated_at) VALUES ($1, $2, $3, $4, $5, $6, $6) RETURNING " ++ columns Auction
  | getAuction =>
    "SELECT " ++ columns Auction ++ " FROM auctions WHERE id = $1"
  | listAuctions =>
    "SELECT " ++ columns Auction ++ " FROM auctions ORDER BY auction_date DESC, id DESC"
  | listOpenAuctions =>
    "SELECT " ++ columns Auction ++
      " FROM auctions WHERE status NOT IN ('completed', 'cancelled') ORDER BY id"
  | updateAuctionStatus =>
    "UPDATE auctions SET status = $2, updated_at = $3 WHERE id = $1 AND status NOT IN " ++
      "('completed', 'cancelled') RETURNING " ++ columns Auction
  | completeAuction =>
    "UPDATE auctions SET status = 'completed', updated_at = $2 WHERE id = $1 AND status NOT IN " ++
      "('completed', 'cancelled')"
  | deleteAuction =>
    "DELETE FROM auctions WHERE id = $1"
  | insertItem =>
    "INSERT INTO auction_items (auction_id, fisherman_id, fish_type, quantity, unit, status, " ++
      "sort_order, created_at) VALUES ($1, $2, $3, $4, $5, $6, $7, $8) RETURNING " ++ columns Item
  | getItem =>
    "SELECT " ++ columns Item ++ " FROM auction_items WHERE id = $1"
  | listItemListings =>
    "SELECT " ++ itemColumns ++
      ", hb.price AS highest_bid, hb.buyer_id AS highest_bidder_id FROM auction_items i " ++
      "LEFT JOIN LATERAL ( SELECT b.price, b.buyer_id FROM bids b WHERE b.item_id = i.id " ++
      "ORDER BY b.price DESC, b.id ASC LIMIT 1 ) hb ON TRUE WHERE i.auction_id = $1 " ++
      "ORDER BY i.sort_order, i.id"
  | updateItemStatus =>
    "UPDATE auction_items SET status = $2 WHERE id = $1 AND (status <> 'sold' OR $2 = " ++
      "'sold'::item_status) RETURNING " ++ columns Item
  | setItemStatus =>
    "UPDATE auction_items SET status = $2 WHERE id = $1"
  | insertBid =>
    "INSERT INTO bids (item_id, buyer_id, price, created_at) VALUES ($1, $2, $3, $4) " ++
      "RETURNING " ++ columns Bid
  | listBidsForItem =>
    "SELECT " ++ columns Bid ++
      " FROM bids WHERE item_id = $1 ORDER BY created_at DESC, id DESC"
  | highestBid =>
    "SELECT " ++ columns HighestBid ++
      " FROM bids WHERE item_id = $1 ORDER BY price DESC, id ASC LIMIT 1"
  | buyerTotals =>
    "SELECT b.buyer_id, u.name AS buyer_name, SUM(b.price)::BIGINT AS total_price FROM bids b " ++
      "JOIN buyers u ON u.id = b.buyer_id GROUP BY b.buyer_id, u.name ORDER BY b.buyer_id"
  | insertBuyer =>
    "INSERT INTO buyers (name, created_at) VALUES ($1, $2) RETURNING " ++ columns Buyer
  | getBuyer =>
    "SELECT " ++ columns Buyer ++ " FROM buyers WHERE id = $1"
  | insertFisherman =>
    "INSERT INTO fishermen (name, created_at) VALUES ($1, $2) RETURNING " ++ columns Fisherman
  | getFisherman =>
    "SELECT " ++ columns Fisherman ++ " FROM fishermen WHERE id = $1"
  | createSchema => String.intercalate " " schemaParts

end Statement

end FishMarket.Database
