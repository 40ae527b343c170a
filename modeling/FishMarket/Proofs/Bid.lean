import Mathlib.Data.List.Nodup
import FishMarket.Bid

/-! # The bid that wins

A bid wins among others by its price, and among those of its price by its id. If no two ids are the
same there is one winner, so it does not matter in which order the bids are looked at.
-/

namespace FishMarket.Bid

variable {bids others : List Bid} {bid other : Bid}

/-- Whether a bid is among the given ones, with the highest price of all and the smallest id of
those that have this price. -/
structure Wins (bid : Bid) (bids : List Bid) : Prop where
  mem : bid ∈ bids
  price_le : ∀ other ∈ bids, other.price ≤ bid.price
  id_le : ∀ other ∈ bids, other.price = bid.price → bid.id ≤ other.id

theorem not_beats_iff :
    ¬ other.Beats bid ↔
      other.price ≤ bid.price ∧ (other.price = bid.price → bid.id ≤ other.id) := by
  unfold Beats
  omega

theorem wins_iff : bid.Wins bids ↔ bid ∈ bids ∧ ∀ other ∈ bids, ¬ other.Beats bid := by
  constructor
  · intro hwins
    exact ⟨hwins.mem, fun other hmem =>
      not_beats_iff.mpr ⟨hwins.price_le other hmem, hwins.id_le other hmem⟩⟩
  · rintro ⟨hmem, hunbeaten⟩
    exact ⟨hmem, fun other hother => (not_beats_iff.mp (hunbeaten other hother)).1,
      fun other hother => (not_beats_iff.mp (hunbeaten other hother)).2⟩

theorem Beats.asymm (hbeats : other.Beats bid) : ¬ bid.Beats other := by
  unfold Beats at *
  omega

theorem not_beats_trans {between : Bid} (hother : ¬ other.Beats between)
    (hbetween : ¬ between.Beats bid) : ¬ other.Beats bid := by
  unfold Beats at *
  omega

/-- Going through bids and keeping the better one each time ends with the winner. -/
theorem wins_foldl (first : Bid) (rest : List Bid) :
    (rest.foldl (fun best next => if next.Beats best then next else best) first).Wins
      (first :: rest) := by
  rw [wins_iff]
  induction rest generalizing first with
  | nil => simp [Beats]
  | cons next rest ih =>
      rw [List.foldl_cons]
      -- whichever of the first two is kept, the winner does not lose to the other one either
      split
      next hbeats =>
        obtain ⟨hmem, hunbeaten⟩ := ih next
        have hfirst := not_beats_trans hbeats.asymm (hunbeaten next List.mem_cons_self)
        exact ⟨List.mem_cons_of_mem _ hmem, List.forall_mem_cons.mpr ⟨hfirst, hunbeaten⟩⟩
      next hloses =>
        obtain ⟨hmem, hunbeaten⟩ := ih first
        obtain ⟨hfirst, hrest⟩ := List.forall_mem_cons.mp hunbeaten
        refine ⟨?_, ?_⟩
        · exact List.cons_subset_cons first (List.subset_cons_self next rest) hmem
        · simp only [List.forall_mem_cons]
          exact ⟨hfirst, not_beats_trans hloses hfirst, hrest⟩

theorem best?_eq_none_iff : best? bids = none ↔ bids = [] := by
  cases bids <;> simp [best?]

theorem wins_of_best? (hbest : best? bids = some bid) : bid.Wins bids := by
  cases bids with
  | nil => cases hbest
  | cons first rest =>
      rw [← Option.some.inj hbest]
      exact wins_foldl first rest

namespace Wins

theorem perm (hwins : bid.Wins bids) (hperm : bids.Perm others) : bid.Wins others where
  mem := hperm.mem_iff.mp hwins.mem
  price_le other hmem := hwins.price_le other (hperm.mem_iff.mpr hmem)
  id_le other hmem := hwins.id_le other (hperm.mem_iff.mpr hmem)

/-- Bids with different ids have one winner. -/
theorem unique (hwins : bid.Wins bids) (hother : other.Wins bids)
    (hids : (bids.map Bid.id).Nodup) : other = bid := by
  have hprice : other.price = bid.price :=
    Int.le_antisymm (hwins.price_le other hother.mem) (hother.price_le bid hwins.mem)
  have hid : other.id = bid.id :=
    Int.le_antisymm (hother.id_le bid hwins.mem hprice.symm) (hwins.id_le other hother.mem hprice)
  exact List.inj_on_of_nodup_map hids hother.mem hwins.mem hid

end Wins

section

variable (hids : (bids.map Bid.id).Nodup)

include hids

theorem best?_eq_some_iff : best? bids = some bid ↔ bid.Wins bids := by
  refine ⟨wins_of_best?, fun hwins => ?_⟩
  cases hbest : best? bids with
  | none =>
      rw [best?_eq_none_iff.mp hbest] at hwins
      exact absurd hwins.mem List.not_mem_nil
  | some other => rw [hwins.unique (wins_of_best? hbest) hids]

theorem best?_perm (hperm : bids.Perm others) : best? others = best? bids := by
  have hids' : (others.map Bid.id).Nodup := (hperm.map Bid.id).nodup_iff.mp hids
  apply Option.ext
  intro bid
  rw [best?_eq_some_iff hids, best?_eq_some_iff hids']
  exact ⟨fun hwins => hwins.perm hperm.symm, fun hwins => hwins.perm hperm⟩

theorem pickHighest_eq_some_iff {highest : HighestBid} :
    pickHighest bids = some highest ↔
      ∃ bid : Bid, bid.Wins bids ∧ bid.toHighest = highest := by
  simp only [pickHighest, Option.map_eq_some_iff, best?_eq_some_iff hids]

theorem pickHighest_perm (hperm : bids.Perm others) : pickHighest others = pickHighest bids := by
  rw [pickHighest, best?_perm hids hperm, pickHighest]

end

-- The bid with the smaller id was recorded later, and still wins at the same price.
example (now : Calendar.Instant) :
    pickHighest [⟨2, 1, 20, 500, now⟩, ⟨1, 1, 10, 500, now⟩, ⟨3, 1, 30, 400, now⟩] =
      some ⟨500, 10⟩ := by
  cbv

theorem pickHighest_eq_none_iff : pickHighest bids = none ↔ bids = [] := by
  rw [pickHighest, Option.map_eq_none_iff, best?_eq_none_iff]

/-! ## Bids that come later -/

/-- A bid that comes last is the best if it beats the one that was the best before it. -/
theorem best?_concat (hbest : best? bids = some bid) (last : Bid) :
    best? (bids ++ [last]) = some (if last.Beats bid then last else bid) := by
  cases bids with
  | nil => cases hbest
  | cons first rest =>
      obtain rfl := Option.some.inj hbest
      simp only [best?, List.cons_append, List.foldl_append, List.foldl_cons, List.foldl_nil]

variable {highest : HighestBid}

/-- Bids that come later do not lower the highest price. -/
theorem pickHighest_append (hhighest : pickHighest bids = some highest) (later : List Bid) :
    ∃ highest', pickHighest (bids ++ later) = some highest' ∧
      highest.price ≤ highest'.price := by
  obtain ⟨best, hbest, rfl⟩ := Option.map_eq_some_iff.mp hhighest
  have hmem : best ∈ bids ++ later := List.mem_append_left later (wins_of_best? hbest).mem
  cases hnext : best? (bids ++ later) with
  | none =>
      rw [best?_eq_none_iff.mp hnext] at hmem
      exact absurd hmem List.not_mem_nil
  | some next =>
      refine ⟨next.toHighest, by rw [pickHighest, hnext]; rfl, ?_⟩
      exact (wins_of_best? hnext).price_le best hmem

/-- A bid that comes last and has the greatest id is the highest only if its price is higher than
the highest before it. -/
theorem pickHighest_concat (hhighest : pickHighest bids = some highest) {last : Bid}
    (hlast : ∀ bid ∈ bids, bid.id < last.id) :
    pickHighest (bids ++ [last]) = some highest ∨
      highest.price < last.price ∧ pickHighest (bids ++ [last]) = some last.toHighest := by
  obtain ⟨best, hbest, rfl⟩ := Option.map_eq_some_iff.mp hhighest
  have hnext := best?_concat hbest last
  have hid := hlast best (wins_of_best? hbest).mem
  split at hnext
  next hbeats =>
    refine .inr ⟨?_, by rw [pickHighest, hnext]; rfl⟩
    unfold Beats at hbeats
    change best.price < last.price
    omega
  next => exact .inl (by rw [pickHighest, hnext]; rfl)

end FishMarket.Bid
