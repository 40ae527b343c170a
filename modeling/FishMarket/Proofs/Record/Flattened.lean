import FishMarket.Listing
import FishMarket.Proofs.Json.Size
import FishMarket.Proofs.Record.RoundTrip

/-! # Records inside records read back

Of a record that is written with another inside it, the members of the outer one are read at once
and those of the inner one are kept. Each kept value is a single token, which is judged by its size
and its string when it is kept, and read only afterwards.
-/

namespace FishMarket

open Json

/-! ## Kept values -/

theorem Datum.natAbs_lt_of_fits {kind : Kind} {value : Int}
    (hfits : (Datum.whole value).Fits kind) : value.natAbs < Nat.pow 2 64 := by
  have hbounds : Text.minInt64 ≤ kind.range.1 ∧ kind.range.2 ≤ Text.maxInt64 := by
    cases kind <;> decide
  have hfits : kind.range.1 ≤ value ∧ value ≤ kind.range.2 := hfits
  have hleast : Text.minInt64 = -9223372036854775808 := rfl
  have hgreatest : Text.maxInt64 = 9223372036854775807 := rfl
  have hpower : Nat.pow 2 64 = 18446744073709551616 := rfl
  omega

namespace Record

/-- The value of a field in range may be kept. -/
theorem skipValue_token {kind : Kind} {datum : Datum} (hfits : datum.Fits kind)
    (rest : List Token) : skipValue keptCare (datum.token :: rest) = .ok rest := by
  have hafter : Value.after? keptCare (datum.token :: rest) = some rest := by
    cases datum with
    | whole value =>
        have hsize := Number.beyondDouble_ofInt (Datum.natAbs_lt_of_fits hfits)
        simp [Value.after?, Value.run, Value.step, Value.stepValue, Datum.token, keptCare,
          Value.Care.acceptsNumber, hsize]
    | null | text | date | time | instant | auctionStatus | itemStatus => rfl
  rw [skipValue, hafter]

theorem valueTokens_token (token : Token) (rest : List Token) :
    valueTokens (token :: rest) rest = [token] := by
  simp [valueTokens]

/-- A kept value of a field is read as the value that it was. -/
theorem keptDatum_token {field : Field} {datum : Datum} (hmatches : field.kind.Matches datum)
    (hlegible : datum.Legible) (hfits : datum.Fits field.kind) :
    keptDatum field [datum.token] = .ok datum := by
  unfold keptDatum
  split
  next hstatus =>
    have hwhole : ∀ value, datum ≠ .whole value := by
      rintro value rfl
      rcases hstatus with hkind | hkind <;> rw [hkind] at hmatches <;> exact hmatches
    have hread := readWritten_token hmatches hlegible hwhole []
    have htoken : datum.token = .string (some datum.written) := by
      cases datum with
      | null => rcases hstatus with hkind | hkind <;> rw [hkind] at hmatches <;> cases hmatches
      | whole value => exact absurd rfl (hwhole value)
      | text | date | time | instant | auctionStatus | itemStatus => rfl
    rw [htoken, keptStatus, hread, if_pos hfits]
    rfl
  next =>
    have hfield : field.Matches datum := .inr hmatches
    obtain ⟨fault, hread⟩ := readField_token hfield hlegible []
    rw [hread, if_pos hfits]
    rfl

/-! ## Members -/

/-- A member of an inner record, as it is kept. -/
def keptMember (pair : Field × Datum) : List Char × List Token :=
  (pair.1.name.toList, [pair.2.token])

variable {own : List Field} {found : Members} {kept : Kept} {pair : Field × Datum}

theorem readMixed_kept (found : Members) (kept : Kept)
    (hfind : (own.find? fun field => field.name.toList = pair.1.name.toList) = none)
    (hfits : pair.2.Fits pair.1.kind) (first : Bool) (rest : List Token) :
    readMixed own first found kept
        ((if first then [] else [.comma]) ++ memberTokens pair ++ rest) =
      readMixed own false found (keptMember pair :: kept) rest := by
  have hkey := readKey_member first pair rest
  have hskip := skipValue_token hfits rest
  rw [readMixed]
  split
  next heq => rw [hkey] at heq; cases heq
  next heq => rw [hkey] at heq; cases heq
  next key rest' heq =>
    obtain ⟨rfl, rfl⟩ : pair.1.name.toList = key ∧ Token.colon :: pair.2.token :: rest = rest' := by
      rw [hkey] at heq
      cases heq
      exact ⟨rfl, rfl⟩
    simp only [hfind, readColon]
    split
    next heq => rw [hskip] at heq; cases heq
    next heq =>
      rw [hskip] at heq
      cases heq
      rw [valueTokens_token]
      rfl

theorem readMixed_own
    (hfind : (own.find? fun field => field.name.toList = pair.1.name.toList) = some pair.1)
    (hnew : found.lookup pair.1 = none) (hmatches : pair.1.Matches pair.2)
    (hlegible : pair.2.Legible) (hfits : pair.2.Fits pair.1.kind) (first : Bool)
    (rest : List Token) :
    readMixed own first found kept
        ((if first then [] else [.comma]) ++ memberTokens pair ++ rest) =
      readMixed own false (pair :: found) kept rest := by
  have hkey := readKey_member first pair rest
  obtain ⟨fault, hread⟩ := readField_token hmatches hlegible rest
  rw [if_pos hfits] at hread
  rw [readMixed]
  split
  next heq => rw [hkey] at heq; cases heq
  next heq => rw [hkey] at heq; cases heq
  next key rest' heq =>
    obtain ⟨rfl, rfl⟩ : pair.1.name.toList = key ∧ Token.colon :: pair.2.token :: rest = rest' := by
      rw [hkey] at heq
      cases heq
      exact ⟨rfl, rfl⟩
    simp only [hfind, hnew, Option.isSome_none, Bool.false_eq_true, if_false, readColon]
    split
    next heq => rw [hread] at heq; cases heq
    next heq =>
      rw [hread] at heq
      cases heq
      rfl

/-- Members that are kept as those of an inner record. -/
structure Inner (own : List Field) (pairs : List (Field × Datum)) : Prop where
  unowned : ∀ pair ∈ pairs,
    (own.find? fun field => field.name.toList = pair.1.name.toList) = none
  shape : ∀ pair ∈ pairs, pair.1.kind.Matches pair.2
  legible : ∀ pair ∈ pairs, pair.2.Legible
  fits : ∀ pair ∈ pairs, pair.2.Fits pair.1.kind
  distinct : (pairs.map fun pair => pair.1.name.toList).Nodup

theorem laterTokens_cons (pair : Field × Datum) (pairs : List (Field × Datum)) :
    laterTokens (pair :: pairs) =
      (if false then [] else [.comma]) ++ memberTokens pair ++ laterTokens pairs := rfl

theorem readMixed_laterKept {pairs : List (Field × Datum)}
    (hfind : ∀ pair ∈ pairs,
      (own.find? fun field => field.name.toList = pair.1.name.toList) = none)
    (hfits : ∀ pair ∈ pairs, pair.2.Fits pair.1.kind) (more : List (Field × Datum)) :
    readMixed own false found kept (laterTokens (pairs ++ more)) =
      readMixed own false found ((pairs.map keptMember).reverse ++ kept) (laterTokens more) := by
  induction pairs generalizing kept with
  | nil => rfl
  | cons pair rest ih =>
      obtain ⟨hpair, hrest⟩ := List.forall_mem_cons.mp hfind
      obtain ⟨hpairFits, hrestFits⟩ := List.forall_mem_cons.mp hfits
      rw [List.cons_append, laterTokens_cons, readMixed_kept _ _ hpair hpairFits,
        ih hrest hrestFits, List.map_cons, List.reverse_cons, List.append_assoc,
        List.singleton_append]

theorem readMixed_laterOwn {pairs : List (Field × Datum)} (hfit : Fit own found pairs)
    (hfits : ∀ pair ∈ pairs, pair.2.Fits pair.1.kind) :
    readMixed own false found kept (laterTokens pairs) =
      .ok ((pairs.reverse ++ found, kept), []) := by
  induction pairs generalizing found with
  | nil =>
      rw [laterTokens, List.flatMap_nil, List.nil_append, readMixed]
      rfl
  | cons pair rest ih =>
      obtain ⟨hpairFits, hrestFits⟩ := List.forall_mem_cons.mp hfits
      rw [laterTokens_cons, readMixed_own (hfit.find? pair List.mem_cons_self)
        (hfit.unmet pair List.mem_cons_self) (hfit.shape pair List.mem_cons_self)
        (hfit.legible pair List.mem_cons_self) hpairFits,
        ih hfit.tail hrestFits, List.reverse_cons, List.append_assoc, List.singleton_append]

/-- The members of an inner record are kept, in reverse order, and those of the outer one read. -/
theorem readMixed_all {inner outer : List (Field × Datum)} (hinner : Inner own inner)
    (hnonempty : inner ≠ []) (houter : Fit own [] outer)
    (hfits : ∀ pair ∈ outer, pair.2.Fits pair.1.kind) :
    readMixed own true [] [] (Token.list
        (commaSeparated ((inner ++ outer).map writtenMember) ++ ['\x7d'])) =
      .ok ((outer.reverse, (inner.map keptMember).reverse), []) := by
  obtain ⟨pair, rest, rfl⟩ := List.exists_cons_of_ne_nil hnonempty
  obtain ⟨hpair, hrest⟩ := List.forall_mem_cons.mp hinner.unowned
  obtain ⟨hpairFits, hrestFits⟩ := List.forall_mem_cons.mp hinner.fits
  have hfirst := readMixed_kept [] [] hpair hpairFits true
    (laterTokens (rest ++ outer))
  rw [if_pos rfl, List.nil_append] at hfirst
  rw [List.cons_append, list_members, hfirst, readMixed_laterKept hrest hrestFits,
    readMixed_laterOwn houter hfits, List.append_nil, List.map_cons, List.reverse_cons]

/-- Of the kept members exactly one bears the name of an inner field. -/
theorem datum_of_kept {pairs : List (Field × Datum)} (hinner : Inner own pairs)
    (hpair : pair ∈ pairs) :
    Kept.datum (pairs.map keptMember).reverse pair.1 = .ok pair.2 := by
  obtain ⟨before, after, rfl⟩ := List.append_of_mem hpair
  have hother (others : List (Field × Datum))
      (hnames : ∀ other ∈ others, other.1.name.toList ≠ pair.1.name.toList) :
      ((others.map keptMember).reverse.filter fun member =>
        member.1 = pair.1.name.toList) = [] := by
    refine List.filter_eq_nil_iff.mpr fun member hmember hsame => ?_
    obtain ⟨other, hmem, rfl⟩ := List.mem_map.mp (List.mem_reverse.mp hmember)
    exact hnames other hmem (of_decide_eq_true hsame)
  have hdistinct := hinner.distinct
  rw [List.map_append, List.map_cons, List.nodup_append] at hdistinct
  have hbefore := hother before fun other hmem =>
    hdistinct.2.2 _ (List.mem_map_of_mem hmem) _ List.mem_cons_self
  have hafter := hother after fun other hmem heq =>
    (List.nodup_cons.mp hdistinct.2.1).1 (heq ▸ List.mem_map_of_mem hmem)
  have hsingle : ((before ++ pair :: after).map keptMember).reverse.filter
      (fun member => member.1 = pair.1.name.toList) = [keptMember pair] := by
    rw [List.map_append, List.map_cons, List.reverse_append, List.reverse_cons,
      List.filter_append, List.filter_append, hafter, hbefore, List.nil_append, List.append_nil]
    exact List.filter_cons_of_pos (decide_eq_true rfl)
  have hkept := keptDatum_token (hinner.shape pair hpair) (hinner.legible pair hpair)
    (hinner.fits pair hpair)
  unfold Kept.datum
  split
  next key tokens heq =>
    cases hsingle.symm.trans heq
    exact hkept
  next hnone => exact absurd hsingle (hnone _ _)

/-- What is written as one object is read as two records. -/
theorem readFlattened_written {inner outer : List (Field × Datum)}
    (hinner : Inner (outer.map (·.1)) inner) (hnonempty : inner ≠ [])
    (houter : Fit (outer.map (·.1)) [] outer)
    (hfits : ∀ pair ∈ outer, pair.2.Fits pair.1.kind) :
    readFlattened (inner.map (·.1)) (outer.map (·.1)) (Token.list
        ('\x7b' :: (commaSeparated ((inner ++ outer).map writtenMember) ++ ['\x7d']))) =
      .ok (inner.map (·.2) ++ outer.map (·.2), []) := by
  have hmixed := readMixed_all hinner hnonempty houter hfits
  have hinnerData : (inner.map (·.1)).mapM (Kept.datum (inner.map keptMember).reverse) =
      .ok (inner.map (·.2)) := by
    refine mapM_eq_ok_iff.mpr (List.forall₂_map_left_iff.mpr (List.forall₂_map_right_iff.mpr ?_))
    exact List.forall₂_same.mpr fun pair hpair => datum_of_kept hinner hpair
  have houterData : (outer.map (·.1)).mapM (Members.datum outer.reverse) =
      .ok (outer.map (·.2)) := by
    refine mapM_eq_ok_iff.mpr (List.forall₂_map_left_iff.mpr (List.forall₂_map_right_iff.mpr ?_))
    exact List.forall₂_same.mpr fun pair hpair =>
      datum_of_lookup (lookup_reverse houter.distinct hpair)
  rw [Token.list_openBrace, readFlattened, hmixed]
  simp only [bind, Except.bind, hinnerData, houterData]
  rfl

end Record

/-! ## Listings -/

namespace Listing

/-- The fields that a listing adds to those of its item, with what they hold. -/
def ownPairs (listing : Listing) : List (Field × Datum) :=
  ownFields.zip
    [.ofOption .whole listing.highestBid?, .ofOption .whole listing.highestBidderId?]

theorem pairs_eq (listing : Listing) :
    Recorded.pairs listing = Recorded.pairs listing.item ++ listing.ownPairs := rfl

theorem fit_ownPairs {listing : Listing} (hlegible : ∀ pair ∈ listing.ownPairs, pair.2.Legible) :
    Record.Fit ownFields [] listing.ownPairs where
  find? pair hpair := by
    have hfields : ∀ field ∈ ownFields,
        (ownFields.find? fun other => other.name.toList = field.name.toList) = some field := by
      decide
    exact hfields pair.1 (List.of_mem_zip hpair).1
  shape pair hpair := by
    rcases List.mem_pair.mp hpair with rfl | rfl <;>
      exact Field.matches_ofOption _ .int64 .whole (fun _ => trivial) _
  legible := hlegible
  distinct := by
    have hfields : ownFields.Nodup := by decide
    exact hfields
  unmet _ _ := rfl

theorem inner_item {item : Item} (hlegible : Recorded.Legible item)
    (hfits : Recorded.Fits item) : Record.Inner ownFields (Recorded.pairs item) where
  unowned pair hpair := by
    have hfields : ∀ field ∈ Recorded.fields Item,
        (ownFields.find? fun other => other.name.toList = field.name.toList) = none := by decide
    exact hfields pair.1 (List.of_mem_zip hpair).1
  shape pair hpair := by
    have hrequired : ∀ field ∈ Recorded.fields Item, field.nullable = false := by decide
    have hmatches := (Recorded.fit_pairs hlegible).shape pair hpair
    refine hmatches.resolve_left fun ⟨hnullable, _⟩ => ?_
    exact Bool.false_ne_true ((hrequired pair.1 (List.of_mem_zip hpair).1).symm.trans hnullable)
  legible := hlegible
  fits := hfits
  distinct := LawfulRecorded.nodup (α := Item)

/-- A listing is read back from its JSON form if it is in range. -/
theorem readWhole_json {listing : Listing} (hrange : Recorded.InRange listing) :
    readWhole (Recorded.json listing) = .ok listing := by
  have hlegible : ∀ pair ∈ Recorded.pairs listing.item ++ listing.ownPairs, pair.2.Legible :=
    hrange.legible
  have hfits : ∀ pair ∈ Recorded.pairs listing.item ++ listing.ownPairs,
      pair.2.Fits pair.1.kind := hrange.fits
  obtain ⟨hitemLegible, hownLegible⟩ := List.forall_mem_append.mp hlegible
  obtain ⟨hitem, hown⟩ := List.forall_mem_append.mp hfits
  have hread : Record.readFlattened (Recorded.fields Item) ownFields
      (Token.list (Recorded.json listing)) = .ok (Recorded.data listing, []) := by
    rw [Recorded.json_eq, pairs_eq]
    exact Record.readFlattened_written (inner_item hitemLegible hitem)
      (List.cons_ne_nil _ _) (fit_ownPairs hownLegible) hown
  simp only [readWhole, hread, bind, Except.bind, List.isEmpty_nil, if_true]
  have hdata : Recorded.ofData? (Recorded.data listing) = some listing := by
    obtain ⟨item, highestBid?, highestBidderId?⟩ := listing
    cases highestBid? <;> cases highestBidderId? <;> rfl
  rw [Record.ofData, hdata]

end Listing

end FishMarket
