import FishMarket.Http.Extract
import FishMarket.Item
import FishMarket.Proofs.Record.RoundTrip

/-! # Integers within range

Whatever a record is read from, the integers in it are within the range of their fields. So an item
that comes with a request is one that can be written and read back.
-/

namespace FishMarket

open Json

/-- Whether a datum is within the range of an integer kind if it is an integer. -/
def Datum.IsWholeIn (kind : Kind) (datum : Datum) : Prop :=
  ∀ value, datum = .whole value → kind.range.1 ≤ value ∧ value ≤ kind.range.2

theorem Kind.isWholeIn_of_ofInt? {kind : Kind} {value : Int} {datum : Datum}
    (hdatum : kind.ofInt? value = some datum) : datum.IsWholeIn kind := by
  unfold ofInt? at hdatum
  split at hdatum
  next =>
    split at hdatum
    next hrange =>
      rintro other rfl
      obtain rfl := Datum.whole.inj (Option.some.inj hdatum)
      exact hrange
    next => cases hdatum
  next => cases hdatum

/-- What is written as a text is no integer. -/
theorem Kind.isWholeIn_of_ofText? {kind : Kind} {written : List Char} {datum : Datum}
    (hdatum : kind.ofText? written = some datum) : datum.IsWholeIn kind := by
  rintro value rfl
  cases kind with
  | int32 | int64 => cases hdatum
  | text => cases Option.some.inj hdatum
  | date | time | instant | auctionStatus | itemStatus =>
      obtain ⟨found, -, heq⟩ := Option.map_eq_some_iff.mp hdatum
      cases heq

namespace Record

variable {kind : Kind} {field : Field} {fields : List Field} {datum : Datum} {data : List Datum}
  {tokens rest : List Token}

theorem isWholeIn_of_readInteger (hread : readInteger kind tokens = .ok (datum, rest)) :
    datum.IsWholeIn kind := by
  unfold readInteger at hread
  split at hread
  next =>
    split at hread
    next =>
      split at hread
      next hdatum =>
        cases hread
        exact Kind.isWholeIn_of_ofInt? hdatum
      next => cases hread
    next => cases hread
  next => cases hread

theorem isWholeIn_of_readWritten (hread : readWritten kind tokens = .ok (datum, rest)) :
    datum.IsWholeIn kind := by
  simp only [readWritten, bind, Except.bind] at hread
  split at hread
  next => cases hread
  next =>
    split at hread
    next hdatum =>
      cases hread
      exact Kind.isWholeIn_of_ofText? hdatum
    next => cases hread

theorem isWholeIn_of_readStatus (hread : readStatus kind tokens = .ok (datum, rest)) :
    datum.IsWholeIn kind := by
  unfold readStatus at hread
  split at hread
  next =>
    simp only [bind, Except.bind] at hread
    split at hread
    next => cases hread
    next hwritten =>
      split at hread
      next => cases hread
      next =>
        cases hread
        exact isWholeIn_of_readWritten hwritten
  next => exact isWholeIn_of_readWritten hread
  next => cases hread

theorem isWholeIn_of_readField (hread : readField field tokens = .ok (datum, rest)) :
    datum.IsWholeIn field.kind := by
  unfold readField at hread
  split at hread
  next =>
    cases hread
    exact nofun
  next =>
    unfold readValue at hread
    split at hread
    next hkind => exact hkind ▸ isWholeIn_of_readInteger hread
    next hkind => exact hkind ▸ isWholeIn_of_readInteger hread
    next hkind => exact hkind ▸ isWholeIn_of_readStatus hread
    next hkind => exact hkind ▸ isWholeIn_of_readStatus hread
    next => exact isWholeIn_of_readWritten hread

/-- Whether every default is within the range of its field. -/
def DefaultsInRange (fields : List Field) : Prop :=
  ∀ field ∈ fields, ∀ datum, field.default? = some datum → datum.IsWholeIn field.kind

/-- Whether data are within the ranges of fields. -/
abbrev InRanges (fields : List Field) (data : List Datum) : Prop :=
  List.Forall₂ (fun field datum => datum.IsWholeIn field.kind) fields data

theorem inRanges_of_readElements {first : Bool} (hdefaults : DefaultsInRange fields)
    (hread : readElements first fields tokens = .ok (data, rest)) : InRanges fields data := by
  fun_induction readElements first fields tokens generalizing data rest with
  | case1 =>
      cases hread
      exact .nil
  | case2 | case4 | case7 => cases hread
  | case3 first field fields left datum hdefault ih =>
      obtain ⟨⟨others, left'⟩, hothers, hread⟩ := ok_of_bind hread
      cases hread
      refine .cons (hdefaults field List.mem_cons_self datum hdefault) (ih ?_ hothers)
      exact fun other hother => hdefaults other (List.mem_cons_of_mem _ hother)
  | case5 field fields tokens _ ih | case6 field fields tokens _ ih =>
      obtain ⟨⟨datum, left⟩, hfield, hread⟩ := ok_of_bind hread
      obtain ⟨⟨others, left'⟩, hothers, hread⟩ := ok_of_bind hread
      cases hread
      refine .cons (isWholeIn_of_readField hfield) (ih left ?_ hothers)
      exact fun other hother => hdefaults other (List.mem_cons_of_mem _ hother)

/-- Whether all that an object has said about its fields is within their ranges. -/
def Members.InRange (found : Members) : Prop :=
  ∀ pair ∈ found, pair.2.IsWholeIn pair.1.kind

theorem inRange_of_readMembers {first : Bool} {found members : Members} (hfound : found.InRange)
    (hread : readMembers fields first found tokens = .ok (members, rest)) : members.InRange := by
  fun_induction readMembers fields first found tokens generalizing members rest with
  | case2 =>
      cases hread
      exact hfound
  | case5 _ _ _ _ _ _ _ _ _ _ _ ih => exact ih hfound hread
  | case9 _ _ _ _ _ _ field _ _ _ _ datum _ hdatum ih =>
      refine ih (List.forall_mem_cons.mpr ⟨?_, hfound⟩) hread
      exact isWholeIn_of_readField hdatum
  | case1 | case3 | case4 | case6 | case7 | case8 => cases hread

theorem isWholeIn_of_datum {found : Members} (hfound : found.InRange)
    (hdefault : ∀ datum, field.default? = some datum → datum.IsWholeIn field.kind)
    (hdatum : found.datum field = .ok datum) : datum.IsWholeIn field.kind := by
  unfold Members.datum at hdatum
  split at hdatum
  next said hlookup =>
    cases hdatum
    obtain ⟨before, after, rfl, -⟩ := List.lookup_eq_some_iff.mp hlookup
    exact hfound _ (List.mem_append_right _ List.mem_cons_self)
  next =>
    split at hdatum
    next =>
      cases hdatum
      exact nofun
    next =>
      split at hdatum
      next default hfield =>
        cases hdatum
        exact hdefault _ hfield
      next => cases hdatum

/-- Whatever is read is within the ranges of the fields. -/
theorem inRanges_of_readRecord (hdefaults : DefaultsInRange fields)
    (hread : readRecord fields tokens = .ok (data, rest)) : InRanges fields data := by
  unfold readRecord at hread
  split at hread
  next => exact inRanges_of_readElements hdefaults hread
  next =>
    obtain ⟨⟨found, left⟩, hmembers, hread⟩ := ok_of_bind hread
    obtain ⟨read, hdata, hread⟩ := ok_of_bind hread
    cases hread
    have hfound := inRange_of_readMembers (fun _ hpair => absurd hpair List.not_mem_nil) hmembers
    have hpairs := List.forall₂_iff_zip.mp (mapM_eq_ok_iff.mp hdata)
    refine List.forall₂_iff_zip.mpr ⟨hpairs.1, fun hpair => ?_⟩
    exact isWholeIn_of_datum hfound (hdefaults _ (List.of_mem_zip hpair).1) (hpairs.2 hpair)
  next => cases hread

theorem inRanges_of_readFront {α : Type} [Recorded α] {text : List Char} {record : α}
    (hdefaults : DefaultsInRange (Recorded.fields α)) (hread : readFront α text = .ok record) :
    ∃ data, Recorded.ofData? data = some record ∧ InRanges (Recorded.fields α) data := by
  obtain ⟨⟨data, rest⟩, hdata, hread⟩ := ok_of_bind hread
  refine ⟨data, ?_, inRanges_of_readRecord hdefaults hdata⟩
  change ofData data = .ok record at hread
  unfold ofData at hread
  split at hread
  next hrecord => exact hrecord.trans (congrArg some (Except.ok.inj hread))
  next => cases hread

end Record

namespace NewItem

/-- Whether the integers of an item to be created are within the ranges of their fields. -/
structure InRange (item : NewItem) : Prop where
  auctionId : (Datum.whole item.auctionId).Fits .int64
  fishermanId : (Datum.whole item.fishermanId).Fits .int64
  quantity : (Datum.whole item.quantity).Fits .int32
  sortOrder : (Datum.whole item.sortOrder).Fits .int32

theorem defaultsInRange : Record.DefaultsInRange (Recorded.fields NewItem) := by
  intro field hfield datum hdefault
  simp only [Recorded.fields, List.mem_cons, List.not_mem_nil, or_false] at hfield
  rcases hfield with rfl | rfl | rfl | rfl | rfl | rfl | rfl
  case inr.inr.inr.inr.inr.inr =>
    cases hdefault
    rintro value ⟨⟩
    decide
  all_goals cases hdefault

theorem inRange_of_ofData? {data : List Datum} {item : NewItem}
    (hdata : Recorded.ofData? data = some item)
    (hranges : Record.InRanges (Recorded.fields NewItem) data) : item.InRange := by
  simp only [Recorded.ofData?] at hdata
  split at hdata
  next auctionId fishermanId fishType quantity unit status sortOrder =>
    obtain ⟨status?, -, rfl⟩ := Option.map_eq_some_iff.mp hdata
    rcases hranges with _ | ⟨hauction, _ | ⟨hfisherman, _ | ⟨-, _ | ⟨hquantity, _ | ⟨-, _ |
      ⟨-, _ | ⟨hsort, -⟩⟩⟩⟩⟩⟩⟩
    exact ⟨hauction _ rfl, hfisherman _ rfl, hquantity _ rfl, hsort _ rfl⟩
  next => cases hdata

/-- An item that comes with a request is within range. -/
theorem inRange_of_record {request : Http.Request} {item : NewItem}
    (hrecord : request.record NewItem = .ok item) : item.InRange := by
  unfold Http.Request.record at hrecord
  split at hrecord
  next => cases hrecord
  next =>
    split at hrecord
    next => cases hrecord
    next =>
      split at hrecord
      next read hfront =>
        cases hrecord
        obtain ⟨data, hdata, hranges⟩ := Record.inRanges_of_readFront defaultsInRange hfront
        exact inRange_of_ofData? hdata hranges
      next => cases hrecord
      next => cases hrecord

end NewItem

end FishMarket
