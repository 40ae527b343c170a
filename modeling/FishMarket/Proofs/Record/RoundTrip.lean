import FishMarket.Item
import FishMarket.Party
import FishMarket.Proofs.Calendar.Reading
import FishMarket.Proofs.Json.Token
import FishMarket.Record.Reader
import FishMarket.Record.Writer
import Mathlib.Data.List.Forall2

/-! # Records read back

A leap second is written as second 60, and read back if it is at the end of its minute; any other is
written like the second after it, and read as that. Apart from these, a record is read back from its
JSON form as it was, if all its fields fit their kinds; otherwise it is not read at all. So whatever
is read from the JSON form of a record is that record.
-/

namespace FishMarket

open Json Calendar

/-! ## Data of a kind -/

/-- Whether a datum has the shape of a kind. -/
def Kind.Matches : Kind → Datum → Prop
  | .int32, .whole _ => True
  | .int64, .whole _ => True
  | .text, .text _ => True
  | .date, .date _ => True
  | .time, .time _ => True
  | .instant, .instant _ => True
  | .auctionStatus, .auctionStatus _ => True
  | .itemStatus, .itemStatus _ => True
  | _, _ => False

/-- Whether a datum has the shape of a field. -/
def Field.Matches (field : Field) (datum : Datum) : Prop :=
  field.nullable = true ∧ datum = .null ∨ field.kind.Matches datum

theorem Field.matches_ofOption {α : Type} (name : String) (kind : Kind) (datum : α → Datum)
    (hkind : ∀ value, kind.Matches (datum value)) (value? : Option α) :
    (Field.optional name kind).Matches (.ofOption datum value?) := by
  cases value? with
  | none => exact .inl ⟨rfl, rfl⟩
  | some value => exact .inr (hkind value)

/-- Whether a number or a date lies in the range of a kind. -/
def Datum.Fits (kind : Kind) : Datum → Prop
  | .whole value => kind.range.1 ≤ value ∧ value ≤ kind.range.2
  | .date value => value.Representable
  | .instant value => value.date.Representable
  | _ => True

instance Datum.decidableFits (kind : Kind) : (datum : Datum) → Decidable (datum.Fits kind)
  | .whole _ => inferInstanceAs (Decidable (_ ∧ _))
  | .date _ => inferInstanceAs (Decidable (_ ∧ _))
  | .instant _ => inferInstanceAs (Decidable (_ ∧ _))
  | .null => inferInstanceAs (Decidable True)
  | .text _ => inferInstanceAs (Decidable True)
  | .time _ => inferInstanceAs (Decidable True)
  | .auctionStatus _ => inferInstanceAs (Decidable True)
  | .itemStatus _ => inferInstanceAs (Decidable True)

/-- Whether a leap second, if it is one, is at the end of its minute. -/
def Datum.Legible : Datum → Prop
  | .time value => value.OnMinute
  | .instant value => value.time.OnMinute
  | _ => True

instance Datum.decidableLegible : (datum : Datum) → Decidable datum.Legible
  | .time value => inferInstanceAs (Decidable value.OnMinute)
  | .instant value => inferInstanceAs (Decidable value.time.OnMinute)
  | .null => inferInstanceAs (Decidable True)
  | .whole _ => inferInstanceAs (Decidable True)
  | .text _ => inferInstanceAs (Decidable True)
  | .date _ => inferInstanceAs (Decidable True)
  | .auctionStatus _ => inferInstanceAs (Decidable True)
  | .itemStatus _ => inferInstanceAs (Decidable True)

/-- The token that a datum is written as. -/
def Datum.token : Datum → Token
  | .null => .null
  | .whole value => .number (.ofInt value)
  | datum => .string (some datum.written)

theorem Datum.list_json (datum : Datum) {rest : List Char} (hends : Number.Ends rest) :
    Token.list (datum.json ++ rest) = datum.token :: Token.list rest := by
  cases datum with
  | null => exact Token.list_null rest
  | whole value => exact Token.list_ofInt value hends
  | text | date | time | instant | auctionStatus | itemStatus => exact Token.list_encode _ rest

namespace Record

/-! ## Reading step by step -/

variable {α β : Type}

/-- What succeeds as a whole has succeeded in each of its steps. -/
theorem ok_of_bind {first : Except Fault α} {next : α → Except Fault β} {result : β}
    (hresult : (first >>= next) = .ok result) :
    ∃ value, first = .ok value ∧ next value = .ok result := by
  cases first with
  | error fault => cases hresult
  | ok value => exact ⟨value, rfl, hresult⟩

theorem mapM_eq_ok_iff {read : α → Except Fault β} {sources : List α} {results : List β} :
    sources.mapM read = .ok results ↔
      List.Forall₂ (fun source result => read source = .ok result) sources results := by
  constructor
  · intro hresults
    induction sources generalizing results with
    | nil =>
        cases hresults
        exact .nil
    | cons source rest ih =>
        rw [List.mapM_cons] at hresults
        obtain ⟨result, hresult, hresults⟩ := ok_of_bind hresults
        obtain ⟨others, hothers, hresults⟩ := ok_of_bind hresults
        cases hresults
        exact .cons hresult (ih hothers)
  · intro hresults
    induction hresults with
    | nil => rfl
    | cons hresult _ ih =>
        rw [List.mapM_cons, hresult, ih]
        rfl

/-! ## Values -/

theorem readInteger_token {kind : Kind} (hkind : kind = .int32 ∨ kind = .int64) (value : Int)
    (rest : List Token) : ∃ fault, readInteger kind (.number (.ofInt value) :: rest) =
      if (Datum.whole value).Fits kind then .ok (.whole value, rest) else .error fault := by
  refine ⟨unexpected (.number (.ofInt value) :: rest), ?_⟩
  simp only [readInteger, Number.integer?_ofInt, Kind.ofInt?, if_pos hkind]
  by_cases hfits : (Datum.whole value).Fits kind
  · rw [if_pos hfits, if_pos (show _ ∧ _ from hfits)]
  · rw [if_neg hfits, if_neg (show ¬(_ ∧ _) from hfits)]

/-- What is not an integer is read back from its written form. -/
theorem ofText?_written {kind : Kind} {datum : Datum} (hmatches : kind.Matches datum)
    (hlegible : datum.Legible) (hwhole : ∀ value, datum ≠ .whole value) :
    kind.ofText? datum.written = if datum.Fits kind then some datum else none := by
  cases kind <;> cases datum <;> try exact absurd hmatches id
  case int32.whole value => exact absurd rfl (hwhole value)
  case int64.whole value => exact absurd rfl (hwhole value)
  case text.text value => exact congrArg (fun text => some (Datum.text text)) String.ofList_toList
  case date.date value =>
    simp only [Kind.ofText?, Datum.written, Date.read?_text]
    by_cases hfits : (Datum.date value).Fits .date
    · rw [if_pos hfits, if_pos (show value.Representable from hfits), Option.map_some]
    · rw [if_neg hfits, if_neg (show ¬value.Representable from hfits), Option.map_none]
  case time.time value =>
    exact congrArg (Option.map Datum.time) (TimeOfDay.read?_text hlegible)
  case instant.instant value =>
    simp only [Kind.ofText?, Datum.written, Instant.read?_text hlegible]
    by_cases hfits : (Datum.instant value).Fits .instant
    · rw [if_pos hfits, if_pos (show value.date.Representable from hfits), Option.map_some]
    · rw [if_neg hfits, if_neg (show ¬value.date.Representable from hfits), Option.map_none]
  case auctionStatus.auctionStatus value => cases value <;> rfl
  case itemStatus.itemStatus value => cases value <;> rfl

theorem readWritten_token {kind : Kind} {datum : Datum} (hmatches : kind.Matches datum)
    (hlegible : datum.Legible) (hwhole : ∀ value, datum ≠ .whole value) (rest : List Token) :
    readWritten kind (.string (some datum.written) :: rest) =
      if datum.Fits kind then .ok (datum, rest) else .error .mismatch := by
  rw [readWritten, readString]
  simp only [bind, Except.bind, ofText?_written hmatches hlegible hwhole]
  by_cases hfits : datum.Fits kind
  · rw [if_pos hfits, if_pos hfits]
  · rw [if_neg hfits, if_neg hfits]

theorem readValue_token {kind : Kind} {datum : Datum} (hmatches : kind.Matches datum)
    (hlegible : datum.Legible) (rest : List Token) : ∃ fault, readValue kind (datum.token :: rest) =
      if datum.Fits kind then .ok (datum, rest) else .error fault := by
  by_cases hwhole : ∃ value, datum = .whole value
  · obtain ⟨value, rfl⟩ := hwhole
    cases kind with
    | int32 => exact readInteger_token (.inl rfl) value rest
    | int64 => exact readInteger_token (.inr rfl) value rest
    | _ => cases hmatches
  · have hread := readWritten_token hmatches hlegible (fun value heq => hwhole ⟨value, heq⟩) rest
    refine ⟨.mismatch, Eq.trans ?_ hread⟩
    cases kind <;> cases datum <;>
      first | rfl | exact absurd hmatches id | exact absurd ⟨_, rfl⟩ hwhole

theorem readField_token {field : Field} {datum : Datum} (hmatches : field.Matches datum)
    (hlegible : datum.Legible) (rest : List Token) :
    ∃ fault, readField field (datum.token :: rest) =
      if datum.Fits field.kind then .ok (datum, rest) else .error fault := by
  rcases hmatches with ⟨hnullable, rfl⟩ | hkind
  · refine ⟨.mismatch, ?_⟩
    rw [if_pos (show Datum.Fits field.kind .null from trivial), Datum.token]
    simp only [readField, hnullable]
  · obtain ⟨fault, hvalue⟩ := readValue_token hkind hlegible rest
    refine ⟨fault, Eq.trans ?_ hvalue⟩
    unfold readField
    split
    next hnullable hnull =>
      cases datum
      case null => cases hk : field.kind <;> rw [hk] at hkind <;> exact absurd hkind id
      all_goals cases (List.cons.inj hnull).1
    next => rfl

/-! ## Members -/

/-- The tokens of a member. -/
def memberTokens (pair : Field × Datum) : List Token :=
  [.string (some pair.1.name.toList), .colon, pair.2.token]

/-- The tokens of the members after the first one, with the end of the object. -/
def laterTokens (pairs : List (Field × Datum)) : List Token :=
  pairs.flatMap (fun pair => .comma :: memberTokens pair) ++ [.closeBrace]

theorem list_member (pair : Field × Datum) {rest : List Char} (hends : Number.Ends rest) :
    Token.list (member pair.1.name pair.2.json ++ rest) = memberTokens pair ++ Token.list rest := by
  rw [member, List.append_assoc, Token.list_encode, List.cons_append, Token.list_colon,
    Datum.list_json pair.2 hends]
  rfl

/-- A member in JSON. -/
def writtenMember (pair : Field × Datum) : List Char :=
  member pair.1.name pair.2.json

theorem list_members (pair : Field × Datum) (pairs : List (Field × Datum)) :
    Token.list (commaSeparated ((pair :: pairs).map writtenMember) ++ ['\x7d']) =
      memberTokens pair ++ laterTokens pairs := by
  induction pairs generalizing pair with
  | nil =>
      rw [List.map_cons, List.map_nil, commaSeparated, writtenMember,
        list_member pair (Number.ends_closeBrace []), Token.list_closeBrace, Token.list_nil]
      rfl
  | cons next pairs ih =>
      have hsplit : commaSeparated ((pair :: next :: pairs).map writtenMember) =
          writtenMember pair ++ ',' :: commaSeparated ((next :: pairs).map writtenMember) := rfl
      rw [hsplit, List.append_assoc, List.cons_append, writtenMember,
        list_member pair (Number.ends_comma _), Token.list_comma, ih next]
      rfl

theorem readKey_member (first : Bool) (pair : Field × Datum) (rest : List Token) :
    readKey first ((if first then [] else [.comma]) ++ memberTokens pair ++ rest) =
      .ok (some pair.1.name.toList, .colon :: pair.2.token :: rest) := by
  cases first <;> rfl

theorem readMembers_member {fields : List Field} {found : Members} {pair : Field × Datum}
    (hfind : (fields.find? fun field => field.name.toList = pair.1.name.toList) = some pair.1)
    (hnew : found.lookup pair.1 = none) (hmatches : pair.1.Matches pair.2)
    (hlegible : pair.2.Legible) (first : Bool) (rest : List Token) : ∃ fault,
      readMembers fields first found
          ((if first then [] else [.comma]) ++ memberTokens pair ++ rest) =
        if pair.2.Fits pair.1.kind then readMembers fields false (pair :: found) rest
        else .error fault := by
  obtain ⟨fault, hfield⟩ := readField_token hmatches hlegible rest
  refine ⟨fault, ?_⟩
  have hkey := readKey_member first pair rest
  rw [readMembers]
  split
  next heq => rw [hkey] at heq; cases heq
  next heq => rw [hkey] at heq; cases heq
  next key rest' heq =>
    obtain ⟨rfl, rfl⟩ : pair.1.name.toList = key ∧ Token.colon :: pair.2.token :: rest = rest' := by
      rw [hkey] at heq
      cases heq
      exact ⟨rfl, rfl⟩
    simp only [hfind, hnew, Option.isSome_none, Bool.false_eq_true, if_false, readColon]
    split
    next heq =>
      rw [hfield] at heq
      by_cases hfits : pair.2.Fits pair.1.kind
      · rw [if_pos hfits] at heq
        cases heq
      · rw [if_neg hfits] at heq ⊢
        exact congrArg Except.error (Except.error.inj heq).symm
    next heq =>
      rw [hfield] at heq
      by_cases hfits : pair.2.Fits pair.1.kind
      · rw [if_pos hfits] at heq ⊢
        cases heq
        rfl
      · rw [if_neg hfits] at heq
        cases heq

/-- Members that a reader of the given fields takes in their order, none of them met before. -/
structure Fit (fields : List Field) (found : Members) (pairs : List (Field × Datum)) : Prop where
  find? : ∀ pair ∈ pairs,
    (fields.find? fun field => field.name.toList = pair.1.name.toList) = some pair.1
  shape : ∀ pair ∈ pairs, pair.1.Matches pair.2
  legible : ∀ pair ∈ pairs, pair.2.Legible
  distinct : (pairs.map (·.1)).Nodup
  unmet : ∀ pair ∈ pairs, found.lookup pair.1 = none

theorem Fit.tail {fields : List Field} {found : Members} {pair : Field × Datum}
    {pairs : List (Field × Datum)} (hfit : Fit fields found (pair :: pairs)) :
    Fit fields (pair :: found) pairs where
  find? other hother := hfit.find? other (List.mem_cons_of_mem _ hother)
  shape other hother := hfit.shape other (List.mem_cons_of_mem _ hother)
  legible other hother := hfit.legible other (List.mem_cons_of_mem _ hother)
  distinct := (List.nodup_cons.mp hfit.distinct).2
  unmet other hother := by
    have hne : other.1 ≠ pair.1 := fun heq =>
      (List.nodup_cons.mp hfit.distinct).1 (List.mem_map.mpr ⟨other, hother, heq⟩)
    rw [List.lookup_cons, beq_false_of_ne hne]
    exact hfit.unmet other (List.mem_cons_of_mem _ hother)

theorem readMembers_later {fields : List Field} {found : Members} {pairs : List (Field × Datum)}
    (hfit : Fit fields found pairs) : ∃ fault,
      readMembers fields false found (laterTokens pairs) =
        if ∀ pair ∈ pairs, pair.2.Fits pair.1.kind then .ok (pairs.reverse ++ found, [])
        else .error fault := by
  induction pairs generalizing found with
  | nil =>
      refine ⟨.mismatch, ?_⟩
      rw [if_pos (fun pair hpair => absurd hpair List.not_mem_nil), laterTokens, List.flatMap_nil,
        List.nil_append, readMembers]
      rfl
  | cons pair pairs ih =>
      have htokens : laterTokens (pair :: pairs) =
          (if false then [] else [.comma]) ++ memberTokens pair ++ laterTokens pairs := rfl
      obtain ⟨fault, hmember⟩ := readMembers_member (hfit.find? pair List.mem_cons_self)
        (hfit.unmet pair List.mem_cons_self) (hfit.shape pair List.mem_cons_self)
        (hfit.legible pair List.mem_cons_self) false (laterTokens pairs)
      obtain ⟨later, hlater⟩ := ih hfit.tail
      rw [htokens, hmember]
      by_cases hfirst : pair.2.Fits pair.1.kind
      · refine ⟨later, ?_⟩
        rw [if_pos hfirst, hlater, List.reverse_cons, List.append_assoc, List.singleton_append]
        exact ite_congr (by rw [List.forall_mem_cons, and_iff_right hfirst]) (fun _ => rfl)
          fun _ => rfl
      · exact ⟨fault, by rw [if_neg hfirst, if_neg fun hall => hfirst (hall pair List.mem_cons_self)]⟩

theorem readMembers_all {fields : List Field} {pairs : List (Field × Datum)}
    (hfit : Fit fields [] pairs) : ∃ fault,
      readMembers fields true []
          (Token.list (commaSeparated (pairs.map writtenMember) ++ ['\x7d'])) =
        if ∀ pair ∈ pairs, pair.2.Fits pair.1.kind then .ok (pairs.reverse, [])
        else .error fault := by
  cases pairs with
  | nil =>
      refine ⟨.mismatch, ?_⟩
      rw [if_pos (fun pair hpair => absurd hpair List.not_mem_nil), List.map_nil, commaSeparated,
        List.nil_append, Token.list_closeBrace, Token.list_nil, readMembers]
      rfl
  | cons pair later =>
      obtain ⟨fault, hfirst⟩ := readMembers_member (hfit.find? pair List.mem_cons_self)
        (hfit.unmet pair List.mem_cons_self) (hfit.shape pair List.mem_cons_self)
        (hfit.legible pair List.mem_cons_self) true (laterTokens later)
      obtain ⟨fault', hlater⟩ := readMembers_later hfit.tail
      rw [if_pos rfl, List.nil_append] at hfirst
      rw [list_members, hfirst]
      by_cases hfits : pair.2.Fits pair.1.kind
      · refine ⟨fault', ?_⟩
        rw [if_pos hfits, hlater, List.reverse_cons]
        exact ite_congr (by rw [List.forall_mem_cons, and_iff_right hfits]) (fun _ => rfl)
          fun _ => rfl
      · exact ⟨fault,
          by rw [if_neg hfits, if_neg fun hall => hfits (hall pair List.mem_cons_self)]⟩

theorem lookup_reverse {pairs : List (Field × Datum)} (hdistinct : (pairs.map (·.1)).Nodup)
    {pair : Field × Datum} (hpair : pair ∈ pairs) :
    pairs.reverse.lookup pair.1 = some pair.2 := by
  obtain ⟨before, after, rfl⟩ := List.append_of_mem hpair
  refine List.lookup_eq_some_iff.mpr ⟨after.reverse, before.reverse, by simp, fun other hother => ?_⟩
  rw [List.map_append, List.map_cons, List.nodup_append] at hdistinct
  have hnot := (List.nodup_cons.mp hdistinct.2.1).1
  refine bne_iff_ne.mpr fun heq => hnot ?_
  exact List.mem_map.mpr ⟨other, List.mem_reverse.mp hother, heq.symm⟩

theorem datum_of_lookup {found : Members} {field : Field} {datum : Datum}
    (hlookup : found.lookup field = some datum) : found.datum field = .ok datum := by
  rw [Members.datum, hlookup]

end Record

/-- A record type whose records have the shape of its fields and are made up by their data. -/
class LawfulRecorded (α : Type) [Recorded α] : Prop where
  nodup : ((Recorded.fields α).map fun field => field.name.toList).Nodup
  shape (record : α) :
    List.Forall₂ Field.Matches (Recorded.fields α) (Recorded.data record)
  ofData?_data (record : α) : Recorded.ofData? (Recorded.data record) = some record

namespace Recorded

variable {α : Type} [Recorded α]

/-- The fields of a record with what they hold. -/
def pairs (record : α) : List (Field × Datum) :=
  (fields α).zip (data record)

/-- Whether all numbers and dates of a record are in the range of their kinds. -/
def Fits (record : α) : Prop :=
  ∀ pair ∈ pairs record, pair.2.Fits pair.1.kind

/-- Whether all leap seconds of a record are at the end of a minute. -/
def Legible (record : α) : Prop :=
  ∀ pair ∈ pairs record, pair.2.Legible

instance decidableFits (record : α) : Decidable (Fits record) :=
  inferInstanceAs (Decidable (∀ pair ∈ pairs record, pair.2.Fits pair.1.kind))

instance decidableLegible (record : α) : Decidable (Legible record) :=
  inferInstanceAs (Decidable (∀ pair ∈ pairs record, pair.2.Legible))

/-- Whether a record can be told from its written form: its numbers and dates are in the range of
their kinds, and its leap seconds at the end of a minute. -/
structure InRange (record : α) : Prop where
  fits : Fits record
  legible : Legible record

instance decidableInRange (record : α) : Decidable (InRange record) :=
  decidable_of_iff (Fits record ∧ Legible record)
    ⟨fun ⟨hfits, hlegible⟩ => ⟨hfits, hlegible⟩, fun ⟨hfits, hlegible⟩ => ⟨hfits, hlegible⟩⟩

theorem json_eq (record : α) : json record =
    '\x7b' :: (Record.commaSeparated ((pairs record).map Record.writtenMember) ++ ['\x7d']) := by
  rw [json, Record.object, pairs, ← List.map_uncurry_zip_eq_zipWith, List.map_map]
  rfl

variable [LawfulRecorded α]

theorem map_fst_pairs (record : α) : (pairs record).map (·.1) = fields α :=
  List.map_fst_zip (Nat.le_of_eq (LawfulRecorded.shape record).length_eq)

theorem find?_field {field : Field} (hfield : field ∈ fields α) :
    ((fields α).find? fun other => other.name.toList = field.name.toList) = some field := by
  obtain ⟨before, after, hsplit⟩ := List.append_of_mem hfield
  have hnodup : ((fields α).map fun field => field.name.toList).Nodup := LawfulRecorded.nodup
  rw [hsplit, List.map_append, List.map_cons, List.nodup_append] at hnodup
  rw [hsplit, List.find?_append, List.find?_eq_none.mpr, Option.none_or, List.find?_cons_of_pos]
  · simp
  · intro other hother heq
    exact hnodup.2.2 _ (List.mem_map_of_mem hother) _ List.mem_cons_self (of_decide_eq_true heq)

theorem fit_pairs {record : α} (hlegible : Legible record) :
    Record.Fit (fields α) [] (pairs record) where
  find? pair hpair := find?_field (List.of_mem_zip hpair).1
  shape pair hpair := (List.forall₂_iff_zip.mp (LawfulRecorded.shape record)).2 hpair
  legible := hlegible
  distinct := by
    rw [map_fst_pairs]
    refine List.Pairwise.of_map _ ?_ LawfulRecorded.nodup
    rintro field _ hne rfl
    exact hne rfl
  unmet _ _ := rfl

/-- A record is read back from its JSON form if its fields fit, and not read otherwise. -/
theorem readWhole_json {record : α} (hlegible : Legible record) : ∃ fault,
    Record.readWhole α (json record) = if Fits record then .ok record else .error fault := by
  have hfit := fit_pairs hlegible
  obtain ⟨fault, hmembers⟩ := Record.readMembers_all hfit
  have hdata : (fields α).mapM (Record.Members.datum (pairs record).reverse) =
      .ok (data record) := by
    refine Record.mapM_eq_ok_iff.mpr (List.forall₂_iff_zip.mpr
      ⟨(LawfulRecorded.shape record).length_eq, fun hpair => ?_⟩)
    exact Record.datum_of_lookup (Record.lookup_reverse hfit.distinct hpair)
  refine ⟨fault, ?_⟩
  rw [Record.readWhole, json_eq, Token.list_openBrace, Record.readRecord]
  by_cases hfits : ∀ pair ∈ pairs record, pair.2.Fits pair.1.kind
  · rw [if_pos (show Fits record from hfits)]
    rw [if_pos hfits] at hmembers
    simp only [hmembers, hdata, bind, Except.bind, pure, Except.pure, List.isEmpty_nil, if_true,
      Record.ofData, LawfulRecorded.ofData?_data]
  · rw [if_neg (show ¬Fits record from hfits)]
    rw [if_neg hfits] at hmembers
    simp only [hmembers, bind, Except.bind]

/-- A record that is in range is read back from its JSON form. -/
theorem readWhole_json_of_inRange {record : α} (hrange : InRange record) :
    Record.readWhole α (json record) = .ok record := by
  obtain ⟨fault, hwhole⟩ := readWhole_json hrange.legible
  rw [hwhole, if_pos hrange.fits]

/-- What is read from the JSON form of a record is that record. -/
theorem Legible.eq_of_readWhole {record read : α} (hlegible : Legible record)
    (hread : Record.readWhole α (json record) = .ok read) : read = record := by
  obtain ⟨fault, hwhole⟩ := readWhole_json hlegible
  rw [hwhole] at hread
  split at hread
  next => exact (Except.ok.inj hread).symm
  next => cases hread

end Recorded

/-! ## What the service remembers -/

instance : LawfulRecorded Item where
  nodup := by decide
  shape _ := by repeat first | exact .nil | refine .cons (.inr trivial) ?_
  ofData?_data _ := rfl

instance : LawfulRecorded Buyer where
  nodup := by decide
  shape _ := by repeat first | exact .nil | refine .cons (.inr trivial) ?_
  ofData?_data _ := rfl

instance : LawfulRecorded Fisherman where
  nodup := by decide
  shape _ := by repeat first | exact .nil | refine .cons (.inr trivial) ?_
  ofData?_data _ := rfl

end FishMarket
