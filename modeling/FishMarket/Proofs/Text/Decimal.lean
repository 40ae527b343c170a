import Mathlib.Algebra.Group.Nat.Defs
import FishMarket.Text.Decimal

/-! # Decimal digits

What is written in decimal reads back as the same number: only digits are written, at least one, and
none of them is a zero in front of another unless it fills up a width. A natural number is read from
digits only, with or without a plus sign, and only up to the limit.
-/

namespace FishMarket.Text

theorem digitValue?_digit {n : Nat} (hn : n < 10) : digitValue? (digit n) = some n := by
  have hall : ∀ n < 10, digitValue? (digit n) = some n := by decide
  exact hall n hn

theorem digit_mod (n : Nat) : digit n = digit (n % 10) := by
  simp only [digit, Nat.mod_mod]

@[simp] theorem digitValue?_digit_mod (n : Nat) : digitValue? (digit n) = some (n % 10) := by
  rw [digit_mod, digitValue?_digit (Nat.mod_lt n (by decide))]

@[simp] theorem isDigit_digit (n : Nat) : isDigit (digit n) = true := by
  simp [isDigit]

theorem digit_ne_zero {n : Nat} (hpos : n ≠ 0) (hn : n < 10) : digit n ≠ '0' := by
  intro heq
  have hvalue := digitValue?_digit hn
  rw [heq] at hvalue
  exact hpos (Option.some.inj hvalue).symm

/-! ## Values -/

theorem valueOfDigits_concat (digits : List Char) (c : Char) :
    valueOfDigits (digits ++ [c]) = 10 * valueOfDigits digits + (digitValue? c).getD 0 := by
  simp only [valueOfDigits, List.foldl_append, List.foldl_cons, List.foldl_nil]

theorem valueOfDigits_zeros (count : Nat) (digits : List Char) :
    valueOfDigits (List.replicate count '0' ++ digits) = valueOfDigits digits := by
  induction count with
  | zero => rfl
  | succ count ih => exact ih

/-- Reading digits onto a number never makes it smaller. -/
theorem le_foldl_digits (digits : List Char) (value : Nat) :
    value ≤ digits.foldl (fun value c => 10 * value + (digitValue? c).getD 0) value := by
  induction digits generalizing value with
  | nil => exact Nat.le_refl value
  | cons c rest ih =>
      have hnext : value ≤ 10 * value + (digitValue? c).getD 0 := by omega
      exact Nat.le_trans hnext (ih _)

/-! ## Natural numbers -/

theorem digitsBefore_eq {n bound : Nat} (hbound : n < bound) (rest : List Char) :
    digitsBefore bound n rest = ofNat n ++ rest := by
  induction n using Nat.strongRecOn generalizing bound rest with
  | ind n ih =>
      obtain ⟨bound, rfl⟩ := Nat.exists_eq_add_one_of_ne_zero (Nat.ne_zero_of_lt hbound)
      unfold ofNat digitsBefore
      split
      next => rfl
      next hlarge =>
        rw [ih (n / 10) (by omega) (by omega), ih (n / 10) (by omega) (by omega),
          List.append_assoc]
        rfl

/-- All digits but the last are those of the tenth part. -/
theorem ofNat_eq (n : Nat) : ofNat n = if n < 10 then [digit n] else ofNat (n / 10) ++ [digit n] := by
  change digitsBefore (n + 1) n [] = _
  rw [digitsBefore]
  split
  next => rfl
  next => exact digitsBefore_eq (by omega) _

theorem ofNat_ne_nil (n : Nat) : ofNat n ≠ [] := by
  rw [ofNat_eq]
  split <;> simp

theorem isDigit_of_mem_ofNat {n : Nat} : ∀ c ∈ ofNat n, isDigit c = true := by
  induction n using Nat.strongRecOn with
  | ind n ih =>
      intro c hmem
      rw [ofNat_eq] at hmem
      split at hmem
      next => rw [List.mem_singleton.mp hmem, isDigit_digit]
      next =>
        rcases List.mem_append.mp hmem with hfront | hlast
        · exact ih (n / 10) (by omega) c hfront
        · rw [List.mem_singleton.mp hlast, isDigit_digit]

@[simp] theorem valueOfDigits_ofNat (n : Nat) : valueOfDigits (ofNat n) = n := by
  induction n using Nat.strongRecOn with
  | ind n ih =>
      rw [ofNat_eq]
      split
      next hsmall =>
        have hvalue := valueOfDigits_concat [] (digit n)
        rw [digitValue?_digit hsmall] at hvalue
        exact hvalue.trans (Nat.zero_add n)
      next =>
        rw [valueOfDigits_concat, ih (n / 10) (by omega), digitValue?_digit_mod, Option.getD_some]
        omega

theorem ofNat_injective {m n : Nat} (heq : ofNat m = ofNat n) : m = n := by
  rw [← valueOfDigits_ofNat m, heq, valueOfDigits_ofNat]

/-- Only zero begins with a zero. -/
theorem head?_ofNat_ne_zero {n : Nat} (hpos : n ≠ 0) : (ofNat n).head? ≠ some '0' := by
  induction n using Nat.strongRecOn with
  | ind n ih =>
      rw [ofNat_eq]
      split
      next hsmall => exact fun heq => digit_ne_zero hpos hsmall (Option.some.inj heq)
      next =>
        obtain ⟨c, rest, hcons⟩ := List.exists_cons_of_ne_nil (ofNat_ne_nil (n / 10))
        have hfirst := ih (n / 10) (by omega) (by omega)
        rw [hcons] at hfirst ⊢
        exact hfirst

theorem length_ofNat_le {n width : Nat} (hpos : 0 < width) (hn : n < 10 ^ width) :
    (ofNat n).length ≤ width := by
  induction width generalizing n with
  | zero => cases hpos
  | succ width ih =>
      rw [ofNat_eq]
      split
      next => exact Nat.le_add_left 1 width
      next hlarge =>
        have hwidth : 0 < width := by
          rcases Nat.eq_zero_or_pos width with rfl | hpos
          · omega
          · exact hpos
        rw [Nat.pow_succ] at hn
        rw [List.length_append, List.length_singleton]
        exact Nat.succ_le_succ (ih hwidth (by omega))

/-! ## Numbers of a width -/

theorem isDigit_of_mem_padded {width n : Nat} : ∀ c ∈ padded width n, isDigit c = true := by
  intro c hmem
  rcases List.mem_append.mp hmem with hzero | hdigit
  · rw [List.eq_of_mem_replicate hzero]
    decide
  · exact isDigit_of_mem_ofNat c hdigit

@[simp] theorem valueOfDigits_padded (width n : Nat) : valueOfDigits (padded width n) = n := by
  rw [padded, valueOfDigits_zeros, valueOfDigits_ofNat]

theorem padded_ne_nil (width n : Nat) : padded width n ≠ [] :=
  List.append_ne_nil_of_right_ne_nil _ (ofNat_ne_nil n)

theorem length_padded {width n : Nat} (hpos : 0 < width) (hn : n < 10 ^ width) :
    (padded width n).length = width := by
  have hle := length_ofNat_le hpos hn
  rw [padded, List.length_append, List.length_replicate]
  omega

/-! ## Integers -/

theorem isDigit_minus : isDigit '-' = false := by decide

theorem minus_notMem_ofNat (n : Nat) : '-' ∉ ofNat n := by
  intro hmem
  have hdigit := isDigit_of_mem_ofNat '-' hmem
  rw [isDigit_minus] at hdigit
  cases hdigit

theorem ofInt_injective {a b : Int} (heq : ofInt a = ofInt b) : a = b := by
  cases a with
  | ofNat m =>
      cases b with
      | ofNat n => exact congrArg Int.ofNat (ofNat_injective heq)
      | negSucc n =>
          change ofNat m = '-' :: ofNat (n + 1) at heq
          exact absurd (heq ▸ List.mem_cons_self) (minus_notMem_ofNat m)
  | negSucc m =>
      cases b with
      | ofNat n =>
          change '-' :: ofNat (m + 1) = ofNat n at heq
          exact absurd (heq ▸ List.mem_cons_self) (minus_notMem_ofNat n)
      | negSucc n =>
          have hsame : m + 1 = n + 1 := ofNat_injective (List.tail_eq_of_cons_eq heq)
          exact congrArg Int.negSucc (Nat.succ.inj hsame)

theorem decimal_injective {a b : Int} (heq : decimal a = decimal b) : a = b :=
  ofInt_injective (String.ofList_injective heq)

/-! ## Numbers that are read -/

/-- Digits are read onto a magnitude up to the limit, and nothing else is. -/
theorem readMagnitude_eq_ok_iff {limit value result : Nat} {excess : IntegerFault}
    {digits : List Char} (hvalue : value ≤ limit) :
    readMagnitude limit excess value digits = .ok result ↔
      (∀ c ∈ digits, isDigit c = true) ∧ result ≤ limit ∧
        digits.foldl (fun value c => 10 * value + (digitValue? c).getD 0) value = result := by
  induction digits generalizing value with
  | nil =>
      rw [readMagnitude, Except.ok.injEq, List.foldl_nil]
      exact ⟨fun heq => ⟨nofun, heq ▸ hvalue, heq⟩, fun ⟨_, _, heq⟩ => heq⟩
  | cons c rest ih =>
      rw [readMagnitude, List.forall_mem_cons, List.foldl_cons, isDigit]
      cases digitValue? c with
      | none => simp
      | some d =>
          simp only [Option.isSome_some, true_and, Option.getD_some]
          split
          next hlarge =>
            have hle := le_foldl_digits rest (10 * value + d)
            refine iff_of_false nofun fun ⟨_, hlimit, hresult⟩ => ?_
            omega
          next hsmall => exact ih (Nat.not_lt.mp hsmall)

/-- Whether a text writes a natural number in digits, with a plus sign in front of them or none. -/
def Writes (text : List Char) (value : Nat) : Prop :=
  ∃ digits, (text = digits ∨ text = '+' :: digits) ∧ digits ≠ [] ∧
    (∀ c ∈ digits, isDigit c = true) ∧ valueOfDigits digits = value

theorem isDigit_plus : isDigit '+' = false := by decide

theorem writes_plus_iff {digits : List Char} {value : Nat} : Writes ('+' :: digits) value ↔
    digits ≠ [] ∧ (∀ c ∈ digits, isDigit c = true) ∧ valueOfDigits digits = value := by
  constructor
  · rintro ⟨written, rfl | hplus, hne, hdigits, hvalue⟩
    · exact absurd (isDigit_plus.symm.trans (hdigits '+' List.mem_cons_self)) nofun
    · obtain ⟨-, rfl⟩ := List.cons.inj hplus
      exact ⟨hne, hdigits, hvalue⟩
  · exact fun hdigits => ⟨digits, .inr rfl, hdigits⟩

theorem writes_iff {text : List Char} {value : Nat} (hplus : ∀ rest, text ≠ '+' :: rest) :
    Writes text value ↔
      text ≠ [] ∧ (∀ c ∈ text, isDigit c = true) ∧ valueOfDigits text = value :=
  ⟨fun ⟨_, hwritten, hdigits⟩ => hwritten.resolve_right (hplus _) ▸ hdigits,
    fun hdigits => ⟨text, .inl rfl, hdigits⟩⟩

theorem map_readMagnitude_eq_ok_iff {limit : Nat} {digits : List Char} {value : Int} :
    (readMagnitude limit .tooLarge 0 digits).map Int.ofNat = .ok value ↔
      ∃ n : Nat, ((∀ c ∈ digits, isDigit c = true) ∧ valueOfDigits digits = n) ∧ n ≤ limit ∧
        value = n := by
  constructor
  · intro hread
    cases hn : readMagnitude limit .tooLarge 0 digits with
    | error fault =>
        rw [hn] at hread
        cases hread
    | ok n =>
        rw [hn] at hread
        cases hread
        obtain ⟨hdigits, hlimit, hfold⟩ := (readMagnitude_eq_ok_iff (Nat.zero_le limit)).mp hn
        exact ⟨n, ⟨hdigits, hfold⟩, hlimit, rfl⟩
  · rintro ⟨n, ⟨hdigits, hfold⟩, hlimit, rfl⟩
    rw [(readMagnitude_eq_ok_iff (Nat.zero_le limit)).mpr ⟨hdigits, hlimit, hfold⟩]
    rfl

theorem not_writes_minus {rest : List Char} {value : Nat} : ¬ Writes ('-' :: rest) value := by
  intro hwrites
  have hplus (digits : List Char) : '-' :: rest ≠ '+' :: digits :=
    fun heq => absurd (List.cons.inj heq).1 (by decide)
  obtain ⟨-, hdigits, -⟩ := (writes_iff hplus).mp hwrites
  exact absurd (isDigit_minus.symm.trans (hdigits '-' List.mem_cons_self)) nofun

/-- A natural number is read if it is written as one and within the limit. -/
theorem readInteger_eq_ok_iff {limit : Nat} {text : List Char} {value : Int} :
    readInteger 0 limit text = .ok value ↔ ∃ n : Nat, Writes text n ∧ n ≤ limit ∧ value = n := by
  have hunsigned {text : List Char} (hne : text ≠ []) (hplus : ∀ rest, text ≠ '+' :: rest) :
      (readMagnitude limit .tooLarge 0 text).map Int.ofNat = .ok value ↔
        ∃ n : Nat, Writes text n ∧ n ≤ limit ∧ value = n := by
    simp only [map_readMagnitude_eq_ok_iff, writes_iff hplus, and_iff_right hne]
  unfold readInteger
  split
  next =>
    refine iff_of_false nofun fun ⟨n, hwrites, _⟩ => ?_
    exact ((writes_iff fun _ => (List.cons_ne_nil _ _).symm).mp hwrites).1 rfl
  next c =>
    split
    next hsign =>
      refine iff_of_false nofun fun ⟨n, hwrites, _⟩ => ?_
      rcases hsign with rfl | rfl
      · exact (writes_plus_iff.mp hwrites).1 rfl
      · exact not_writes_minus hwrites
    next hsign =>
      refine hunsigned (List.cons_ne_nil c []) fun rest heq => hsign (.inl ?_)
      exact (List.cons.inj heq).1
  next rest hlong =>
    have hne : rest ≠ [] := hlong
    simp only [Int.toNat_natCast, map_readMagnitude_eq_ok_iff, writes_plus_iff, and_iff_right hne]
  next rest _ =>
    rw [if_neg (Int.lt_irrefl 0)]
    exact iff_of_false nofun fun ⟨n, hwrites, _⟩ => not_writes_minus hwrites
  next hne _ hplus _ => exact hunsigned hne hplus

end FishMarket.Text
