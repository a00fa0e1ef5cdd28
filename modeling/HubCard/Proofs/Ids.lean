import HubCard.Id
import Mathlib.Data.List.Forall2
import Mathlib.Data.List.TakeDrop
import Mathlib.Data.List.TakeWhile
import Mathlib.Data.Nat.Digits.Defs

/-!
Ids out of range. A numeral stands for its own value or for nothing, with one exception: a decimal
numeral that does not fit is read as a `Double`, and those just below the least number of 64 signed
bits are rounded up to it.
-/

namespace HubCard

namespace Double

/-! ## Rounding of whole numbers -/

theorem exists_one_eq : ∃ k, one = 2 ^ k := by
  have hshift : ∀ k, 1 <<< k = 2 ^ k := Nat.one_shiftLeft
  exact ⟨1074, hshift 1074⟩

theorem one_pos : 0 < one := by
  obtain ⟨k, hone⟩ := exists_one_eq
  rw [hone]
  exact Nat.two_pow_pos k

theorem div_le_roundQuotient (num den : Nat) : num / den ≤ roundQuotient num den := by
  simp only [roundQuotient]
  split
  · exact Nat.le_refl _
  · split <;> omega

theorem roundQuotient_mul (num den : Nat) {c : Nat} (hc : 0 < c) :
    roundQuotient (num * c) (den * c) = roundQuotient num den := by
  have hquotient : num * c / (den * c) = num / den := Nat.mul_div_mul_right num den hc
  have hrest : 2 * (num * c % (den * c)) = 2 * (num % den) * c := by
    rw [Nat.mul_mod_mul_right, Nat.mul_assoc]
  simp only [roundQuotient, hquotient, hrest, Nat.mul_lt_mul_right hc]

theorem log2_mul_two_pow {n : Nat} (hn : n ≠ 0) (k : Nat) : (n * 2 ^ k).log2 = n.log2 + k := by
  have hlow : 2 ^ n.log2 ≤ n := Nat.log2_self_le hn
  have hhigh : n < 2 ^ (n.log2 + 1) := Nat.lt_log2_self
  have hpos : n * 2 ^ k ≠ 0 := Nat.mul_ne_zero hn (Nat.ne_of_gt (Nat.two_pow_pos k))
  rw [Nat.log2_eq_iff hpos, Nat.pow_add, Nat.add_right_comm, Nat.pow_add]
  exact ⟨Nat.mul_le_mul_right _ hlow, Nat.mul_lt_mul_of_pos_right hhigh (Nat.two_pow_pos k)⟩

-- From 2⁵² on the representable numbers lie at least one apart, and a whole number can be rounded
-- in any unit that is finer.
theorem nearest_mul_one {n : Nat} (hn : 2 ^ 52 ≤ n) :
    nearest (n * one) 1 = nearest n 1 * one := by
  obtain ⟨k, hone⟩ := exists_one_eq
  have hpos : n ≠ 0 := by omega
  have hlog : 52 ≤ n.log2 := (Nat.le_log2 hpos).mpr hn
  have hspacing : spacing (n * 2 ^ k) = spacing n + k := by
    rw [spacing, spacing, log2_mul_two_pow hpos]
    omega
  rw [hone]
  simp only [nearest, Nat.div_one, hspacing, Nat.shiftLeft_eq, Nat.one_mul, Nat.pow_add]
  rw [roundQuotient_mul _ _ (Nat.two_pow_pos k), Nat.mul_assoc]

-- Rounding does not cross a power of two.
theorem two_pow_le_nearest {k n : Nat} (hk : 52 ≤ k) (hn : 2 ^ k ≤ n) : 2 ^ k ≤ nearest n 1 := by
  have hpos : n ≠ 0 := Nat.ne_of_gt (Nat.lt_of_lt_of_le (Nat.two_pow_pos k) hn)
  have hlog : k ≤ n.log2 := (Nat.le_log2 hpos).mpr hn
  have hself : 2 ^ n.log2 ≤ n := Nat.log2_self_le hpos
  have hsplit : 2 ^ 52 * 2 ^ spacing n = 2 ^ n.log2 := by
    rw [← Nat.pow_add, spacing]
    congr 1
    omega
  have hquotient : 2 ^ 52 ≤ n / 2 ^ spacing n := by
    rw [Nat.le_div_iff_mul_le (Nat.two_pow_pos _), hsplit]
    exact hself
  calc
    2 ^ k ≤ 2 ^ n.log2 := Nat.pow_le_pow_right (by decide) hlog
    _ = 2 ^ 52 * 2 ^ spacing n := hsplit.symm
    _ ≤ roundQuotient n (2 ^ spacing n) * 2 ^ spacing n :=
      Nat.mul_le_mul_right _ (Nat.le_trans hquotient (div_le_roundQuotient ..))
    _ = nearest n 1 := by
      simp only [nearest, Nat.div_one, Nat.shiftLeft_eq, Nat.one_mul]

-- Above 2⁶³ the representable numbers lie 2048 apart, and a tie at half of that goes down.
theorem nearest_eq_two_pow_63_iff {n : Nat} (hn : 2 ^ 63 ≤ n) :
    nearest n 1 = 2 ^ 63 ↔ n ≤ 2 ^ 63 + 1024 := by
  by_cases hlarge : 2 ^ 64 ≤ n
  · have hnearest : 2 ^ 64 ≤ nearest n 1 := two_pow_le_nearest (by decide) hlarge
    omega
  · have hlog : n.log2 = 63 := (Nat.log2_eq_iff (by omega)).mpr ⟨hn, by omega⟩
    have hspacing : spacing n = 11 := by rw [spacing, hlog]
    simp only [nearest, Nat.div_one, hspacing, Nat.shiftLeft_eq, Nat.one_mul, roundQuotient]
    split
    · omega
    · split <;> omega

end Double

namespace Numeral

/-! ## Numerals -/

/-- A digit of a base, in lower or in upper case, and its value. -/
def IsDigit (base : Nat) (c : Char) (d : Nat) : Prop :=
  d < base ∧ (c = d.digitChar ∨ c = d.digitChar.toUpper)

/-- One or more digits of a base, the first one worth most, and the number that they stand for. -/
def Spells (base : Nat) (digits : List Char) (n : Nat) : Prop :=
  ∃ ds, ds ≠ [] ∧ List.Forall₂ (IsDigit base) digits ds ∧ n = Nat.ofDigits base ds.reverse

/-- An integer numeral in decimal digits, and the number that it stands for. -/
inductive Decimal : List Char → Int → Prop where
  | bare {digits : List Char} {n : Nat} (h : Spells 10 digits n) : Decimal digits n
  | plus {digits : List Char} {n : Nat} (h : Spells 10 digits n) : Decimal ('+' :: digits) n
  | minus {digits : List Char} {n : Nat} (h : Spells 10 digits n) : Decimal ('-' :: digits) (-n)

/-- A numeral in hexadecimal digits, and the number that it stands for. -/
inductive Hexadecimal : List Char → Int → Prop where
  | lower {digits : List Char} {n : Nat} (h : Spells 16 digits n) :
      Hexadecimal ('0' :: 'x' :: digits) n
  | upper {digits : List Char} {n : Nat} (h : Spells 16 digits n) :
      Hexadecimal ('0' :: 'X' :: digits) n

theorem withSign_false (n : Nat) : withSign false n = n := rfl

theorem withSign_true (n : Nat) : withSign true n = -n := rfl

theorem IsDigit.digit?_eq {base : Nat} (hbase : base = 10 ∨ base = 16) {c : Char} {d : Nat}
    (h : IsDigit base c d) : digit? base c = some d := by
  have hvalue : ∀ d < base,
      digit? base d.digitChar = some d ∧ digit? base d.digitChar.toUpper = some d := by
    rcases hbase with rfl | rfl <;> decide
  obtain ⟨hlt, rfl | rfl⟩ := h
  · exact (hvalue d hlt).1
  · exact (hvalue d hlt).2

theorem IsDigit.isDigit {c : Char} {d : Nat} (h : IsDigit 10 c d) : c.isDigit = true := by
  have hten : ∀ d < 10, d.digitChar.isDigit = true ∧ d.digitChar.toUpper.isDigit = true := by
    decide
  obtain ⟨hlt, rfl | rfl⟩ := h
  · exact (hten d hlt).1
  · exact (hten d hlt).2

theorem digitsFrom?_eq {base : Nat} (hbase : base = 10 ∨ base = 16) {digits : List Char}
    {ds : List Nat} (h : List.Forall₂ (IsDigit base) digits ds) (value : Nat) :
    digitsFrom? base value digits =
      some (base ^ ds.length * value + Nat.ofDigits base ds.reverse) := by
  induction h generalizing value with
  | nil => simp [digitsFrom?]
  | @cons c d digits ds hdigit hdigits ih =>
    rw [digitsFrom?, hdigit.digit?_eq hbase]
    show digitsFrom? base (base * value + d) digits = _
    rw [ih, Nat.ofDigits_reverse_cons, List.length_cons, Nat.pow_succ]
    congr 1
    ring

-- A number is spelled by the characters of its digits.
theorem spells_map {base : Nat} (ds : List Nat) (hne : ds ≠ []) (hlt : ∀ d ∈ ds, d < base) :
    Spells base (ds.map Nat.digitChar) (Nat.ofDigits base ds.reverse) := by
  refine ⟨ds, hne, ?_, rfl⟩
  rw [List.forall₂_map_left_iff, List.forall₂_same]
  exact fun d hd => ⟨hlt d hd, .inl rfl⟩

namespace Spells

variable {base : Nat} {digits : List Char} {n : Nat} (h : Spells base digits n)

include h

theorem digits?_eq (hbase : base = 10 ∨ base = 16) : digits? base digits = some n := by
  obtain ⟨ds, hne, hdigits, rfl⟩ := h
  have hfull : digits.isEmpty = false := by
    cases hdigits with
    | nil => exact absurd rfl hne
    | cons => rfl
  rw [digits?, hfull, digitsFrom?_eq hbase hdigits]
  simp

theorem exists_isDigit {c : Char} (hc : c ∈ digits) : ∃ d, IsDigit base c d := by
  obtain ⟨ds, -, hdigits, -⟩ := h
  induction hdigits with
  | nil => cases hc
  | cons hdigit hdigits ih =>
    rcases List.mem_cons.mp hc with rfl | hc
    · exact ⟨_, hdigit⟩
    · exact ih hc

theorem not_mem (hbase : base = 10 ∨ base = 16) {c : Char} (hc : digit? base c = none) :
    c ∉ digits := by
  intro hmem
  obtain ⟨d, hdigit⟩ := h.exists_isDigit hmem
  rw [hdigit.digit?_eq hbase] at hc
  cases hc

theorem splitSign_eq (hbase : base = 10 ∨ base = 16) : splitSign digits = (false, digits) := by
  have hminus : '-' ∉ digits := h.not_mem hbase (by rcases hbase with rfl | rfl <;> decide)
  have hplus : '+' ∉ digits := h.not_mem hbase (by rcases hbase with rfl | rfl <;> decide)
  unfold splitSign
  split
  · exact absurd List.mem_cons_self hminus
  · exact absurd List.mem_cons_self hplus
  · rfl

end Spells

theorem Hexadecimal.ofText?_eq {s : List Char} {value : Int} (h : Hexadecimal s value) :
    ofText? s = ifFits value := by
  have hinteger : ∀ digits n, Spells 16 digits n →
      (integer? 16 digits).bind ifFits = ifFits (n : Int) := by
    intro digits n hdigits
    rw [integer?, hdigits.splitSign_eq (.inr rfl)]
    show ((digits? 16 digits).map (withSign false)).bind ifFits = _
    rw [hdigits.digits?_eq (.inr rfl), Option.map_some, Option.bind_some, withSign_false]
  cases h with
  | lower hdigits => exact hinteger _ _ hdigits
  | upper hdigits => exact hinteger _ _ hdigits

/-! ## Decimal numerals out of range -/

theorem ifFits_eq (n : Int) : ifFits n = if -2 ^ 63 ≤ n ∧ n < 2 ^ 63 then some n else none := by
  have hbound : signedBound = 2 ^ 63 := by norm_num [signedBound]
  simp only [ifFits, fits, hbound, Bool.and_eq_true, decide_eq_true_eq]

theorem ifFits_eq_none_iff {n : Int} : ifFits n = none ↔ n < -2 ^ 63 ∨ 2 ^ 63 ≤ n := by
  rw [ifFits_eq]
  split
  · simp; omega
  · simp; omega

/-- What a number is taken for that does not fit: the least that fits, if it lies a little below
that. -/
def roundedUp? (value : Int) : Option Int :=
  if -2 ^ 63 - 1024 ≤ value ∧ value < -2 ^ 63 then some (-2 ^ 63) else none

theorem roundedUp?_of_far (negative : Bool) {n : Nat} (hfar : 2 ^ 63 + 1024 < n) :
    roundedUp? (withSign negative n) = none := by
  rw [roundedUp?, if_neg]
  cases negative with
  | false =>
    rw [withSign_false]
    omega
  | true =>
    rw [withSign_true]
    omega

theorem wholeDouble?_mul_one (negative : Bool) (n : Nat) :
    wholeDouble? ⟨negative, n * Double.one⟩ = ifFits (withSign negative n) := by
  have hrest : n * Double.one % Double.one = 0 := Nat.mul_mod_left n _
  have hquotient : n * Double.one / Double.one = n := Nat.mul_div_cancel n Double.one_pos
  simp only [wholeDouble?, Double.whole?, hrest, hquotient, if_true]
  rfl

section Large

variable {negative : Bool} {n : Nat} (hlarge : ifFits (withSign negative n) = none)

include hlarge

theorem two_pow_63_le : 2 ^ 63 ≤ n := by
  rw [ifFits_eq_none_iff] at hlarge
  cases negative with
  | false =>
    rw [withSign_false] at hlarge
    omega
  | true =>
    rw [withSign_true] at hlarge
    omega

theorem ifFits_nearest :
    ifFits (withSign negative (Double.nearest n 1)) = roundedUp? (withSign negative n) := by
  have hn : 2 ^ 63 ≤ n := two_pow_63_le hlarge
  have hnearest : 2 ^ 63 ≤ Double.nearest n 1 := Double.two_pow_le_nearest (by decide) hn
  have hdown := Double.nearest_eq_two_pow_63_iff hn
  rw [ifFits_eq_none_iff] at hlarge
  cases negative with
  | false =>
    rw [withSign_false] at hlarge
    rw [withSign_false, withSign_false, ifFits_eq, roundedUp?, if_neg (by omega), if_neg (by omega)]
  | true =>
    rw [withSign_true] at hlarge
    rw [withSign_true, withSign_true, ifFits_eq, roundedUp?]
    by_cases hclose : n ≤ 2 ^ 63 + 1024
    · have heq : Double.nearest n 1 = 2 ^ 63 := hdown.mpr hclose
      rw [if_pos (by omega), if_pos (by omega), heq]
      rfl
    · have hne : Double.nearest n 1 ≠ 2 ^ 63 := fun heq => hclose (hdown.mp heq)
      rw [if_neg (by omega), if_neg (by omega)]

-- As a `Double` a number that does not fit is one that does not fit either, or the least that does.
theorem wholeDouble?_ofUnits? :
    (Double.ofUnits? negative (n * Double.one) 1).bind wholeDouble? =
      roundedUp? (withSign negative n) := by
  have hn : 2 ^ 63 ≤ n := two_pow_63_le hlarge
  simp only [Double.ofUnits?, Double.nearest_mul_one (by omega : 2 ^ 52 ≤ n)]
  split
  · rw [Option.bind_some, wholeDouble?_mul_one, ifFits_nearest hlarge]
  · rename_i hlimit
    have hfar : 2 ^ 63 + 1024 < n := by
      by_contra hclose
      apply hlimit
      rw [(Double.nearest_eq_two_pow_63_iff hn).mpr (by omega)]
      decide +kernel
    rw [Option.bind_none, roundedUp?_of_far negative hfar]

theorem wholeDouble?_ofDecimal? :
    (Double.ofDecimal? negative n 0).bind wholeDouble? = roundedUp? (withSign negative n) := by
  have hn : 2 ^ 63 ≤ n := two_pow_63_le hlarge
  unfold Double.ofDecimal?
  extract_lets size
  rw [if_neg (by omega)]
  split
  · -- a number with so many digits is far out of range
    rename_i hlong
    have hfar : 10 ^ 20 ≤ n := by
      by_contra hsmall
      have hsize : size ≤ 20 := Nat.toDigits_length 10 n 20 (by decide) (by omega)
      omega
    rw [Option.bind_none, roundedUp?_of_far negative (by omega)]
  · rw [if_pos (Int.le_refl 0)]
    show (Double.ofUnits? negative (n * 1 * Double.one) 1).bind wholeDouble? = _
    rw [Nat.mul_one, wholeDouble?_ofUnits? hlarge]

end Large

/-! ## Decimal numerals -/

theorem Spells.span_eq {digits : List Char} {n : Nat} (h : Spells 10 digits n) :
    digits.span Char.isDigit = (digits, []) := by
  have hall : ∀ c ∈ digits, c.isDigit = true := by
    intro c hc
    obtain ⟨d, hdigit⟩ := h.exists_isDigit hc
    exact hdigit.isDigit
  rw [List.span_eq_takeWhile_dropWhile, List.takeWhile_eq_self_iff.mpr hall,
    List.dropWhile_eq_nil_iff.mpr hall]

namespace Decimal

variable {s : List Char} {value : Int} (h : Decimal s value)

include h

theorem splitSign_eq : ∃ negative digits n,
    splitSign s = (negative, digits) ∧ Spells 10 digits n ∧ value = withSign negative n := by
  cases h with
  | bare hdigits => exact ⟨_, _, _, hdigits.splitSign_eq (.inl rfl), hdigits, rfl⟩
  | plus hdigits => exact ⟨_, _, _, rfl, hdigits, rfl⟩
  | minus hdigits => exact ⟨_, _, _, rfl, hdigits, rfl⟩

theorem integer?_eq : integer? 10 s = some value := by
  obtain ⟨negative, digits, n, hsplit, hdigits, rfl⟩ := h.splitSign_eq
  simp only [integer?, hsplit, hdigits.digits?_eq (.inl rfl), Option.map_some]

theorem double?_eq :
    ∃ negative n, value = withSign negative n ∧ double? s = Double.ofDecimal? negative n 0 := by
  obtain ⟨negative, digits, n, hsplit, hdigits, rfl⟩ := h.splitSign_eq
  refine ⟨negative, n, rfl, ?_⟩
  simp only [double?, hsplit, hdigits.span_eq, List.append_nil, hdigits.digits?_eq (.inl rfl),
    exponent?]
  rfl

-- There is no `x` among decimal digits.
theorem not_hexadecimal {c : Char} (hc : digit? 10 c = none) (rest : List Char) :
    s ≠ '0' :: c :: rest := by
  rintro rfl
  cases h with
  | bare hdigits =>
    exact hdigits.not_mem (.inl rfl) hc (List.mem_cons_of_mem _ List.mem_cons_self)

theorem ofText?_eq : ofText? s = (ifFits value).or (roundedUp? value) := by
  unfold ofText?
  split
  · exact absurd rfl (h.not_hexadecimal (by decide) _)
  · exact absurd rfl (h.not_hexadecimal (by decide) _)
  · rw [h.integer?_eq, Option.bind_some]
    cases hfits : ifFits value with
    | some n => rfl
    | none =>
      obtain ⟨negative, n, rfl, hdouble⟩ := h.double?_eq
      rw [hdouble, Option.none_or]
      exact wholeDouble?_ofDecimal? hfits

end Decimal

end Numeral

namespace Id

/-! ## Ids -/

-- No number above those that fit is taken for one that does.
theorem wholeDouble?_ofNat? {n : Int} (h : 2 ^ 63 ≤ n) :
    (Double.ofNat? n.toNat).bind Numeral.wholeDouble? = none := by
  obtain ⟨m, rfl⟩ := Int.eq_ofNat_of_zero_le (show 0 ≤ n by omega)
  have hnone : Numeral.ifFits (Numeral.withSign false m) = none := by
    rw [Numeral.withSign_false, Numeral.ifFits_eq_none_iff]
    exact .inr h
  rw [Int.toNat_natCast, Double.ofNat?, Numeral.wholeDouble?_ofUnits? hnone,
    Numeral.withSign_false, Numeral.roundedUp?, if_neg (by omega)]

theorem ofJson?_int (n : Int) : ofJson? (.int n) = Numeral.ifFits n := by
  show (Numeral.ifFits n).orElse (fun _ => (double? n).bind Numeral.wholeDouble?) = _
  cases hfits : Numeral.ifFits n with
  | some id => rfl
  | none =>
    show (double? n).bind Numeral.wholeDouble? = none
    rcases Numeral.ifFits_eq_none_iff.mp hfits with hbelow | habove
    · have hnot : ¬ Numeral.fits n := by
        intro h
        rw [Numeral.ifFits, if_pos h] at hfits
        cases hfits
      rw [double?, if_neg (by omega), if_neg hnot, Option.bind_none]
    · rw [double?, if_pos (by omega), wholeDouble?_ofNat? habove]

/-- In decimal digits a text stands for its number if that fits in 64 signed bits, for the least
such number if it lies no more than 1024 below that, and else for no id. In hexadecimal digits it
stands for its number or for no id. So does a number that is reported as one: above those that fit the
`Double` nearest to it is out of range as well. -/
theorem ofJson?_exact (s : String) (n : Int) :
    (Numeral.Decimal (Text.trim s).toList n →
      ofJson? (.str s) =
        if -2 ^ 63 ≤ n ∧ n < 2 ^ 63 then some n
        else if -2 ^ 63 - 1024 ≤ n ∧ n < -2 ^ 63 then some (-2 ^ 63)
        else none) ∧
      (Numeral.Hexadecimal (Text.trim s).toList n →
        ofJson? (.str s) = if -2 ^ 63 ≤ n ∧ n < 2 ^ 63 then some n else none) ∧
      ofJson? (.int n) = (if -2 ^ 63 ≤ n ∧ n < 2 ^ 63 then some n else none) ∧
      (2 ^ 63 ≤ n → (Double.ofNat? n.toNat).bind Numeral.wholeDouble? = none) := by
  refine ⟨?_, ?_, ?_, wholeDouble?_ofNat?⟩
  · intro hdecimal
    show Numeral.ofText? (Text.trim s).toList = _
    rw [hdecimal.ofText?_eq, Numeral.ifFits_eq]
    split <;> rfl
  · intro hhexadecimal
    show Numeral.ofText? (Text.trim s).toList = _
    rw [hhexadecimal.ofText?_eq, Numeral.ifFits_eq]
  · rw [ofJson?_int, Numeral.ifFits_eq]

-- The last decimal numeral that is rounded up, a hexadecimal numeral and the first number that does
-- not fit.
theorem ofJson?_exact_edges :
    ofJson? (.str " -9223372036854776832") = some (-9223372036854775808) ∧
      ofJson? (.str "0X9a") = some 154 ∧ ofJson? (.int 9223372036854775808) = none := by
  have hdecimal : Numeral.Decimal (Text.trim " -9223372036854776832").toList
      (-9223372036854776832) :=
    .minus (Numeral.spells_map [9, 2, 2, 3, 3, 7, 2, 0, 3, 6, 8, 5, 4, 7, 7, 6, 8, 3, 2]
      (by decide) (by decide))
  have hhexadecimal : Numeral.Hexadecimal (Text.trim "0X9a").toList 154 :=
    .upper (Numeral.spells_map [9, 10] (by decide) (by decide))
  refine ⟨?_, ?_, ?_⟩
  · rw [(ofJson?_exact _ _).1 hdecimal]
    decide
  · rw [(ofJson?_exact _ _).2.1 hhexadecimal]
    decide
  · rw [(ofJson?_exact "" 9223372036854775808).2.2.1]
    decide

/-- The first decimal numeral that does not fit, and stands for an id all the same. -/
theorem ofJson?_below_least :
    Numeral.Decimal (Text.trim "-9223372036854775809").toList (-9223372036854775809) ∧
      ofJson? (.str "-9223372036854775809") = some (-9223372036854775808) := by
  constructor
  · exact .minus (Numeral.spells_map [9, 2, 2, 3, 3, 7, 2, 0, 3, 6, 8, 5, 4, 7, 7, 5, 8, 0, 9]
      (by decide) (by decide))
  · decide +kernel

end Id

end HubCard
