import MailAddress.Text

/-!
# Floating-point numbers

A *binary64* number is no number at all, or infinite, or finite.  The magnitude of a finite one is
given in *units* of 2⁻¹⁰⁷⁴.  It is a multiple of its *step*, so that it has at most 53 significant
bits, and lies below 2¹⁰²⁴.

A decimal number is read as the magnitude nearest to it.  Between two that are equally near, the one
that is an even multiple of the step is taken.  What is too large for a magnitude is read as infinite.

A magnitude is shown by the shortest decimal number that is read as it.  Among the shortest, the
nearest is taken, and an even last digit between two that are equally near.  All computing is exact.
-/

namespace MailAddress.Toml

/-! ## Magnitudes -/

/-- The quotient of two numbers, rounded to the nearest number, and to the even one of two. -/
def roundedQuotient (n d : Nat) : Nat :=
  let quotient := n / d
  if 2 * (n % d) < d ∨ 2 * (n % d) = d ∧ quotient % 2 = 0 then quotient else quotient + 1

/-- A multiple is divided without rounding. -/
theorem roundedQuotient_mul_self {d : Nat} (n : Nat) (pos : 0 < d) :
    roundedQuotient (n * d) d = n := by
  simp [roundedQuotient, Nat.mul_div_cancel n pos, pos]

/-- The rounded quotient is off by a half at most. -/
theorem roundedQuotient_near (n : Nat) {d : Nat} (pos : 0 < d) :
    2 * n ≤ 2 * (d * roundedQuotient n d) + d ∧ 2 * (d * roundedQuotient n d) ≤ 2 * n + d := by
  have division := Nat.div_add_mod n d
  have remainder := Nat.mod_lt n pos
  simp only [roundedQuotient]
  split
  · omega
  · rw [Nat.mul_add]
    omega

theorem roundedQuotient_le_succ_div (n d : Nat) : roundedQuotient n d ≤ n / d + 1 := by
  simp only [roundedQuotient]
  split <;> omega

namespace Magnitude

/-- The units from a magnitude to the next larger one. -/
def step (units : Nat) : Nat := Nat.pow 2 (units.log2 - 52)

/-- A unit is two to the minus this.  Proofs never need the number itself, and powers of it are too
large to be computed in them. -/
@[irreducible]
def unitExponent : Nat := 1074

/-- The units that are too many for a magnitude. -/
def bound : Nat := Nat.pow 2 (1024 + unitExponent)

theorem pow_two_pos (n : Nat) : 0 < Nat.pow 2 n := Nat.two_pow_pos n

theorem bound_pos : 0 < bound := pow_two_pos (1024 + unitExponent)

theorem step_pos (units : Nat) : 0 < step units := pow_two_pos _

/-- The units of the magnitude nearest to a fraction of units, if there were no bound. -/
def nearestUnits (n d : Nat) : Nat :=
  roundedQuotient n (d * step (n / d)) * step (n / d)

theorem two_pow_add (m n : Nat) : Nat.pow 2 (m + n) = Nat.pow 2 m * Nat.pow 2 n :=
  Nat.pow_add 2 m n

/-- What has at most 53 bits in front of some zeros is a multiple of its step. -/
theorem step_dvd_mul_two_pow {significand : Nat} (k : Nat) (small : significand ≤ Nat.pow 2 53) :
    step (significand * Nat.pow 2 k) ∣ significand * Nat.pow 2 k := by
  rcases Nat.lt_or_eq_of_le small with less | rfl
  · have below : significand * Nat.pow 2 k < Nat.pow 2 (53 + k) := by
      rw [two_pow_add]
      exact Nat.mul_lt_mul_of_pos_right less (pow_two_pos k)
    have shift : (significand * Nat.pow 2 k).log2 - 52 ≤ k := by
      rcases Nat.eq_zero_or_pos (significand * Nat.pow 2 k) with zero | pos
      · rw [zero]
        exact Nat.zero_le k
      · have := (Nat.log2_lt (Nat.ne_of_gt pos)).2 below
        omega
    exact Nat.dvd_trans (Nat.pow_dvd_pow 2 shift) (Nat.dvd_mul_left _ _)
  · have shift : (Nat.pow 2 (53 + k)).log2 - 52 ≤ 53 + k := by
      rw [Nat.pow_eq, Nat.log2_two_pow]
      omega
    rw [← two_pow_add]
    exact Nat.pow_dvd_pow 2 shift

/-- The units nearest to a fraction are a multiple of their step. -/
theorem step_dvd_nearestUnits (n d : Nat) : step (nearestUnits n d) ∣ nearestUnits n d := by
  refine step_dvd_mul_two_pow _ (Nat.le_trans (roundedQuotient_le_succ_div _ _) ?_)
  have below : n / d < Nat.pow 2 53 * step (n / d) := by
    rw [step, ← two_pow_add]
    exact Nat.lt_of_lt_of_le Nat.lt_log2_self (Nat.pow_le_pow_right (by decide) (by omega))
  rw [← Nat.div_div_eq_div_mul]
  exact Nat.div_lt_of_lt_mul (Nat.mul_comm _ _ ▸ below)

/-- Units that are a multiple of their step are nearest to themselves. -/
theorem nearestUnits_mul_self {units d : Nat} (precise : step units ∣ units) (pos : 0 < d) :
    nearestUnits (units * d) d = units := by
  obtain ⟨significand, units_eq⟩ := precise
  have same : units * d / d = units := Nat.mul_div_cancel units pos
  have product : units * d = significand * (d * step units) := by
    rw [Nat.mul_left_comm, Nat.mul_comm significand, ← units_eq, Nat.mul_comm]
  have quotient : roundedQuotient (units * d) (d * step units) = significand := by
    rw [product, roundedQuotient_mul_self _ (Nat.mul_pos pos (step_pos units))]
  rw [nearestUnits, same, quotient, Nat.mul_comm, ← units_eq]

end Magnitude

/-- The magnitude of a finite number. -/
structure Magnitude where
  /-- The multiple of 2⁻¹⁰⁷⁴. -/
  units : Nat
  /-- There are at most 53 significant bits. -/
  precise : Magnitude.step units ∣ units
  /-- The exponent is in range. -/
  bounded : units < Magnitude.bound
deriving Repr

/-- A floating-point number. -/
inductive Binary64 where
  /-- No number. -/
  | nan
  /-- Infinity of either sign. -/
  | infinite (negative : Bool)
  /-- A finite number, where zero has a sign too. -/
  | finite (negative : Bool) (magnitude : Magnitude)
deriving Repr

/-! ## Decimal numbers -/

/-- A natural number times a power of ten. -/
structure Decimal where
  /-- The natural number. -/
  significand : Nat
  /-- The exponent of ten. -/
  exponent : Int

namespace Decimal

/-- The units of the magnitude nearest to a decimal number, if there were no bound. -/
def nearestUnits (decimal : Decimal) : Nat :=
  Magnitude.nearestUnits
    (decimal.significand * Nat.pow 2 Magnitude.unitExponent * Nat.pow 10 decimal.exponent.toNat)
    (Nat.pow 10 (-decimal.exponent).toNat)

/-- The number that a decimal number is read as.  The powers of ten are only computed if the result
may be neither zero nor infinite. -/
def read (negative : Bool) (decimal : Decimal) : Binary64 :=
  if decimal.significand = 0 ∨ decimal.significand.log2 + 3 * decimal.exponent < -1080 then
    .finite negative ⟨0, Nat.dvd_zero _, Magnitude.bound_pos⟩
  else if 310 < decimal.exponent then .infinite negative
  else if bounded : decimal.nearestUnits < Magnitude.bound then
    .finite negative ⟨decimal.nearestUnits, Magnitude.step_dvd_nearestUnits _ _, bounded⟩
  else .infinite negative

end Decimal

namespace Magnitude

/-- The decimal numbers with a given exponent that lie around a magnitude, the nearest first. -/
def neighbours (magnitude : Magnitude) (exponent : Int) : List Decimal :=
  let n := magnitude.units * Nat.pow 10 (-exponent).toNat
  let d := Nat.pow 2 unitExponent * Nat.pow 10 exponent.toNat
  [⟨roundedQuotient n d, exponent⟩, ⟨n / d, exponent⟩, ⟨n / d + 1, exponent⟩]

/-- An exponent of ten at least as large as that of any decimal number that is read as a magnitude. -/
def largestExponent (magnitude : Magnitude) : Int :=
  let binary : Int := magnitude.units.log2 + 1 - unitExponent
  max (binary / 3) (binary / 4) + 1

/-- The exponents of the decimal numbers that may show a magnitude, down to the one at which every
magnitude is a decimal number itself. -/
def exponents (magnitude : Magnitude) : List Int :=
  (List.range (magnitude.largestExponent + unitExponent + 1).toNat).map fun (i : Nat) =>
    magnitude.largestExponent - i

/-- The shortest decimal number that is read as a magnitude. -/
def shortest? (magnitude : Magnitude) : Option Decimal :=
  magnitude.exponents.findSome? fun exponent =>
    (magnitude.neighbours exponent).find? fun decimal => decimal.nearestUnits = magnitude.units

/-- What is found is read as the magnitude. -/
theorem nearestUnits_of_shortest? {magnitude : Magnitude} {decimal : Decimal}
    (found : magnitude.shortest? = some decimal) : decimal.nearestUnits = magnitude.units := by
  obtain ⟨exponent, -, among⟩ := List.exists_of_findSome?_eq_some found
  simpa using List.find?_some among

/-- At the last exponent, every magnitude is one of its neighbours. -/
theorem exact_mem_neighbours (magnitude : Magnitude) :
    ⟨magnitude.units * Nat.pow 5 unitExponent, -unitExponent⟩ ∈
      magnitude.neighbours (-unitExponent) := by
  have multiple : magnitude.units * 10 ^ unitExponent =
      magnitude.units * 5 ^ unitExponent * 2 ^ unitExponent := by
    rw [Nat.mul_assoc, ← Nat.mul_pow]
  have quotient := roundedQuotient_mul_self (magnitude.units * 5 ^ unitExponent)
    (Nat.two_pow_pos unitExponent)
  simp [neighbours, multiple, quotient]

/-- At the last exponent, every magnitude is read back. -/
theorem nearestUnits_exact (magnitude : Magnitude) :
    Decimal.nearestUnits ⟨magnitude.units * Nat.pow 5 unitExponent, -unitExponent⟩ =
      magnitude.units := by
  have multiple : magnitude.units * 5 ^ unitExponent * 2 ^ unitExponent =
      magnitude.units * 10 ^ unitExponent := by
    rw [Nat.mul_assoc, ← Nat.mul_pow]
  simp [Decimal.nearestUnits, multiple,
    nearestUnits_mul_self magnitude.precise (Nat.pow_pos (n := unitExponent) (by decide : 0 < 10))]

theorem last_mem_exponents (magnitude : Magnitude) :
    -(unitExponent : Int) ∈ magnitude.exponents := by
  have before : -(unitExponent : Int) ≤ magnitude.largestExponent := by
    rw [largestExponent]
    omega
  refine List.mem_map.2 ⟨(magnitude.largestExponent + unitExponent).toNat, List.mem_range.2 ?_, ?_⟩
  · omega
  · omega

/-- Every magnitude can be shown. -/
theorem isSome_shortest? (magnitude : Magnitude) : magnitude.shortest?.isSome = true := by
  rw [shortest?, List.findSome?_isSome_iff]
  refine ⟨_, magnitude.last_mem_exponents, List.find?_isSome.2 ⟨_, magnitude.exact_mem_neighbours, ?_⟩⟩
  exact decide_eq_true magnitude.nearestUnits_exact

/-- The shortest decimal number that is read as a magnitude. -/
def shortest (magnitude : Magnitude) : Decimal :=
  magnitude.shortest?.get magnitude.isSome_shortest?

/-- What a magnitude is shown by is read as that magnitude. -/
theorem nearestUnits_shortest (magnitude : Magnitude) :
    magnitude.shortest.nearestUnits = magnitude.units :=
  nearestUnits_of_shortest? (Option.some_get _).symm

end Magnitude

/-! ## Texts -/

namespace Decimal

/-- The digits of a decimal number's significand. -/
def digits (decimal : Decimal) : Text := (toString decimal.significand).toList

/-- Digits with a point among them, so many digits from the start.  Zeros fill up what is missing. -/
def positional (digits : Text) (point : Int) : Text :=
  let zeros (n : Int) : Text := List.replicate n.toNat '0'
  if point ≤ 0 then '0' :: '.' :: zeros (-point) ++ digits
  else if point < digits.length then digits.take point.toNat ++ '.' :: digits.drop point.toNat
  else digits ++ zeros (point - digits.length) ++ ['.', '0']

/-- Digits with a point behind the first, and the exponent in two digits or more. -/
def scientific (digits : Text) (exponent : Int) : Text :=
  let power := (toString exponent.natAbs).toList
  let fraction := digits.drop 1
  digits.take 1 ++ (if fraction.isEmpty then [] else '.' :: fraction) ++
    'e' :: (if exponent < 0 then '-' else '+') ::
      if power.length < 2 then '0' :: power else power

/-- A decimal number as a text.  Numbers that are very large or very small have an exponent. -/
def text (decimal : Decimal) : Text :=
  let point := decimal.digits.length + decimal.exponent
  if -4 < point ∧ point ≤ 16 then positional decimal.digits point
  else scientific decimal.digits (point - 1)

end Decimal

namespace Binary64

/-- A floating-point number as a text. -/
def text : Binary64 → Text
  | .nan => "nan".toList
  | .infinite negative => (if negative then ['-'] else []) ++ "inf".toList
  | .finite negative magnitude =>
      (if negative then ['-'] else []) ++
        if magnitude.units = 0 then "0.0".toList else magnitude.shortest.text

/-- Whether a number is zero. -/
def isZero : Binary64 → Bool
  | .finite _ magnitude => magnitude.units == 0
  | _ => false

end Binary64

example : (Decimal.read false ⟨15, -1⟩).text = "1.5".toList := by decide +kernel

example : (Decimal.read true ⟨90071992547409931, 0⟩).text = "-9.007199254740994e+16".toList := by
  decide +kernel

end MailAddress.Toml
