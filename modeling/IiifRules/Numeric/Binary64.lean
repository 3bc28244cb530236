import IiifRules.Failure

/-! # Binary64 numbers, exactly

Every finite binary64 number is a whole multiple of the least positive one, `2^-1074`; it is held
here as a sign and that multiple, its `units`. Each operation is computed exactly on natural numbers
and then rounded once.

* `roundHalfEven`: the whole number nearest to a quotient, a half going to the even neighbour.
* `roundSignificant`: the same with at most 53 significant bits; `roundSignificant_eq` says that the
  result has no more.
* `Binary64.ofRatio`: the binary64 number nearest to a quotient, or an infinity. -/

namespace IiifRules.Numeric

/-- The whole number nearest to `num / den`, the even one of two that are as near. -/
def roundHalfEven (num den : Nat) : Nat :=
  let q := num / den
  let r := num % den
  if 2 * r < den then q
  else if den < 2 * r then q + 1
  else if q % 2 = 0 then q else q + 1

theorem roundHalfEven_le (num den : Nat) : roundHalfEven num den ≤ num / den + 1 := by
  unfold roundHalfEven
  dsimp only
  split
  · omega
  · split
    · omega
    · split <;> omega

theorem le_roundHalfEven (num den : Nat) : num / den ≤ roundHalfEven num den := by
  unfold roundHalfEven
  dsimp only
  split
  · omega
  · split
    · omega
    · split <;> omega

/-- The whole number nearest to `num / den` among those with at most 53 significant bits. -/
def roundSignificant (num den : Nat) : Nat :=
  let drop := (num / den).log2 - 52
  roundHalfEven num (den * Nat.pow 2 drop) * Nat.pow 2 drop

/-- A rounded quotient is a significand below `2^53` times a power of two. -/
theorem roundSignificant_eq (num den : Nat) :
    ∃ m e, m < Nat.pow 2 53 ∧ roundSignificant num den = m * Nat.pow 2 e := by
  simp only [roundSignificant, Nat.pow_eq]
  have hq : num / den < 2 ^ ((num / den).log2 + 1) := Nat.lt_log2_self
  generalize hd : (num / den).log2 - 52 = drop
  have hpow : 2 ^ ((num / den).log2 + 1) ≤ 2 ^ (53 + drop) :=
    Nat.pow_le_pow_right (by decide) (by omega)
  have hlt : num / (den * 2 ^ drop) < 2 ^ 53 := by
    rw [← Nat.div_div_eq_div_mul]
    refine Nat.div_lt_of_lt_mul ?_
    rw [← Nat.pow_add, Nat.add_comm]
    omega
  have hle : roundHalfEven num (den * 2 ^ drop) ≤ 2 ^ 53 :=
    Nat.le_trans (roundHalfEven_le _ _) hlt
  rcases Nat.lt_or_eq_of_le hle with h | h
  · exact ⟨_, drop, h, rfl⟩
  · refine ⟨1, 53 + drop, by decide, ?_⟩
    rw [h, Nat.pow_add, Nat.one_mul]

/-- The number of units in one. -/
@[irreducible] def unitsPerOne : Nat := Nat.pow 2 1074

/-- Finite numbers lie below this many units. -/
@[irreducible] def unitsBound : Nat := Nat.pow 2 2098

/-- The multiples of `2^-1074` that are magnitudes of finite binary64 numbers. -/
def Representable (units : Nat) : Prop :=
  units < unitsBound ∧ ∃ m e, m < Nat.pow 2 53 ∧ units = m * Nat.pow 2 e

/-- A binary64 number; `units` counts multiples of `2^-1074`. -/
inductive Binary64
  | finite (neg : Bool) (units : Nat) (fits : Representable units)
  | infinite (neg : Bool)
  | nan
deriving DecidableEq

namespace Binary64

/-- **The number nearest to** `num / den`, or the infinity beyond the greatest finite one. -/
def ofRatio (neg : Bool) (num den : Nat) : Binary64 :=
  let units := roundSignificant (num * unitsPerOne) den
  if h : units < unitsBound then .finite neg units ⟨h, roundSignificant_eq _ _⟩ else .infinite neg

/-- The number nearest to an integer, which may be an infinity. -/
def ofInt (n : Int) : Binary64 := ofRatio (decide (n < 0)) n.natAbs 1

/-- The number nearest to `digits * 10^exponent`. Exponents far outside the range are cut off first,
so that no power of ten is larger than the answer can depend on. -/
def ofDecimal (neg : Bool) (digits : Nat) (exponent : Int) : Binary64 :=
  if digits = 0 then ofRatio neg 0 1
  else if 0 ≤ exponent then
    if 400 < exponent then .infinite neg else ofRatio neg (digits * Nat.pow 10 exponent.toNat) 1
  else if exponent < -400 - digits.log2 then ofRatio neg 0 1
  else ofRatio neg digits (Nat.pow 10 (-exponent).toNat)

def zero : Binary64 := ofInt 0
def half : Binary64 := ofRatio false 1 2
def one : Binary64 := ofInt 1

def isNegative : Binary64 → Bool
  | .finite neg _ _ => neg
  | .infinite neg => neg
  | .nan => false

/-- A finite number in signed units; zero of either sign is 0. -/
def signed (neg : Bool) (units : Nat) : Int := if neg then -(units : Int) else units

/-- The nearest number to an integer count of units; `zeroSign` is the sign of a zero. -/
def ofSigned (zeroSign : Bool) (n : Int) : Binary64 :=
  ofRatio (if n = 0 then zeroSign else decide (n < 0)) n.natAbs unitsPerOne

/-- The sum, rounded. -/
def add : Binary64 → Binary64 → Binary64
  | .finite a x _, .finite b y _ => ofSigned (a && b) (signed a x + signed b y)
  | .infinite a, .infinite b => if a = b then .infinite a else .nan
  | .infinite a, .finite .. => .infinite a
  | .finite .., .infinite b => .infinite b
  | .nan, _ => .nan
  | _, .nan => .nan

/-- The product, rounded. -/
def mul : Binary64 → Binary64 → Binary64
  | .finite a x _, .finite b y _ => ofRatio (a != b) (x * y) (unitsPerOne * unitsPerOne)
  | .infinite a, .infinite b => .infinite (a != b)
  | .infinite a, .finite b y _ => if y = 0 then .nan else .infinite (a != b)
  | .finite a x _, .infinite b => if x = 0 then .nan else .infinite (a != b)
  | .nan, _ => .nan
  | _, .nan => .nan

/-- The quotient, rounded; dividing by a zero is a failure. -/
def div : Binary64 → Binary64 → Except Failure Binary64
  | _, .finite _ 0 _ => .error .floatDivisionByZero
  | .finite a x _, .finite b y _ => .ok (ofRatio (a != b) x y)
  | .infinite a, .finite b _ _ => .ok (.infinite (a != b))
  | .finite a _ _, .infinite b => .ok (ofRatio (a != b) 0 1)
  | .infinite _, .infinite _ => .ok .nan
  | .nan, _ => .ok .nan
  | _, .nan => .ok .nan

/-- The strict order; nothing is above or below a NaN. -/
def lt : Binary64 → Binary64 → Bool
  | .finite a x _, .finite b y _ => signed a x < signed b y
  | .infinite a, .infinite b => a && !b
  | .infinite a, .finite .. => a
  | .finite .., .infinite b => !b
  | .nan, _ => false
  | _, .nan => false

/-- The number itself, but a failure in place of an infinity. -/
def inRange (failure : Failure) : Binary64 → Except Failure Binary64
  | .infinite _ => .error failure
  | x => .ok x

def isNaN : Binary64 → Bool
  | .nan => true
  | _ => false

/-- The order; nothing compares with a NaN. -/
def le (x y : Binary64) : Bool := !x.isNaN && !y.isNaN && !lt y x

/-- The first of two numbers unless the second is less. -/
def min (x y : Binary64) : Binary64 := if lt y x then y else x

/-- The greatest integer that is not above the number. -/
def floor : Binary64 → Except Failure Int
  | .finite neg units _ => .ok (Int.fdiv (signed neg units) unitsPerOne)
  | .infinite _ => .error .floorOfInfinity
  | .nan => .error .floorOfNaN

/-- The least integer that is not below the number. -/
def ceil : Binary64 → Except Failure Int
  | .finite neg units _ => .ok (-Int.fdiv (-signed neg units) unitsPerOne)
  | .infinite _ => .error .floorOfInfinity
  | .nan => .error .floorOfNaN

/-- The integer that the number is, if it is one. -/
def toInt? : Binary64 → Option Int
  | .finite neg units _ =>
    if units % unitsPerOne = 0 then some (signed neg (units / unitsPerOne)) else none
  | _ => none

/-- Whether the number is a whole multiple of `n`. -/
def isMultipleOf (x : Binary64) (n : Nat) : Bool :=
  match x with
  | .finite _ units _ => units % (n * unitsPerOne) = 0
  | _ => false

/-- The 64 bits of the number: sign, biased exponent and fraction. -/
def toBits : Binary64 → Nat
  | .finite neg units _ =>
    let sign := if neg then Nat.pow 2 63 else 0
    if units < Nat.pow 2 52 then sign + units
    else
      let e := units.log2 - 52
      sign + (e + 1) * Nat.pow 2 52 + (units / Nat.pow 2 e - Nat.pow 2 52)
  | .infinite neg => (if neg then Nat.pow 2 63 else 0) + 2047 * Nat.pow 2 52
  | .nan => 2047 * Nat.pow 2 52 + Nat.pow 2 51

end Binary64

/-- The number nearest to an integer, which must be in range. -/
def floatOfInt (n : Int) : Except Failure Binary64 :=
  (Binary64.ofInt n).inRange .integerTooLargeForFloat

/-- The number nearest to the quotient of two integers. -/
def floatQuotient (a b : Int) : Except Failure Binary64 :=
  if b = 0 then .error .divisionByZero
  else
    (Binary64.ofRatio (decide (a < 0) != decide (b < 0)) a.natAbs b.natAbs).inRange
      .quotientTooLargeForFloat

/-- The greatest integer not above the rounded sum of the number and one half. -/
def roundHalfUp (x : Binary64) : Except Failure Int := (x.add .half).floor

/-- The least integer not below the rounded quotient of two integers. -/
def ceilQuotient (a b : Int) : Except Failure Int := do (← floatQuotient a b).ceil

end IiifRules.Numeric
