namespace UnaryRpc.Json

def digitsValue (digits : List Nat) : Nat :=
  digits.foldl (fun n d => 10 * n + d) 0

def digitsOf (n : Nat) : List Nat :=
  (Nat.toDigits 10 n).map (fun c => c.toNat - 48)

/-- A numeral: sign, digits before and after the point, and the exponent. A part that is not
spelled has no digits. -/
structure Numeral where
  negative : Bool := false
  whole : List Nat := []
  fraction : List Nat := []
  exponentNegative : Bool := false
  exponent : List Nat := []
deriving DecidableEq, Inhabited

namespace Numeral

def ofInt (i : Int) : Numeral :=
  { negative := i < 0, whole := digitsOf i.natAbs }

/-- The integer that is spelled as one: without point, exponent or negative zero. -/
def int? (n : Numeral) : Option Int :=
  if n.fraction ≠ [] ∨ n.exponent ≠ [] then none
  else if n.negative then
    if digitsValue n.whole = 0 then none else some (-(digitsValue n.whole : Int))
  else some (digitsValue n.whole)

/-- The largest significand that is kept exactly. -/
def maxSignificand : Nat := 0xffffffffffffffff

/-- The significand of the digits before the point, and the number of digits left out. -/
def significandOfWhole (digits : List Nat) : Nat × Nat :=
  digits.foldl (fun (s, k) d =>
    if 0 < k ∨ maxSignificand < 10 * s + d then (s, k + 1) else (10 * s + d, 0)) (0, 0)

/-- The significand after the digits behind the point, and the number of digits taken. -/
def significandOfFraction (s taken : Nat) : List Nat → Nat × Nat
  | [] => (s, taken)
  | d :: ds =>
    if maxSignificand < 10 * s + d then (s, taken)
    else significandOfFraction (10 * s + d) (taken + 1) ds

/-- The significand and the power of ten that a numeral is read as. -/
def scaled (n : Numeral) : Nat × Int :=
  let (s, skipped) := significandOfWhole n.whole
  let (s, taken) := significandOfFraction s 0 n.fraction
  let e : Int := digitsValue n.exponent
  (s, (skipped : Int) - taken + (if n.exponentNegative then -e else e))

/-- The nearest number with at most 53 significant bits, a half going to the even neighbour. -/
def roundBits (n : Nat) : Nat :=
  let shift := Nat.log2 n + 1 - 53
  let unit := Nat.pow 2 shift
  let q := n / unit
  let r := n % unit
  if 2 * r < unit ∨ (2 * r = unit ∧ q % 2 = 0) then q * unit else (q + 1) * unit

/-- The largest power of ten that a double holds. -/
def maxPower : Int := 308

/-- The least number that is too large for a double. -/
def overflowBound : Nat := Nat.pow 2 1024 - Nat.pow 2 970

/-- Whether a number fits a double. That is told by comparing natural numbers, without rounding. -/
def isFinite (n : Numeral) : Bool :=
  let (s, e) := n.scaled
  s = 0 || e < 0 ||
    (e ≤ maxPower && roundBits s * roundBits (Nat.pow 10 e.toNat) < overflowBound)

def digit (d : Nat) : UInt8 := 0x30 + d.toUInt8

def render (n : Numeral) : List UInt8 :=
  (if n.negative then [0x2d] else []) ++ n.whole.map digit ++
  (if n.fraction = [] then [] else 0x2e :: n.fraction.map digit) ++
  (if n.exponent = [] then []
    else 0x65 :: ((if n.exponentNegative then [0x2d] else []) ++ n.exponent.map digit))

end Numeral

end UnaryRpc.Json
