/-! # Binary floating-point numbers

The numbers of the 64-bit binary format in exact form: a significand below `2 ^ 53` and an exponent
of two, from `-1074` to `971`.  A ratio of natural numbers rounds to the nearest of them, a tie to
the even significand, and what is too large becomes infinite. -/

namespace ApiReference

/-- A 64-bit binary floating-point number. -/
inductive Binary64
  /-- `± significand * 2 ^ exponent`. -/
  | finite (negative : Bool) (significand : Nat) (exponent : Int)
  | infinite (negative : Bool)
  | nan
deriving DecidableEq, Inhabited, Repr

namespace Binary64

/-- The quotient rounded to the nearest natural number, a tie to the even one. -/
def divideEven (num den : Nat) : Nat :=
  let q := num / den
  let twice := 2 * (num % den)
  if twice < den then q else if twice > den then q + 1 else q + q % 2

/-- The numerator and denominator of `num / den * 2 ^ (-shift)`. -/
def scaled (num den : Nat) (shift : Int) : Nat × Nat :=
  if 0 ≤ shift then (num, den <<< shift.toNat) else (num <<< (-shift).toNat, den)

/-- The exponent that gives a positive ratio a significand of 53 bits, or the least exponent. -/
def exponentOf (num den : Nat) : Int :=
  let guess : Int := (Nat.log2 num : Int) - Nat.log2 den - 52
  let (n, d) := scaled num den guess
  max (-1074) (if n < d <<< 52 then guess - 1 else guess)

/-- The number nearest to a ratio. -/
def ofRatio (negative : Bool) (num den : Nat) : Binary64 :=
  if num == 0 then .finite negative 0 (-1074)
  else
    let exponent := exponentOf num den
    let (n, d) := scaled num den exponent
    let m := divideEven n d
    let (m, exponent) := if m == 1 <<< 53 then (1 <<< 52, exponent + 1) else (m, exponent)
    if 971 < exponent then .infinite negative else .finite negative m exponent

/-- The number nearest to `± digits * 10 ^ power`. -/
def ofDecimal (negative : Bool) (digits : Nat) (power : Int) : Binary64 :=
  let magnitude : Int := (Nat.log2 digits : Int) * 3 / 10 + power
  if digits == 0 then .finite negative 0 (-1074)
  else if 400 < magnitude then .infinite negative
  else if magnitude < -800 - Nat.log2 digits then .finite negative 0 (-1074)
  else if 0 ≤ power then ofRatio negative (digits * Nat.pow 10 power.toNat) 1
  else ofRatio negative digits (Nat.pow 10 (-power).toNat)

/-- The number is zero. -/
def isZero : Binary64 → Bool
  | .finite _ m _ => m == 0
  | _ => false

/-- The number nearest to a whole number. -/
def ofInt (n : Int) : Binary64 := ofRatio (n < 0) n.natAbs 1

/-- The number nearest to `± m * 2 ^ exponent`. -/
def ofDyadic (m : Int) (exponent : Int) : Binary64 :=
  if 0 ≤ exponent then ofRatio (m < 0) (m.natAbs <<< exponent.toNat) 1
  else ofRatio (m < 0) m.natAbs (1 <<< (-exponent).toNat)

/-- The significand with its sign. -/
def signed (negative : Bool) (m : Nat) : Int := if negative then -(m : Int) else m

/-- The number with the other sign. -/
def neg : Binary64 → Binary64
  | .finite s m e => .finite (!s) m e
  | .infinite s => .infinite (!s)
  | .nan => .nan

/-- The rounded sum of two numbers. -/
def add : Binary64 → Binary64 → Binary64
  | .finite s m e, .finite s' m' e' =>
    let low := min e e'
    let sum := signed s (m <<< (e - low).toNat) + signed s' (m' <<< (e' - low).toNat)
    if sum == 0 then .finite (s && s') 0 (-1074) else ofDyadic sum low
  | .nan, _ => .nan
  | _, .nan => .nan
  | .infinite s, .infinite s' => if s == s' then .infinite s else .nan
  | .infinite s, _ => .infinite s
  | _, .infinite s => .infinite s

/-- The rounded product of two numbers. -/
def mul : Binary64 → Binary64 → Binary64
  | .finite s m e, .finite s' m' e' =>
    match ofDyadic (m * m' : Nat) (e + e') with
    | .finite _ p q => .finite (s != s') p q
    | _ => .infinite (s != s')
  | .nan, _ => .nan
  | _, .nan => .nan
  | .infinite s, .finite s' m _ => if m == 0 then .nan else .infinite (s != s')
  | .finite s m _, .infinite s' => if m == 0 then .nan else .infinite (s != s')
  | .infinite s, .infinite s' => .infinite (s != s')

end Binary64

end ApiReference
