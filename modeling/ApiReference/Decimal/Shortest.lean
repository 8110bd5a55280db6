import ApiReference.Decimal.Binary64
import ApiReference.Text.Basic

/-! # Shortest decimals

The decimal text of a floating-point number: the fewest significant digits that still round to the
number, and of those the nearest to it.  The reals that round to `m * 2 ^ q` form an interval, which
holds its ends when `m` is even; for one digit, two digits and so on the two neighbours of the
number on that decimal grid are tried. -/

namespace ApiReference.Binary64

/-! ### Digits -/

/-- Compares `a * 2 ^ p * 10 ^ s` with `b * 2 ^ q * 10 ^ t`. -/
def compareScaled (a : Nat) (p s : Int) (b : Nat) (q t : Int) : Ordering :=
  let low2 := min p q
  let low10 := min s t
  compare (a <<< (p - low2).toNat * Nat.pow 10 (s - low10).toNat)
    (b <<< (q - low2).toNat * Nat.pow 10 (t - low10).toNat)

/-- The interval of the reals that round to `m * 2 ^ q`, in quarters of the last place. -/
def quarterInterval (m : Nat) (q : Int) : Nat × Nat :=
  (4 * m - (if m == 1 <<< 52 && -1074 < q then 1 else 2), 4 * m + 2)

/-- The decimal `digits * 10 ^ power` rounds to `m * 2 ^ q`. -/
def readsBack (m : Nat) (q : Int) (digits : Nat) (power : Int) : Bool :=
  let (low, high) := quarterInterval m q
  let above := compareScaled digits 0 power low (q - 2) 0
  let below := compareScaled digits 0 power high (q - 2) 0
  if m % 2 == 0 then above != .lt && below != .gt else above == .gt && below == .lt

/-- The largest multiple of `10 ^ power` that is not above `m * 2 ^ q`. -/
def gridFloor (m : Nat) (q power : Int) : Nat :=
  let num := m <<< q.toNat * Nat.pow 10 (-power).toNat
  let den := 1 <<< (-q).toNat * Nat.pow 10 power.toNat
  num / den

/-- The decimal on the grid of `10 ^ power` that reads back as `m * 2 ^ q`, the nearer one if two
do, and the even one if both are equally near. -/
def onGrid? (m : Nat) (q power : Int) : Option Nat :=
  let below := gridFloor m q power
  let above := below + 1
  match readsBack m q below power, readsBack m q above power with
  | false, false => none
  | true, false => some below
  | false, true => some above
  | true, true =>
    -- the middle of the two neighbours lies at `(below + above) / 2`
    match compareScaled (below + above) 0 power (2 * m) q 0 with
    | .lt => some above
    | .gt => some below
    | .eq => some (if below % 2 == 0 then below else above)

/-- The number of decimal digits of a positive number before the point, which is negative or zero
for small ones. -/
def magnitude (m : Nat) (q : Int) : Int :=
  let whole := gridFloor m q 0
  if whole ≠ 0 then ((Nat.toDigits 10 whole).length : Int)
  else
    -- zeros that follow the point
    let zeros := ((List.range 340).find? fun (j : Nat) => gridFloor m q (-((j : Int) + 1)) ≠ 0).getD 340
    Int.negOfNat zeros

/-- Tries one, two and more digits up to seventeen. -/
def shortestFrom (m : Nat) (q size : Int) : List Nat → Nat × Int
  | [] => (gridFloor m q (size - 17), size - 17)
  | count :: more =>
    match onGrid? m q (size - count) with
    | some digits => (digits, size - count)
    | none => shortestFrom m q size more

/-- The shortest decimal `digits * 10 ^ power` that reads back as `m * 2 ^ q`. -/
def shortest (m : Nat) (q : Int) : Nat × Int :=
  shortestFrom m q (magnitude m q) ((List.range 17).map (· + 1))

/-! ### Text -/

/-- The digits without the zeros at their end. -/
def significantDigits (digits : Nat) : Text :=
  Text.dropEndWhile (· == '0') (Text.ofNat digits)

/-- An exponent with its sign and at least two digits. -/
def exponentText (e : Int) : Text :=
  let digits := Text.ofNat e.natAbs
  (if e < 0 then ['-'] else ['+']) ++ (if digits.length < 2 then ['0'] else []) ++ digits

/-- Writes the digits `0.digits * 10 ^ point`: with a point if it stands at most three zeros before
the digits and at most sixteen places after their start, else with an exponent. -/
def place (digits : Text) (point : Int) : Text :=
  if -4 < point && point ≤ 16 then
    if point ≤ 0 then "0." ++ List.replicate (-point).toNat '0' ++ digits
    else
      let n := point.toNat
      if digits.length ≤ n then digits ++ List.replicate (n - digits.length) '0' ++ ".0"
      else digits.take n ++ '.' :: digits.drop n
  else
    let fraction := digits.drop 1
    digits.take 1 ++ (if fraction.isEmpty then [] else '.' :: fraction) ++ 'e' ::
      exponentText (point - 1)

/-- The shortest text that reads back as the number. -/
def toText : Binary64 → Text
  | .nan => "nan"
  | .infinite negative => if negative then "-inf" else "inf"
  | .finite negative m q =>
    (if negative then ['-'] else []) ++
      if m == 0 then ("0.0" : Text)
      else
        let (digits, power) := shortest m q
        place (significantDigits digits) ((Text.ofNat digits).length + power)

end ApiReference.Binary64
