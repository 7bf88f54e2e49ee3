import LiveTypes.Double.Basic

/-!
# Decimal text of doubles

A finite double is written with the fewest significant digits that read back as the same double,
always positionally: no exponent, and no point when there are no places after it. Of several
shortest decimals the nearest is written, and of two equally near ones the larger.

The magnitude is `m * 2 ^ q` exactly. The reals that round to it form an interval around it, which
includes its ends when `m` is even. A multiple of `10 ^ k` lies in the interval just when one of the
two multiples next to the magnitude does, so it is enough to try these for falling `k`.
-/

namespace LiveTypes

namespace Double

/-- The magnitude of a finite double as `m * 2 ^ q`. -/
def magnitude (d : Double) : Nat × Int :=
  if d.exponentField = 0 then (d.fractionField, -1074)
  else (fractionSize + d.fractionField, (d.exponentField : Int) - 1075)

/-- A positive decimal `digits * 10 ^ exponent`. -/
structure Decimal where
  digits : Nat
  exponent : Int
deriving DecidableEq, Repr

/-- The reals that round to a double: a quotient and the distances of its lower and upper end, all
over one denominator. -/
structure Rounding where
  value : Nat
  below : Nat
  above : Nat
  denominator : Nat
  /-- Whether the ends belong to the interval -/
  closed : Bool

/-- The interval of reals that round to `m * 2 ^ q`. Below a power of two doubles lie twice as
close, except among the smallest ones. -/
def rounding (m : Nat) (q : Int) : Rounding :=
  let close := m = fractionSize ∧ -1074 < q
  { value := 4 * m * Nat.pow 2 q.toNat
    below := (if close then 1 else 2) * Nat.pow 2 q.toNat
    above := 2 * Nat.pow 2 q.toNat
    denominator := 4 * Nat.pow 2 (-q).toNat
    closed := m % 2 = 0 }

/-- Whether `digits * 10 ^ k` lies in the interval. -/
def Rounding.contains (r : Rounding) (k : Int) (digits : Nat) : Bool :=
  let point := digits * Nat.pow 10 k.toNat * r.denominator
  let scale := Nat.pow 10 (-k).toNat
  if r.closed then
    decide ((r.value - r.below) * scale ≤ point ∧ point ≤ (r.value + r.above) * scale)
  else
    decide ((r.value - r.below) * scale < point ∧ point < (r.value + r.above) * scale)

/-- The multiple of `10 ^ k` in the interval that is nearest to its middle. -/
def Rounding.nearest? (r : Rounding) (k : Int) : Option Nat :=
  let unit := Nat.pow 10 k.toNat * r.denominator
  let scaled := r.value * Nat.pow 10 (-k).toNat
  let low := scaled / unit
  let excess := scaled % unit
  match r.contains k low, r.contains k (low + 1) with
  | true, true => some (if 2 * excess < unit then low else low + 1)
  | true, false => some low
  | false, true => some (low + 1)
  | false, false => none

/-- Try falling powers of ten until one has a multiple in the interval. -/
def Rounding.shortest (r : Rounding) : Nat → Int → Decimal
  | 0, k => ⟨r.value, k⟩
  | n + 1, k =>
    match r.nearest? k with
    | some digits => ⟨digits, k⟩
    | none => r.shortest n (k - 1)

/-- The shortest decimal that reads back as `m * 2 ^ q`. -/
def shortestDecimal (m : Nat) (q : Int) : Decimal :=
  let start := ((Nat.log2 m : Int) + q + 1) * 30103 / 100000 + 1
  (rounding m q).shortest 800 start

/-- Positional text of a decimal. -/
def Decimal.text (d : Decimal) : String :=
  let digits := Nat.toDigits 10 d.digits
  if 0 ≤ d.exponent then String.ofList (digits ++ List.replicate d.exponent.toNat '0')
  else
    let places := (-d.exponent).toNat
    if places < digits.length then
      let whole := digits.length - places
      String.ofList (digits.take whole ++ '.' :: digits.drop whole)
    else
      String.ofList ('0' :: '.' :: List.replicate (places - digits.length) '0' ++ digits)

def text (d : Double) : String :=
  if d.isNaN then "NaN"
  else
    let sign := if d.isNegative then "-" else ""
    if d.isInfinite then sign ++ "inf"
    else if d.isZero then sign ++ "0"
    else
      let (m, q) := d.magnitude
      sign ++ (shortestDecimal m q).text

end Double

end LiveTypes
