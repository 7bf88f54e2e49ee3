import LiveTypes.Double.Basic
import LiveTypes.Toml.Quoted

/-!
# Numbers

Integers have 64 bits and are written in decimal, or without a sign in hexadecimal, octal or binary
after `0x`, `0o` or `0b`. A float has a fraction, an exponent or both, or is `inf` or `nan`. A digit
may be parted from the next by an underscore, and a decimal integer does not start with a zero that
another digit follows.
-/

namespace LiveTypes.Toml

open Reader

namespace Number

/-- Read digits of a class, with an underscore between any two. -/
def digits (p : Char → Bool) : Reader (List Char) := do
  let c ← one p
  return c :: (← many (one p <|> char '_' *> one p))

/-- Read a sign, and tell whether it is a minus. -/
def sign : Reader Bool := do return (← opt (one fun c => c = '+' || c = '-')) = some '-'

/-- Read a decimal integer: whether it is negative, and its digits. -/
def decimal : Reader (Bool × List Char) := do
  let negative ← sign
  let l ← (do char '0'; return ['0']) <|> digits Char.isDigit
  return (negative, l)

def ofMagnitude (negative : Bool) (n : Nat) : Option Int64 :=
  let i : Int := if negative then -n else n
  if -0x8000000000000000 ≤ i ∧ i < 0x8000000000000000 then some (Int64.ofInt i) else none

/-- Read an integer of a base after its mark. -/
def based (mark : Char) (base : Nat) (p : Char → Bool) : Reader Int64 := do
  literal ['0', mark]
  StateT.lift (ofMagnitude false (numberOfDigits base (← digits p)))

def integer : Reader Int64 :=
  based 'x' 16 isHexDigit <|> based 'o' 8 (fun c => '0' ≤ c && c ≤ '7') <|>
    based 'b' 2 (fun c => c = '0' || c = '1') <|> do
      let (negative, l) ← decimal
      StateT.lift (ofMagnitude negative (numberOfDigits 10 l))

def exponent : Reader Int := do
  discard <| one fun c => c = 'e' || c = 'E'
  let negative ← sign
  let n := numberOfDigits 10 (← digits Char.isDigit)
  return if negative then -n else n

def fraction : Reader (List Char) := char '.' *> digits Char.isDigit

/-- The double nearest to `n * 10 ^ e`. Far outside the range of doubles it is an infinity or
zero, whatever the digits are. -/
def nearest (n : Nat) (e : Int) : Double :=
  let size : Int := (Nat.toDigits 10 n).length
  if n = 0 ∨ size + e < -400 then .zero
  else if 400 < size + e then .infinity
  else .ofFloat (Float.ofScientific n (e < 0) e.natAbs)

/-- Read a float in digits. One that is too large is refused; one that is too small below zero is
negative infinity. -/
def float : Reader Double := do
  let (negative, whole) ← decimal
  let (places, e) ← Prod.mk [] <$> exponent <|> do
    let places ← fraction
    return (places, (← opt exponent).getD 0)
  let d := nearest (numberOfDigits 10 (whole ++ places)) (e - places.length)
  if negative then return d.negate
  else if d.isInfinite then failure
  else return d

/-- Read an infinity or what is no number. -/
def special : Reader Double := do
  let negative ← sign
  let d ← (do literal ['i', 'n', 'f']; return Double.infinity) <|>
    (do literal ['n', 'a', 'n']; return Double.nan)
  return if negative then d.negate else d

end Number

end LiveTypes.Toml
