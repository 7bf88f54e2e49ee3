import LiveTypes.Toml.Reader

/-!
# Dates and times

A date, a time of day, or both with or without the distance from universal time. The parts are
checked against the calendar; a minute may have a sixty-first second.
-/

namespace LiveTypes.Toml

open Reader

namespace DateTime

/-- Read a number with the given number of digits that lies between two bounds. -/
def number (width low high : Nat) : Reader Nat := do
  let n := (← exactly Char.isDigit width).foldl (fun n c => 10 * n + (c.toNat - '0'.toNat)) 0
  if low ≤ n ∧ n ≤ high then return n else failure

/-- Whether a year has a twenty-ninth of February. -/
def isLeap (year : Nat) : Bool := year % 4 = 0 && (year % 100 ≠ 0 || year % 400 = 0)

def daysIn (year month : Nat) : Nat :=
  if month = 2 then (if isLeap year then 29 else 28)
  else if month ∈ [4, 6, 9, 11] then 30
  else 31

def date : Reader Unit := do
  let year ← number 4 0 9999
  char '-'
  let month ← number 2 1 12
  char '-'
  discard <| number 2 1 (daysIn year month)

def hourMinute : Reader Unit := do
  discard <| number 2 0 23
  char ':'
  discard <| number 2 0 59

def time : Reader Unit := do
  hourMinute
  char ':'
  discard <| number 2 0 60
  discard <| opt (char '.' *> run1 Char.isDigit)

/-- Read the distance from universal time. -/
def distance : Reader Unit :=
  discard (one fun c => c = 'Z' || c = 'z') <|>
    (do discard <| one (fun c => c = '+' || c = '-'); hourMinute)

def timeOfDate : Reader Unit := do
  discard <| one fun c => c = 'T' || c = 't' || c = ' '
  time
  discard <| opt distance

/-- Read a date, a time or both. -/
def read : Reader Unit := (do date; discard <| opt timeOfDate) <|> time

end DateTime

end LiveTypes.Toml
