import LiveTypes.Text.Invisible

/-!
# Quoted text

Text is quoted for messages between marks, with the marks, backslashes and characters without a
visible form escaped. Everything else is written as it is.
-/

namespace LiveTypes.Text

/-- A number in lower-case hexadecimal, without leading zeros. -/
def hexNumber (n : Nat) : String := String.ofList (Nat.toDigits 16 n)

/-- The written form of one character inside the given quotation mark. -/
def escapeChar (mark : Char) (c : Char) : String :=
  if c = mark ∨ c = '\\' then "\\" ++ c.toString
  else if c = '\n' then "\\n"
  else if c = '\r' then "\\r"
  else if c = '\t' then "\\t"
  else if c.toNat = 0 then "\\0"
  else if isInvisible c then "\\u\x7b" ++ hexNumber c.toNat ++ "\x7d"
  else c.toString

/-- Text between double quotation marks. -/
def quoted (s : String) : String :=
  "\"" ++ String.join (s.toList.map (escapeChar '"')) ++ "\""

/-- One character between single quotation marks. -/
def quotedChar (c : Char) : String := "'" ++ escapeChar '\'' c ++ "'"

/-- An optional text: `Some("..")` or `None`. -/
def quotedOption : Option String → String
  | none => "None"
  | some s => "Some(" ++ quoted s ++ ")"

end LiveTypes.Text
