import LiveTypes.Toml.Reader

/-!
# Quoted text

Text stands between quotation marks, in which a backslash escapes, or between apostrophes, in which
nothing does. Three marks instead of one enclose text of several lines: a line break right after
them does not count, every other line break is a line feed, and one or two marks may stand anywhere,
also before the closing three.
-/

namespace LiveTypes.Toml

open Reader

def isHexDigit (c : Char) : Bool :=
  c.isDigit || ('a' ≤ c && c ≤ 'f') || ('A' ≤ c && c ≤ 'F')

def digitValue (c : Char) : Nat :=
  if c.isDigit then c.toNat - '0'.toNat
  else if 'a' ≤ c then c.toNat - 'a'.toNat + 10
  else c.toNat - 'A'.toNat + 10

def numberOfDigits (base : Nat) (digits : List Char) : Nat :=
  digits.foldl (fun n c => base * n + digitValue c) 0

namespace Quoted

/-- Read the code point that the given number of hexadecimal digits write. -/
def codePoint (width : Nat) : Reader Char := do
  let n := numberOfDigits 16 (← exactly isHexDigit width)
  if n.isValidChar then return Char.ofNat n else failure

def escape : Reader Char := do
  char '\\'
  match ← one fun _ => true with
  | 'b' => return '\x08'
  | 't' => return '\t'
  | 'n' => return '\n'
  | 'f' => return '\x0C'
  | 'r' => return '\r'
  | '"' => return '"'
  | '\\' => return '\\'
  | 'u' => codePoint 4
  | 'U' => codePoint 8
  | _ => failure

/-- Whether a character stands for itself between quotation marks. -/
def isBasic (c : Char) : Bool := isPlain c && c ≠ '"' && c ≠ '\\'

/-- Whether a character stands for itself between apostrophes. -/
def isLiteral (c : Char) : Bool := isPlain c && c ≠ '\''

/-- Read text between quotation marks. -/
def basic : Reader (List Char) := do
  char '"'
  let l ← many (one isBasic <|> escape)
  char '"'
  return l

/-- Read text between apostrophes. -/
def literalText : Reader (List Char) := do
  char '\''
  let l ← run isLiteral
  char '\''
  return l

/-- Read an escaped line break and all blanks after it; it stands for nothing. -/
def continuation : Reader (List Char) := do
  char '\\'
  spaces
  newline
  discard <| many (newline <|> discard (run1 isSpace))
  return []

def lineBreak : Reader (List Char) := do
  newline
  return ['\n']

/-- Read one or two marks before something else. -/
def marks (mark : Char) (before : Reader Unit) : Reader (List Char) :=
  let some (n : Nat) : Reader (List Char) := do
    let l := List.replicate n mark
    literal l
    peek before
    return l
  some 2 <|> some 1

/-- Read text of several lines, given its mark and how its parts are read. -/
def lines (mark : Char) (part : Reader (List Char)) : Reader (List Char) := do
  let three : Reader Unit := literal (List.replicate 3 mark)
  three
  discard <| opt newline
  let parts ← many (part <|> marks mark (discard part))
  let last ← marks mark three <|> pure []
  three
  return parts.flatten ++ last

/-- Read text of several lines between quotation marks. -/
def basicLines : Reader (List Char) :=
  lines '"' <| List.singleton <$> one isBasic <|> continuation <|> List.singleton <$> escape <|>
    lineBreak

/-- Read text of several lines between apostrophes. -/
def literalLines : Reader (List Char) :=
  lines '\'' <| List.singleton <$> one isLiteral <|> lineBreak

end Quoted

def lineText : Reader String := String.ofList <$> (Quoted.basic <|> Quoted.literalText)

def text : Reader String :=
  String.ofList <$> (Quoted.basicLines <|> Quoted.literalLines) <|> lineText

end LiveTypes.Toml
