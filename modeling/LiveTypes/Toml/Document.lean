import LiveTypes.Toml.DateTime
import LiveTypes.Toml.Number
import LiveTypes.Toml.Table

/-!
# Documents

A document is read line by line: blank lines, comments, headers in brackets, and keys with their
values. Values nest in arrays and in tables in braces, up to a fixed depth.
-/

namespace LiveTypes.Toml

open Reader

/-- Greatest depth of arrays and tables in braces, and greatest number of parts of a key. -/
def maxNesting : Nat := 79

/-! ### Keys -/

/-- Whether a character may stand in a key without quotes. -/
def isBare (c : Char) : Bool := c.isAlphanum || c = '-' || c = '_'

def keyPart : Reader String := lineText <|> String.ofList <$> run1 isBare

/-- Read a key: the parts before the last, and the last. -/
def key : Reader (List String × String) := do
  let parts ← separated1 (spaces *> keyPart <* spaces) (char '.')
  match parts.getLast? with
  | some last => if parts.length ≤ maxNesting then return (parts.dropLast, last) else failure
  | none => failure

/-! ### Values -/

def boolean : Reader Bool :=
  (do literal ['t', 'r', 'u', 'e']; return true) <|>
    (do literal ['f', 'a', 'l', 's', 'e']; return false)

def scalar : Reader Value :=
  .text <$> text <|> (fun l => .dateTime (String.ofList l)) <$> taken DateTime.read <|>
    .float <$> Number.float <|> .float <$> Number.special <|> .integer <$> Number.integer <|>
    .boolean <$> boolean

/-- Read an array, given how its items are read; a comma may follow the last one. -/
def array (item : Reader Value) : Reader Value := do
  char '['
  let l ← separated (gap *> item <* gap) (char ',')
  unless l.isEmpty do discard <| opt (char ',')
  gap
  char ']'
  return .array l

def pair (item : Reader Value) : Reader (List String × String × Value) := do
  let (path, k) ← key
  char '='
  spaces
  return (path, k, ← item)

/-- Read a table in braces, given how its values are read. -/
def inlineTable (item : Reader Value) : Reader Value := do
  char '\x7b'
  let l ← separated (pair item <* spaces) (char ',')
  spaces
  char '\x7d'
  return .table .inline (← StateT.lift (Entries.ofPairs l))

/-- Read a value with parts down to a depth. -/
def value : Nat → Reader Value
  | 0 => scalar
  | depth + 1 => scalar <|> array (value depth) <|> inlineTable (value depth)

/-! ### Lines -/

def header (opening closing : List Char) : Reader (List String × String) := do
  literal opening
  let k ← key
  literal closing
  lineRest
  return k

/-- Read a line that defines something. -/
def definition (d : Draft) : Reader Draft :=
  (do
    let (path, k) ← header ['[', '['] [']', ']']
    StateT.lift (d.beginNext path k)) <|>
  (do
    let (path, k) ← header ['['] [']']
    StateT.lift (d.beginTable path k)) <|>
  (do
    let (path, k, v) ← pair (value maxNesting)
    lineRest
    StateT.lift (d.add path k v))

/-- Read a line and the blanks after it. -/
def line (d : Draft) : Reader Draft :=
  (newline *> pure d <|> comment *> lineEnd *> pure d <|> definition d) <* spaces

/-- Read the lines of a document, which may start with a byte order mark. -/
def lines : Reader Entries := do
  discard <| opt (char '\uFEFF')
  spaces
  let d ← fun s => some (iterate line .empty s)
  atEnd
  return d.root

def parse (s : String) : Option Entries := (lines (.ofString s)).map Prod.fst

end LiveTypes.Toml
