/-!
# Readers of text

A reader takes something from the front of a text and leaves the rest, or refuses. Of two
alternatives the second is tried at the same place when the first refuses. Repetition stops at the
first round that refuses or takes nothing, so it always ends.
-/

namespace LiveTypes.Toml

/-- A text that is being read: what is left of it, and the number of characters left. -/
structure Input where
  rest : List Char
  left : Nat
  left_eq : left = rest.length

namespace Input

def ofString (s : String) : Input := ⟨s.toList, s.toList.length, rfl⟩

def drop (s : Input) (n : Nat) : Input := ⟨s.rest.drop n, s.left - n, by simp [s.left_eq]⟩

end Input

/-- A reader of values of type `α` from the front of a text. -/
abbrev Reader (α : Type) := StateT Input Option α

namespace Reader

variable {α σ : Type}

/-- Read a character of a class. -/
def one (p : Char → Bool) : Reader Char := fun s =>
  match s.rest with
  | c :: _ => if p c then some (c, s.drop 1) else none
  | [] => none

def char (c : Char) : Reader Unit := discard <| one (· = c)

def literal (l : List Char) : Reader Unit := fun s =>
  if l.isPrefixOf s.rest then some ((), s.drop l.length) else none

/-- Read the longest run of characters of a class. -/
def run (p : Char → Bool) : Reader (List Char) := fun s =>
  let l := s.rest.takeWhile p
  some (l, s.drop l.length)

/-- Read the longest run of characters of a class, of at least one. -/
def run1 (p : Char → Bool) : Reader (List Char) := do
  let c ← one p
  return c :: (← run p)

/-- Read the given number of characters of a class. -/
def exactly (p : Char → Bool) : Nat → Reader (List Char)
  | 0 => pure []
  | n + 1 => do
    let c ← one p
    return c :: (← exactly p n)

def atEnd : Reader Unit := fun s => if s.rest.isEmpty then some ((), s) else none

def peek (r : Reader α) : Reader α := fun s => (r s).map fun (a, _) => (a, s)

def opt (r : Reader α) : Reader (Option α) := some <$> r <|> pure none

/-- The text that a reader takes. -/
def taken (r : Reader α) : Reader (List Char) := fun s =>
  (r s).map fun (_, s') => (s.rest.take (s.left - s'.left), s')

/-- Go from state to state as long as steps take something. -/
def iterate (step : σ → Reader σ) (a : σ) (s : Input) : σ × Input :=
  match step a s with
  | none => (a, s)
  | some (b, s') => if s'.left < s.left then iterate step b s' else (a, s)
termination_by s.left

/-- Read as often as something is taken. -/
def many (r : Reader α) : Reader (List α) := fun s =>
  let (l, s') := iterate (fun l => (· :: l) <$> r) [] s
  some (l.reverse, s')

/-- Read items with a separator between them. -/
def separated1 (item : Reader α) (separator : Reader Unit) : Reader (List α) := do
  let a ← item
  return a :: (← many (separator *> item))

/-- Read any number of items with a separator between them. -/
def separated (item : Reader α) (separator : Reader Unit) : Reader (List α) :=
  separated1 item separator <|> pure []

end Reader

open Reader

/-! ### Blanks and comments -/

/-- Whether a character may stand between the parts of a line. -/
def isSpace (c : Char) : Bool := c = ' ' || c = '\t'

/-- Whether a character may stand in a line: a tab or anything that is no control of ASCII. -/
def isPlain (c : Char) : Bool := c = '\t' || 0x20 ≤ c.toNat && c.toNat ≠ 0x7F

def spaces : Reader Unit := discard <| run isSpace

def newline : Reader Unit := char '\n' <|> literal ['\r', '\n']

/-- Read a comment, without the end of its line. -/
def comment : Reader Unit := do
  char '#'
  discard <| run isPlain

/-- Read the end of a line or of the text. -/
def lineEnd : Reader Unit := newline <|> atEnd

/-- Read what may follow the last part of a line. -/
def lineRest : Reader Unit := do
  spaces
  discard <| opt comment
  lineEnd

/-- Read what may stand between the parts of an array, which may take several lines. -/
def gap : Reader Unit := discard <| many (discard (run1 isSpace) <|> newline <|> comment)

end LiveTypes.Toml
