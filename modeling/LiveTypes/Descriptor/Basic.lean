import LiveTypes.Text.Quoted

/-!
# Type descriptors

A type is written in a compact notation: `V`, `Z`, `I`, `J`, `D` and `S` stand for void, bool, i32,
i64, f64 and string, and `Lname;` for a reference to an instance of the named type.
-/

namespace LiveTypes

/-- Why a descriptor could not be read. -/
inductive DescriptorError where
  /-- The text ends early -/
  | truncated (text : String)
  /-- A character that starts no type -/
  | unknownTag (tag : Char) (text : String)
  /-- Characters after a complete descriptor -/
  | trailing (text : String)
  /-- Void where a value is needed -/
  | voidValue (text : String)
  /-- A signature key without a name or a parameter list -/
  | malformedKey (text : String)
deriving DecidableEq, Repr

def DescriptorError.code : DescriptorError → String
  | .truncated _ => "Truncated"
  | .unknownTag _ _ => "UnknownTag"
  | .trailing _ => "Trailing"
  | .voidValue _ => "VoidValue"
  | .malformedKey _ => "MalformedKey"

open Text in
def DescriptorError.message : DescriptorError → String
  | .truncated s => s!"Truncated descriptor: {quoted s}"
  | .unknownTag c s => s!"Unknown type tag {quotedChar c} in descriptor {quoted s}"
  | .trailing s => s!"Trailing characters in descriptor {quoted s}"
  | .voidValue s => s!"Void is not a value type in descriptor {quoted s}"
  | .malformedKey s => s!"Malformed signature key {quoted s}"

/-- Type of a field, parameter or result. -/
inductive TypeDescriptor where
  /-- No value; results only -/
  | void
  | bool
  | i32
  | i64
  | f64
  | str
  /-- A reference to an instance of the named type -/
  | object (name : String)
deriving DecidableEq, Repr

namespace TypeDescriptor

def chars : TypeDescriptor → List Char
  | .void => ['V']
  | .bool => ['Z']
  | .i32 => ['I']
  | .i64 => ['J']
  | .f64 => ['D']
  | .str => ['S']
  | .object name => 'L' :: (name.toList ++ [';'])

def text (t : TypeDescriptor) : String := String.ofList t.chars

def isReference : TypeDescriptor → Bool
  | .str | .object _ => true
  | _ => false

/-- The kind of a type, with the name of an object type. -/
def kind : TypeDescriptor → String
  | .void => "void"
  | .bool => "bool"
  | .i32 => "i32"
  | .i64 => "i64"
  | .f64 => "f64"
  | .str => "string"
  | .object name => "object " ++ name

/-- Read one descriptor from the front of a text; `whole` is what a failure quotes. -/
def read (whole : String) : List Char → Except DescriptorError (TypeDescriptor × List Char)
  | [] => .error (.truncated whole)
  | 'V' :: rest => .ok (.void, rest)
  | 'Z' :: rest => .ok (.bool, rest)
  | 'I' :: rest => .ok (.i32, rest)
  | 'J' :: rest => .ok (.i64, rest)
  | 'D' :: rest => .ok (.f64, rest)
  | 'S' :: rest => .ok (.str, rest)
  | 'L' :: rest =>
    match rest.dropWhile (· ≠ ';') with
    | [] => .error (.truncated whole)
    | _ :: after =>
      let name := rest.takeWhile (· ≠ ';')
      if name.isEmpty then .error (.truncated whole)
      else .ok (.object (String.ofList name), after)
  | c :: _ => .error (.unknownTag c whole)

def parse (s : String) : Except DescriptorError TypeDescriptor :=
  match read s s.toList with
  | .error e => .error e
  | .ok (t, rest) =>
    if !rest.isEmpty then .error (.trailing s)
    else if t = .void then .error (.voidValue s)
    else .ok t

theorem length_dropWhile_le (p : Char → Bool) (l : List Char) :
    (l.dropWhile p).length ≤ l.length := by
  induction l with
  | nil => simp
  | cons c rest ih =>
    by_cases h : p c
    · simp only [List.dropWhile_cons, h, ↓reduceIte, List.length_cons]
      omega
    · simp [h]

/-- What is left after reading a descriptor is shorter. -/
theorem length_lt_of_read {whole : String} {l rest : List Char} {t : TypeDescriptor}
    (h : read whole l = .ok (t, rest)) : rest.length < l.length := by
  unfold read at h
  split at h
  case h_8 l =>
    have hl := length_dropWhile_le (fun c => decide (c ≠ ';')) l
    split at h
    · cases h
    · next heq =>
      rw [heq] at hl
      dsimp only at h
      split at h
      · cases h
      · cases h
        simp only [List.length_cons] at hl ⊢
        omega
  all_goals first
    | (cases h; done)
    | (cases h; simp)

end TypeDescriptor

end LiveTypes
