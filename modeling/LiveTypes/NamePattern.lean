import LiveTypes.Text.Blank
import LiveTypes.Text.Quoted
import LiveTypes.TypeName

/-!
# Name patterns

A pattern selects type names: `a.B` the type and the types nested in it, `a.*` the types directly in
a package, `a..*` those of a package and of every package below it, and `*` all types.
-/

namespace LiveTypes

inductive NamePattern where
  | any
  | exact (name : String)
  | package (name : String)
  | subtree (name : String)
deriving DecidableEq, Repr

namespace NamePattern

/-- Whether a text contains two dots in a row. -/
def hasDoubleDot : List Char → Bool
  | '.' :: '.' :: _ => true
  | _ :: rest => hasDoubleDot rest
  | [] => false

/-- Whether the text can be the name in a pattern. -/
def isName (s : List Char) : Bool :=
  !s.isEmpty && !s.contains '*' && s.head? ≠ some '.' && s.getLast? ≠ some '.'
    && !hasDoubleDot s && !s.any Text.isBlank

/-- The pattern made from a name, if the text can be one. -/
def ofName? (make : String → NamePattern) (name : List Char) : Option NamePattern :=
  if isName name then some (make (String.ofList name)) else none

def parse? (s : String) : Option NamePattern :=
  if s = "*" then some .any
  else
    match Text.dropEnd? ['.', '.', '*'] s.toList with
    | some name => ofName? .subtree name
    | none =>
      match Text.dropEnd? ['.', '*'] s.toList with
      | some name => ofName? .package name
      | none => ofName? .exact s.toList

def text : NamePattern → String
  | .any => "*"
  | .exact name => name
  | .package name => name ++ ".*"
  | .subtree name => name ++ "..*"

def kind : NamePattern → String
  | .any => "Any"
  | .exact _ => "Exact"
  | .package _ => "Package"
  | .subtree _ => "Subtree"

def selects (p : NamePattern) (typeName : String) : Bool :=
  match p with
  | .any => true
  | .exact name => typeName = name || TypeName.isNestedIn typeName name
  | .package name => TypeName.package typeName = name
  | .subtree name =>
    let package := TypeName.package typeName
    package = name ||
      match Text.dropStart? name.toList package.toList with
      | some ('.' :: _) => true
      | _ => false

end NamePattern

end LiveTypes
