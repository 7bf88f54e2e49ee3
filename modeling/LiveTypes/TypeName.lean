import LiveTypes.Text.Split

/-!
# Type names

A type name is dotted: everything before its last dot is its package. A nested type is named after
its enclosing type, a dollar sign and a name of its own, all in the same package.
-/

namespace LiveTypes.TypeName

/-- The name with slashes in place of dots. -/
def internal (name : String) : String :=
  String.ofList (name.toList.map fun c => if c = '.' then '/' else c)

/-- The package of a name, as characters; empty when the name has no dot. -/
def packageChars (name : List Char) : List Char :=
  match Text.splitLast '.' name with
  | some (package, _) => package
  | none => []

/-- The package of a name; empty when the name has no dot. -/
def package (name : String) : String := String.ofList (packageChars name.toList)

/-- A name as the characters up to and including the last dot, and the simple name after it. -/
def splitSimple (name : List Char) : List Char × List Char :=
  match Text.splitLast '.' name with
  | some (package, simple) => (package ++ ['.'], simple)
  | none => ([], name)

/-- The name of the directly enclosing type, as characters: what stands before the last dollar sign
of the simple name, if it is a name of its own and does not end in a dollar sign. -/
def enclosingChars? (name : List Char) : Option (List Char) :=
  let (front, simple) := splitSimple name
  match Text.splitLast '$' simple with
  | some (outer, _) =>
    if outer.isEmpty || outer.getLast? = some '$' then none else some (front ++ outer)
  | none => none

/-- The name of the directly enclosing type of a nested type. -/
def enclosing? (name : String) : Option String :=
  (enclosingChars? name.toList).map String.ofList

/-- Whether a name is that of the outer type followed by a dollar sign and anything. -/
def isNestedIn (name outer : String) : Bool :=
  match Text.dropStart? outer.toList name.toList with
  | some ('$' :: _) => true
  | _ => false

end LiveTypes.TypeName
