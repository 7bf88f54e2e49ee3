import LiveTypes.AssocMap
import LiveTypes.Version.Rejection

/-!
# Histories

What the accepted versions of a type fix for all later ones: its name, supertype and whether it
hosts a closure, the type of every field ever declared and the kind of every method ever declared.
Members may come and go, but a member that returns is what it was.
-/

namespace LiveTypes

/-- What earlier versions fixed. -/
structure History where
  name : String
  superName : Option String
  closureHost : Bool
  /-- Type of every field ever declared -/
  fieldTypes : AssocMap String TypeDescriptor
  /-- Whether each method ever declared is static -/
  methodKinds : AssocMap String Bool
deriving DecidableEq, Repr

namespace History

/-- Add the members of an accepted version; a member already known stays as it is. -/
def record (h : History) (u : TypeUnit) : History :=
  { h with
    fieldTypes := u.fields.foldl (fun m f => m.insertNew f.name f.type) h.fieldTypes
    methodKinds := u.methods.foldl (fun m d => m.insertNew d.key d.isStatic) h.methodKinds }

def ofInitial (u : TypeUnit) : History :=
  History.record ⟨u.name, u.superName, u.isClosureHost, .empty, .empty⟩ u

/-- Check a field against the type it had. -/
def checkField (h : History) (f : FieldDecl) : Except RejectReason Unit :=
  match h.fieldTypes.find? f.name with
  | some old => if old = f.type then .ok () else .error (.fieldRetyped f.name old f.type)
  | none => .ok ()

/-- Check a method against the kind it had. -/
def checkMethod (h : History) (m : MethodDecl) : Except RejectReason Unit :=
  match h.methodKinds.find? m.key with
  | some wasStatic =>
    if wasStatic = m.isStatic then .ok () else .error (.methodKindChanged m.key)
  | none => .ok ()

/-- Check a candidate against everything recorded. -/
def check (h : History) (u : TypeUnit) : Except RejectReason Unit := do
  if u.name ≠ h.name then throw (.nameMismatch h.name u.name)
  if u.superName ≠ h.superName then throw (.supertypeChanged h.superName u.superName)
  if u.isClosureHost ≠ h.closureHost then
    throw (.malformedUnit s!"{h.name} changed whether it hosts a closure")
  u.fields.forM h.checkField
  u.methods.forM h.checkMethod

end History

end LiveTypes
