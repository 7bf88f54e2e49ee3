import LiveTypes.TypeUnit.Format
import LiveTypes.TypeUnit.Verify

/-!
# Rejections

Why a unit is refused when a type is registered or reloaded. A refused unit leaves everything as it
was.
-/

namespace LiveTypes

/-- Why a unit is refused. -/
inductive RejectReason where
  /-- The unit is not what a version of the type can be -/
  | malformedUnit (detail : String)
  /-- A field kept its name but not its type -/
  | fieldRetyped (field : String) (old new : TypeDescriptor)
  /-- The supertype changed -/
  | supertypeChanged (expected found : Option String)
  /-- A method changed between static and instance -/
  | methodKindChanged (key : String)
  /-- The unit defines another type -/
  | nameMismatch (expected found : String)
  /-- An earlier version has the label -/
  | duplicateLabel (label : String)
  /-- Code refers to a type that is not registered -/
  | unresolved (referrer missing : String)
  /-- Closures of a site cannot be bound to the new shape of their host -/
  | closureShape (site : String) (detail : String)
  /-- The registry no longer exists -/
  | detached
deriving DecidableEq, Repr

def RejectReason.code : RejectReason → String
  | .malformedUnit _ => "MalformedUnit"
  | .fieldRetyped _ _ _ => "IncompatibleFieldRetype"
  | .supertypeChanged _ _ => "IncompatibleSupertype"
  | .methodKindChanged _ => "IncompatibleMethodKind"
  | .nameMismatch _ _ => "NameMismatch"
  | .duplicateLabel _ => "DuplicateVersionLabel"
  | .unresolved _ _ => "UnresolvedSibling"
  | .closureShape _ _ => "ClosureShapeMismatch"
  | .detached => "Detached"

open Text in
def RejectReason.message : RejectReason → String
  | .malformedUnit detail => s!"malformed unit: {detail}"
  | .fieldRetyped field old new => s!"field {field} retyped from {old.text} to {new.text}"
  | .supertypeChanged expected found =>
    s!"supertype changed from {quotedOption expected} to {quotedOption found}"
  | .methodKindChanged key => s!"method {key} switched between static and instance"
  | .nameMismatch expected found => s!"unit defines {found}, expected {expected}"
  | .duplicateLabel label => s!"version label {quoted label} already used"
  | .unresolved referrer missing => s!"{referrer} references unregistered type {missing}"
  | .closureShape site detail => s!"capture site {site} cannot be rebound: {detail}"
  | .detached => "registry has been dropped"

def UnitError.toReason (e : UnitError) : RejectReason := .malformedUnit e.message

def VerifyError.toReason (e : VerifyError) : RejectReason := .malformedUnit e.message

end LiveTypes
