import LiveTypes.TypeUnit.Basic

/-!
# Visibility

The bodies of a type run on behalf of units with names of their own, to which a private nested type
would be out of reach. Promotion makes such a type public when it is registered.
-/

namespace LiveTypes

/-- Whether code on behalf of a unit may reach a type with the given access. -/
def Access.allows (accessor target : String) (access : UInt32) : Bool :=
  hasFlag access Access.isPublic || accessor = target || TypeName.isNestedIn target accessor ||
    (!hasFlag access Access.isPrivate && TypeName.package accessor = TypeName.package target)

/-- Whether promotion changes a unit: it is nested and not public. -/
def TypeUnit.isPromotable (u : TypeUnit) : Bool :=
  !u.isPublic && (TypeName.enclosing? u.name).isSome

def TypeUnit.promote (u : TypeUnit) : TypeUnit :=
  { u with access := (u.access &&& ~~~Access.isPrivate) ||| Access.isPublic }

end LiveTypes
