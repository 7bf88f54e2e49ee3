import LiveTypes.NamePattern

/-!
# Settings

Which types a registry takes, how it takes them, and how deep calls may nest.
-/

namespace LiveTypes

structure RegistryConfig where
  /-- Patterns of the types that may be registered -/
  included : List String
  /-- Patterns of the types that may not, even when included -/
  excluded : List String
  /-- Whether nested types are made public when they are registered -/
  promote : Bool
  /-- Whether units are verified -/
  verify : Bool
deriving DecidableEq, Repr

namespace RegistryConfig

/-- Every type, promotion and verification. -/
def default : RegistryConfig := ⟨["*"], [], true, true⟩

instance : Inhabited RegistryConfig := ⟨default⟩

end RegistryConfig

/-- Settings of a registry and of the machine that runs its code. -/
structure Config where
  registry : RegistryConfig
  /-- Greatest nesting of calls -/
  maxCallDepth : Nat
deriving DecidableEq, Repr

namespace Config

def default : Config := ⟨.default, 256⟩

/-- Why settings are refused. -/
inductive Refusal where
  /-- A text that is no document, or a value of another type than its setting -/
  | unreadable
  /-- A pattern that does not parse -/
  | pattern (text : String)
  /-- No call may be made at all -/
  | callDepth
deriving DecidableEq, Repr

def Refusal.code : Refusal → String
  | .unreadable => "ParseError"
  | .pattern _ | .callDepth => "ValidationError"

def Refusal.message : Refusal → String
  | .unreadable => "Failed to parse config"
  | .pattern text => s!"Invalid config: Invalid name pattern: {Text.quoted text}"
  | .callDepth => "Invalid config: vm.max_call_depth must be at least 1"

/-- Check that every pattern parses and that calls can be made. -/
def validate (c : Config) : Except Refusal Config :=
  match (c.registry.included ++ c.registry.excluded).find? fun p => (NamePattern.parse? p).isNone with
  | some p => .error (.pattern p)
  | none => if c.maxCallDepth = 0 then .error .callDepth else .ok c

end Config

end LiveTypes
