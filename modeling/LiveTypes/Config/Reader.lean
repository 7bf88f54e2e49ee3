import LiveTypes.Config
import LiveTypes.Toml.Document

/-!
# Reading settings

Settings are written in two groups, `registry` and `vm`. What is not given has its default, and what
is not known is passed over. A group is a table, or an array with the settings in their order; a
date in the place of a group gives no setting at all.
-/

namespace LiveTypes

namespace Config

/-- The values of a group of settings, by name or by place. -/
def Group := String → Nat → Option Toml.Value

/-- The group that a value stands for. -/
def group? : Toml.Value → Option Group
  | .table _ entries => some fun name _ => AssocMap.lookup name entries
  | .array l => some fun _ place => l[place]?
  | .tables l => some fun _ place => l[place]?.map (.table .header)
  | .dateTime _ => some fun _ _ => none
  | _ => none

def texts? : Toml.Value → Option (List String)
  | .array l => l.mapM fun v =>
    match v with
    | .text s => some s
    | _ => none
  | _ => none

def truth? : Toml.Value → Option Bool
  | .boolean b => some b
  | _ => none

/-- A number that is not negative. -/
def count? : Toml.Value → Option Nat
  | .integer i => if 0 ≤ i then some i.toInt.toNat else none
  | _ => none

/-- The value of a setting, or its default when it is not given. -/
def setting {α : Type} (read : Toml.Value → Option α) (default : α) :
    Option Toml.Value → Option α
  | some v => read v
  | none => some default

def registry? (v : Toml.Value) : Option RegistryConfig := do
  let group ← group? v
  let d := RegistryConfig.default
  let included ← setting texts? d.included (group "include" 0)
  let excluded ← setting texts? d.excluded (group "exclude" 1)
  let promote ← setting truth? d.promote (group "promote_nested_visibility" 2)
  let verify ← setting truth? d.verify (group "verify_units" 3)
  return { included, excluded, promote, verify }

/-- The greatest nesting of calls. -/
def callDepth? (v : Toml.Value) : Option Nat := do
  setting count? default.maxCallDepth ((← group? v) "max_call_depth" 0)

def ofEntries? (entries : Toml.Entries) : Option Config := do
  let registry ← setting registry? default.registry (AssocMap.lookup "registry" entries)
  let maxCallDepth ← setting callDepth? default.maxCallDepth (AssocMap.lookup "vm" entries)
  return { registry, maxCallDepth }

/-- The settings that a text writes. -/
def parse (s : String) : Except Refusal Config :=
  match (Toml.parse s).bind ofEntries? with
  | some c => c.validate
  | none => .error .unreadable

end Config

end LiveTypes
