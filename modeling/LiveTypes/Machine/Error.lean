import LiveTypes.Registry.LiveType

/-!
# Machine failures

Why an invocation fails.
-/

namespace LiveTypes

/-- Failures that no verified and redirected code runs into, apart from a position that a site does
not have. -/
inductive Fault where
  | argumentsDoNotFit (arguments locals : Nat)
  | noFrameToPop
  | noFrame
  | localOutOfBounds (index locals : Nat)
  | fellOffEnd (key : String)
  | badConstant (key : String) (index : UInt32)
  | badSignature (key : String) (cause : DescriptorError)
  | malformed (op : Opcode)
  | badJump (offset : Nat)
  | noSlot (owner : String) (slot : UInt32)
  | badSiteKey (key : String)
  | unboundSite (site : SiteId)
  | noPosition (site : SiteId) (position : Nat)
deriving DecidableEq, Repr

def Fault.message : Fault → String
  | .argumentsDoNotFit arguments locals => s!"{arguments} arguments do not fit in {locals} locals"
  | .noFrameToPop => "No call frame to pop"
  | .noFrame => "No active call frame"
  | .localOutOfBounds index locals => s!"Local index {index} out of bounds (max {locals})"
  | .fellOffEnd key => s!"{key} fell off the end of its code"
  | .badConstant key index => s!"{key}: bad constant index {index}"
  | .badSignature key cause => s!"{key}: {cause.message}"
  | .malformed op => s!"malformed {op.name} instruction"
  | .badJump offset => s!"bad jump at offset {offset}"
  | .noSlot owner slot => s!"{owner} has no slot {slot}"
  | .badSiteKey key => s!"bad capture site key {Text.quoted key}"
  | .unboundSite site => s!"capture site {site.text} is not bound"
  | .noPosition site position => s!"{site.text} has no position {position}"

/-- Failures over the type of a value. -/
inductive TypeMismatch where
  | expected (what found : String)
  | comparison (first second : String)
  | arguments (key : String) (params given : Nat)
  | argumentSlots (key : String) (needed given : Nat)
  | kind (typeName key : String) (isStatic : Bool)
  | receiver (found owner : String)
  | fieldOwner (owner found : String)
  | store (found typeName field : String) (type : TypeDescriptor)
  | capture (found : String) (type : TypeDescriptor)
  | allocatedHost (typeName : String)
  | instantiatedHost (typeName : String)
deriving DecidableEq, Repr

def TypeMismatch.message : TypeMismatch → String
  | .expected what found => s!"expected {what}, found {found}"
  | .comparison first second => s!"cannot compare {first} with {second}"
  | .arguments key params given => s!"{key} takes {params} arguments, {given} given"
  | .argumentSlots key needed given => s!"{key} expects {needed} argument slots, got {given}"
  | .kind typeName key isStatic =>
    let what := if isStatic then "static" else "an instance method"
    s!"{typeName}.{key} is {what}"
  | .receiver found owner => s!"receiver is a {found}, expected {owner}"
  | .fieldOwner owner found => s!"field owner is {owner}, object is a {found}"
  | .store found typeName field type =>
    s!"cannot store {found} in {typeName}.{field} of type {type.text}"
  | .capture found type => s!"cannot capture {found} as {type.text}"
  | .allocatedHost typeName => s!"{typeName} hosts a closure and cannot be allocated"
  | .instantiatedHost typeName => s!"{typeName} hosts a closure and cannot be instantiated"

/-- Why an invocation fails. -/
inductive VmError where
  | stackOverflow
  | stackUnderflow
  | callDepthExceeded (limit : Nat)
  | typeError (cause : TypeMismatch)
  | divisionByZero
  | nullPointer
  | unknownType (name : String)
  | noSuchField (typeName field : String)
  | illegalAccess (accessor target : String)
  /-- An instruction that has to be redirected before it runs -/
  | notRedirected (op : Opcode)
  | lookup (cause : LookupError)
  | decode (cause : DecodeError)
  | runtime (cause : Fault)
deriving DecidableEq, Repr

def VmError.code : VmError → String
  | .stackOverflow => "StackOverflow"
  | .stackUnderflow => "StackUnderflow"
  | .callDepthExceeded _ => "CallDepthExceeded"
  | .typeError _ => "TypeError"
  | .divisionByZero => "DivisionByZero"
  | .nullPointer => "NullPointer"
  | .unknownType _ => "UnknownType"
  | .noSuchField _ _ => "NoSuchField"
  | .illegalAccess _ _ => "IllegalAccess"
  | .notRedirected _ => "Unrewritten"
  | .lookup e => "Lookup/" ++ e.code
  | .decode e => "Decode/" ++ e.code
  | .runtime _ => "Runtime"

def VmError.message : VmError → String
  | .stackOverflow => "Stack overflow"
  | .stackUnderflow => "Stack underflow"
  | .callDepthExceeded limit => s!"Call depth exceeded ({limit})"
  | .typeError cause => s!"Type error: {cause.message}"
  | .divisionByZero => "Division by zero"
  | .nullPointer => "Null pointer exception"
  | .unknownType name => s!"Unknown type: {name}"
  | .noSuchField typeName field => s!"{typeName} has no field {field}"
  | .illegalAccess accessor target => s!"{accessor} may not access {target}"
  | .notRedirected op => s!"Unrewritten instruction {op.name}"
  | .lookup cause => cause.message
  | .decode cause => s!"Bad code: {cause.message}"
  | .runtime cause => s!"Runtime error: {cause.message}"

end LiveTypes
