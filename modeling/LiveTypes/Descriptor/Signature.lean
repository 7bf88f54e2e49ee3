import LiveTypes.Descriptor.Basic
import LiveTypes.Text.Split

/-!
# Signatures

A method is identified across versions by its signature key: its name followed by the types of its
parameters in brackets and the type of its result, as in `run(IJ)D`.
-/

namespace LiveTypes

/-- Parameter and result types of a method. -/
structure MethodDescriptor where
  /-- Parameter types, receiver excluded -/
  params : List TypeDescriptor
  result : TypeDescriptor
deriving DecidableEq, Repr

namespace MethodDescriptor

def chars (d : MethodDescriptor) : List Char :=
  '(' :: (d.params.flatMap TypeDescriptor.chars ++ ')' :: d.result.chars)

def text (d : MethodDescriptor) : String := String.ofList d.chars

/-- Read parameter types up to the end of a text; `params` is the text between the brackets and
`whole` the method descriptor, of which a failure quotes the one or the other. -/
def readParams (whole params : String) (l : List Char) :
    Except DescriptorError (List TypeDescriptor) :=
  if l.isEmpty then .ok []
  else
    match _h : TypeDescriptor.read params l with
    | .error e => .error e
    | .ok (t, rest) =>
      if t = .void then .error (.voidValue whole)
      else (readParams whole params rest).map (t :: ·)
termination_by l.length
decreasing_by exact TypeDescriptor.length_lt_of_read ‹_›

/-- Read a method descriptor such as `(IJ)D`. -/
def parse (s : String) : Except DescriptorError MethodDescriptor :=
  match s.toList with
  | '(' :: body =>
    match Text.splitFirst ')' body with
    | none => .error (.truncated s)
    | some (params, result) => do
      let types ← readParams s (String.ofList params) params
      let (t, rest) ← TypeDescriptor.read (String.ofList result) result
      if rest.isEmpty then return ⟨types, t⟩ else throw (.trailing s)
  | _ => .error (.truncated s)

end MethodDescriptor

/-- Name and descriptor of a method. -/
structure Signature where
  name : String
  descriptor : MethodDescriptor
deriving DecidableEq, Repr

namespace Signature

/-- The signature with a name and the text of a descriptor. -/
def ofParts (name descriptor : String) : Except DescriptorError Signature := do
  return ⟨name, ← MethodDescriptor.parse descriptor⟩

/-- Read a signature key. The name ends at the first opening bracket and is not empty. -/
def parseKey (key : String) : Except DescriptorError Signature :=
  match Text.splitFirst '(' key.toList with
  | some (c :: name, rest) => ofParts (String.ofList (c :: name)) (String.ofList ('(' :: rest))
  | _ => .error (.malformedKey key)

def key (s : Signature) : String := s.name ++ s.descriptor.text

/-- Number of parameters, receiver excluded. -/
def paramCount (s : Signature) : Nat := s.descriptor.params.length

def returnsValue (s : Signature) : Bool := s.descriptor.result ≠ .void

end Signature

end LiveTypes
