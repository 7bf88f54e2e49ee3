import LiveTypes.Redirection.Member

/-!
# Redirecting versions

Redirecting a version makes its executor unit, which holds the bodies with each access and call led
through the engine. No instruction changes its length, so every offset of a body keeps its meaning.
-/

namespace LiveTypes

structure RedirectedVersion where
  executor : TypeUnit
  /-- The bindings to apply when the version is published -/
  bindings : List SiteBinding
  stats : RedirectStats
deriving DecidableEq, Repr

def executorName (typeName : String) (version : Nat) : String :=
  typeName ++ "$$E" ++ toString version

namespace Redirection

variable (cx : RedirectContext) (u : TypeUnit)

def instructions (m : MethodDecl) (ordinal : Nat) (s : RedirectState) :
    List Instruction → Except RejectReason (List Instruction × RedirectState)
  | [] => .ok ([], s)
  | i :: rest => do
    let (i', s) ← instruction cx u m ordinal i s
    let ordinal := if i.opcode = .makeClosure then ordinal + 1 else ordinal
    let (rest, s) ← instructions m ordinal s rest
    return (i' :: rest, s)

def method (m : MethodDecl) (s : RedirectState) :
    Except RejectReason (MethodDecl × RedirectState) :=
  match Instruction.decodeAll m.code with
  | .error e => .error (malformed u m e.message)
  | .ok l => do
    let (l, s) ← instructions cx u m 0 s l
    return ({ m with code := Instruction.encodeAll l }, s)

def methods (s : RedirectState) :
    List MethodDecl → Except RejectReason (List MethodDecl × RedirectState)
  | [] => .ok ([], s)
  | m :: rest => do
    let (m, s) ← method cx u m s
    let (rest, s) ← methods s rest
    return (m :: rest, s)

end Redirection

/-- The executor unit that holds the given bodies of a version. -/
def TypeUnit.executor (u : TypeUnit) (version : Nat) (constants : ConstantPool)
    (methods : List MethodDecl) : TypeUnit where
  formatFlags := u.formatFlags
  name := executorName u.name version
  superName := none
  access := Access.isPublic ||| Access.synthetic ||| Access.executor
  constants := constants
  fields := []
  methods := methods
  attributes := []

/-- Redirect a version, and verify the result if asked to. -/
def TypeUnit.redirect (u : TypeUnit) (cx : RedirectContext) (verify : Bool) :
    Except RejectReason RedirectedVersion := do
  let (methods, s) ← Redirection.methods cx u (.start u.constants) u.methods
  let executor := u.executor cx.version s.constants methods
  if verify then
    (executor.verify .engine).mapError VerifyError.toReason
  return ⟨executor, s.bindings.toList, s.stats⟩

end LiveTypes
