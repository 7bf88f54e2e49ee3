import LiveTypes.Machine.Step

/-!
# Running code

A body runs instruction by instruction until it returns or fails; a call runs the callee over a frame
of its own and closes the frame whatever comes of it. Code may run forever, so running is bounded by
a number of steps, and running out of it is different from every result.
-/

namespace LiveTypes

/-- What comes of running code: a value or a failure, with the state then. -/
abbrev RunResult := EStateM.Result VmError MachineState Value

namespace Machine

/-- Open the frame of a call. -/
def enter (vm : Machine) (target : Executable) (argc : Nat) : Run Unit := do
  if vm.maxCallDepth ≤ (← get).depth then throw (.callDepthExceeded vm.maxCallDepth)
  if argc ≠ target.argSlots then
    throw (.typeError (.argumentSlots target.key target.argSlots argc))
  Run.openFrame argc target.locals.toNat
  modify fun s => { s with depth := s.depth + 1 }

/-- Close the frame of a call. -/
def leave : Run Unit := do
  modify fun s => { s with depth := s.depth - 1 }
  let _ ← Run.closeFrame

/-- The result of a call whose body came to a result. -/
def finish (r : RunResult) : RunResult :=
  match r with
  | .ok v s =>
    match leave s with
    | .ok _ s => .ok v s
    | .error e s => .error e s
  | .error e s =>
    match leave s with
    | .ok _ s => .error e s
    | .error e' s => .error e' s

/-- Make a call, given how its body runs. -/
def callBy (vm : Machine) (body : Executable → MachineState → Option RunResult)
    (target : Executable) (argc : Nat) (s : MachineState) : Option RunResult :=
  match enter vm target argc s with
  | .error e s => some (.error e s)
  | .ok _ s => (body target s).map finish

/-- Push what a call returned, if its method returns a value. -/
def pushResult (target : Executable) (v : Value) : Run Unit :=
  if target.signature.returnsValue then Run.push v else pure ()

/-- The instruction at an offset of the code of an executable. -/
@[inline] def fetch (e : Executable) (offset : Nat) : Except VmError Instruction :=
  match e.code.instruction? offset with
  | some (.ok i) => .ok i
  | some (.error cause) => .error (.decode cause)
  | none => .error (.runtime (.fellOffEnd e.key))

/-- Run a body from an offset on, in at most the given number of nested steps. -/
def run (vm : Machine) : Nat → Executable → Nat → MachineState → Option RunResult
  | 0, _, _, _ => none
  | n + 1, e, offset, s =>
    match fetch e offset with
    | .error cause => some (.error cause s)
    | .ok i =>
      match step vm e i s with
      | .error cause s => some (.error cause s)
      | .ok .next s => run vm n e i.next s
      | .ok (.jump target) s => run vm n e target s
      | .ok (.ret v) s => some (.ok v s)
      | .ok (.call target argc) s =>
        match callBy vm (fun e s => run vm n e 0 s) target argc s with
        | none => none
        | some (.error cause s) => some (.error cause s)
        | some (.ok v s) =>
          match pushResult target v s with
          | .error cause s => some (.error cause s)
          | .ok _ s => run vm n e i.next s

def call (vm : Machine) (fuel : Nat) (target : Executable) (argc : Nat) (s : MachineState) :
    Option RunResult :=
  callBy vm (fun e s => run vm fuel e 0 s) target argc s

end Machine

end LiveTypes
