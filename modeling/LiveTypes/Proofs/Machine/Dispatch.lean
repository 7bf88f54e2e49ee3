import LiveTypes.Proofs.Machine.Access
import LiveTypes.Proofs.Machine.Ground
import LiveTypes.Proofs.Version.Dispatcher

/-!
# Running dispatchers

A dispatcher loads its arguments once more, asks its type for the current implementation of its method
and hands back what that gives. So a call of a dispatcher is refused before the implementation is
looked up (`invoke_refused`), fails as the lookup does (`invoke_unresolved`), or comes to what the
implementation comes to (`invoke_resolved`).
-/

namespace LiveTypes

/-- Failures of a call that does not get as far as looking up the implementation. -/
def VmError.IsRefusal : VmError → Prop
  | .typeError (.kind _ _ _) | .typeError (.arguments _ _ _) => True
  | .stackOverflow | .callDepthExceeded _ => True
  | _ => False

namespace Machine

open Run

variable {vm : Machine} {e d target : Executable} {s s' : MachineState} {h : Heap}
  {arguments : List Value} {n j : Nat}

/-- What is fetched at the offset of an instruction of a body is that instruction. -/
lemma fetch_of_has {i : Instruction} (hi : e.Has i) : fetch e i.offset = .ok i := by
  obtain ⟨l, hdecoded, hmem⟩ := hi
  obtain ⟨hlt, hat⟩ := (Instruction.tiles_of_decodeAll hdecoded).2 i hmem
  rw [fetch, Listing.instruction?_eq, if_pos hlt, hat]

lemma run_of_next {i : Instruction} (hi : e.Has i) (hstep : step vm e i s = .ok .next s') :
    run vm (n + 1) e i.offset s = run vm n e i.next s' := by
  simp only [run, fetch_of_has hi, hstep]

lemma run_of_error {i : Instruction} {cause : VmError} (hi : e.Has i)
    (hstep : step vm e i s = .error cause s') :
    run vm (n + 1) e i.offset s = some (.error cause s') := by
  simp only [run, fetch_of_has hi, hstep]

lemma run_of_ret {i : Instruction} {v : Value} (hi : e.Has i)
    (hstep : step vm e i s = .ok (.ret v) s') :
    run vm (n + 1) e i.offset s = some (.ok v s') := by
  simp only [run, fetch_of_has hi, hstep]

lemma run_of_call {i : Instruction} {argc : Nat} (hi : e.Has i)
    (hstep : step vm e i s = .ok (.call target argc) s') :
    run vm (n + 1) e i.offset s =
      match call vm n target argc s' with
      | none => none
      | some (.error cause s) => some (.error cause s)
      | some (.ok v s) =>
        match pushResult target v s with
        | .error cause s => some (.error cause s)
        | .ok _ s => run vm n e i.next s := by
  simp only [run, fetch_of_has hi, hstep]
  rfl

/-- What the host is given when the implementation comes to a result. -/
def handedBack (target : Executable) : RunResult → Except VmError Value × Heap
  | .ok v s => (.ok (if target.signature.returnsValue then v else .null), s.heap)
  | .error e s => (.error e, s.heap)

lemma outcome_finish_error {cause : VmError} {f : Frame} {rest : List Frame}
    (hframes : s.stack.frames = f :: rest) :
    outcome (finish (.error cause s)) = (.error cause, s.heap) := by
  rw [finish, leave_eq hframes]
  rfl

lemma outcome_finish_ok {v : Value} {f : Frame} {rest : List Frame}
    (hframes : s.stack.frames = f :: rest) : outcome (finish (.ok v s)) = (.ok v, s.heap) := by
  rw [finish, leave_eq hframes]
  rfl

/-! ### Arguments -/

lemma pushAll_of_le {values : List Value}
    (hroom : s.stack.slots.size + values.length ≤ s.stack.limit) :
    pushAll values s = .ok () (withSlots s (s.stack.slots ++ values.toArray)) := by
  induction values generalizing s with
  | nil => simp [pushAll]; rfl
  | cons v rest ih =>
    rw [List.length_cons] at hroom
    have hpush : push v s = .ok () _ := push_eq_ok.mpr ⟨by omega, rfl⟩
    refine (bind_of_ok hpush).trans ((ih ?_).trans ?_)
    · simp only [Array.size_push]
      omega
    · simp

lemma pushAll_of_lt {values : List Value}
    (hfull : s.stack.limit < s.stack.slots.size + values.length)
    (hsize : s.stack.slots.size ≤ s.stack.limit) :
    ∃ s', pushAll values s = .error .stackOverflow s' := by
  induction values generalizing s with
  | nil => exact absurd hfull (Nat.not_lt.mpr hsize)
  | cons v rest ih =>
    rw [List.length_cons] at hfull
    rcases Nat.lt_or_ge s.stack.slots.size s.stack.limit with hroom | hnone
    · have hpush : push v s = .ok () _ := push_eq_ok.mpr ⟨hroom, rfl⟩
      obtain ⟨s', hs'⟩ := @ih (withSlots s (s.stack.slots.push v))
        (by simp only [Array.size_push]; omega) (by simp only [Array.size_push]; omega)
      exact ⟨s', (bind_of_ok hpush).trans hs'⟩
    · exact ⟨s, bind_of_error (push_of_le hnone)⟩

/-- The body of a dispatcher that has loaded some of its arguments. -/
def loading (h : Heap) (arguments : List Value) (j : Nat) : MachineState where
  stack := ⟨(arguments ++ arguments.take j).toArray, [⟨0, arguments.length, arguments.length⟩],
    Stack.defaultLimit⟩
  heap := h
  depth := 1

lemma sound_loading {r : Registry} (hh : h.Sound r) (hvalues : ∀ v ∈ arguments, h.Holds v) :
    (loading h arguments j).Sound r where
  heap := hh
  stack v hv := by
    rcases List.mem_append.mp (List.mem_toArray.mp hv) with hv | hv
    · exact hvalues v hv
    · exact hvalues v (List.mem_of_mem_take hv)
  floor_le := by simp [loading, Stack.floor, Frame.floor]

/-- The frame of a dispatcher that has loaded some of its arguments. -/
def loaded (arguments : List Value) (h : Heap) (j : Nat) : View :=
  ⟨arguments.length, arguments.length, arguments ++ arguments.take j, h⟩

/-- The ground of a call that a host makes. -/
def hostGround : Ground := ⟨[], [], Stack.defaultLimit, 0⟩

lemma loading_eq : loading h arguments j = hostGround.state (loaded arguments h j) := rfl

variable {g : Ground}

lemma step_load (hj : j < arguments.length) (hfew : arguments.length < 0x10000) {offset : Nat} :
    step vm d ⟨offset, .loadLocal, .localSlot (UInt16.ofNat j)⟩ (g.state (loaded arguments h j)) =
      pushNext arguments[j] (g.state (loaded arguments h j)) := by
  have hslot : (UInt16.ofNat j).toNat = j := by
    rw [UInt16.toNat_ofNat']
    exact Nat.mod_eq_of_lt (by omega)
  have hload : Run.loadLocal j (g.state (loaded arguments h j)) =
      .ok arguments[j] (g.state (loaded arguments h j)) := by
    have hlocal : (g.stack (loaded arguments h j)).loadLocal j = .ok arguments[j] := by
      have hplace : (g.stack (loaded arguments h j)).localPlace j = .ok (g.below.length + j) :=
        if_neg (Nat.not_le.mpr hj)
      rw [Stack.loadLocal, hplace]
      simp [Except.map, g.getElem?_stack, loaded, List.getElem?_append_left hj, hj]
    show lift ((g.stack (loaded arguments h j)).loadLocal j) _ = _
    rw [hlocal]
    rfl
  show (Run.loadLocal (UInt16.ofNat j).toNat >>= pushNext) _ = _
  rw [hslot, bind_of_ok hload]

section Body

variable (hd : d.IsDispatcher) (hcount : arguments.length = d.argSlots)
include hd hcount

/-- The body of a dispatcher, over the constant with its key. -/
lemma exists_body : ∃ index, d.constants.string? index = some d.key ∧
    ∀ i ∈ Dispatcher.instructions index arguments.length d.signature.returnsValue, d.Has i := by
  obtain ⟨index, hcode, hkey⟩ := hd.code_eq
  refine ⟨index, hkey, fun i hi => ⟨_, ?_, hi⟩⟩
  rw [hcode, Listing.bytes_ofBytes, hcount, Dispatcher.decodeAll_body]

lemma has_load (hj : j < arguments.length) :
    d.Has ⟨3 * j, .loadLocal, .localSlot (UInt16.ofNat j)⟩ := by
  obtain ⟨index, -, hhas⟩ := exists_body hd hcount
  exact hhas _ (List.mem_append_left _ (List.mem_map.mpr ⟨j, List.mem_range.mpr hj, rfl⟩))

/-- A dispatcher comes to have loaded as many arguments as there is room for. -/
lemma run_loads (hj : j ≤ arguments.length)
    (hroom : g.below.length + arguments.length + j ≤ g.limit) :
    run vm (j + n) d 0 (g.state (loaded arguments h 0)) =
      run vm n d (3 * j) (g.state (loaded arguments h j)) := by
  have hfew := hcount ▸ hd.few
  induction j generalizing n with
  | zero => rw [Nat.zero_add]
  | succ j ih =>
    have hnext : step vm d ⟨3 * j, .loadLocal, .localSlot (UInt16.ofNat j)⟩
        (g.state (loaded arguments h j)) = .ok .next (g.state (loaded arguments h (j + 1))) := by
      have hlt : g.below.length + (arguments ++ arguments.take j).length < g.limit := by
        rw [List.length_append, List.length_take]
        omega
      rw [step_load hj hfew, pushNext, bind_of_ok (push_state_of_lt hlt)]
      simp only [loaded, List.append_assoc, List.take_append_getElem]
      rfl
    rw [Nat.add_assoc, ih (Nat.le_of_lt hj) (by omega), Nat.add_comm 1 n,
      run_of_next (has_load hd hcount hj) hnext]
    rfl

/-- Without room for its arguments a dispatcher fails. -/
lemma run_loads_overflow (hsize : g.below.length + arguments.length ≤ g.limit)
    (hfull : g.limit < g.below.length + 2 * arguments.length) :
    ∃ j, run vm (arguments.length + n) d 0 (g.state (loaded arguments h 0)) =
      some (.error .stackOverflow (g.state (loaded arguments h j))) := by
  obtain ⟨j, hj⟩ : ∃ j, g.limit = g.below.length + arguments.length + j :=
    ⟨g.limit - (g.below.length + arguments.length), by omega⟩
  have hlt : j < arguments.length := by omega
  obtain ⟨k, hk⟩ : ∃ k, arguments.length + n = j + (k + 1) :=
    ⟨arguments.length + n - j - 1, by omega⟩
  refine ⟨j, ?_⟩
  rw [hk, run_loads hd hcount (by omega) (by omega), run_of_error (has_load hd hcount hlt)]
  rw [step_load hlt (hcount ▸ hd.few)]
  refine bind_of_error (push_state_of_le ?_)
  show g.limit ≤ g.below.length + (arguments ++ arguments.take j).length
  rw [List.length_append, List.length_take]
  omega

/-- A dispatcher that a host calls loads its arguments. -/
lemma run_loading (hj : j ≤ arguments.length) (hroom : arguments.length + j ≤ Stack.defaultLimit) :
    run vm (j + n) d 0 (loading h arguments 0) =
      run vm n d (3 * j) (loading h arguments j) :=
  run_loads hd hcount hj (g := hostGround) (by simpa [hostGround] using hroom)

/-! ### The implementation -/

/-- With its arguments loaded, a dispatcher asks its type for the implementation. -/
lemma exists_lookup {t : LiveType} (ht : vm.registry.byId? d.typeId = some t) :
    ∃ i, d.Has i ∧ i.offset = 3 * arguments.length ∧ i.next = 3 * arguments.length + 7 ∧
      (∀ cause, t.executable d.key = .error cause →
        ∀ s, step vm d i s = .error (.lookup cause) s) ∧
      ∀ target, t.executable d.key = .ok target →
        ∀ s, step vm d i s = .ok (.call target arguments.length) s := by
  obtain ⟨index, hkey, hhas⟩ := exists_body hd hcount
  have hargc : (UInt16.ofNat arguments.length).toNat = arguments.length := by
    rw [UInt16.toNat_ofNat']
    exact Nat.mod_eq_of_lt (hcount ▸ hd.few)
  have hstep (s : MachineState) :
      stepDispatch vm d index (UInt16.ofNat arguments.length) s =
        (implementation t d.key >>= fun target => pure (.call target arguments.length)) s := by
    have htype : typeById vm d.typeId s = .ok t s := require_eq_ok.mpr ⟨ht, rfl⟩
    rw [stepDispatch, bind_of_ok (stringOperand_of_string? hkey), bind_of_ok htype, hargc]
  refine ⟨⟨3 * arguments.length, .dispatch, .dispatch index (UInt16.ofNat arguments.length)⟩,
    hhas _ (List.mem_append_right _ List.mem_cons_self), rfl, rfl, ?_, ?_⟩
  · intro cause hcause s
    refine (hstep s).trans ?_
    rw [implementation, hcause]
    rfl
  · intro target htarget s
    refine (hstep s).trans ?_
    rw [implementation, htarget]
    rfl

/-- What the implementation returned is what a dispatcher returns. -/
lemma run_return {v : Value} (htarget : target.signature.returnsValue = d.signature.returnsValue)
    (hfloor : s.stack.floor ≤ s.stack.slots.size)
    (hroom : target.signature.returnsValue = true → s.stack.slots.size < s.stack.limit) :
    ∃ s₁, pushResult target v s = .ok () s₁ ∧
      run vm (n + 1) d (3 * arguments.length + 7) s₁ =
        some (.ok (if target.signature.returnsValue then v else .null) s) := by
  obtain ⟨index, -, hhas⟩ := exists_body hd hcount
  have hreturn := hhas _ (List.mem_append_right _ (List.mem_cons_of_mem _ List.mem_cons_self))
  rw [← htarget] at hreturn
  unfold pushResult
  cases hreturns : target.signature.returnsValue with
  | true =>
    rw [hreturns] at hreturn
    have hpop : Run.pop (withSlots s (s.stack.slots.push v)) = .ok v s := pop_push rfl hfloor
    refine ⟨_, push_eq_ok.mpr ⟨hroom hreturns, rfl⟩, run_of_ret hreturn ?_⟩
    exact bind_of_ok hpop
  | false =>
    rw [hreturns] at hreturn
    exact ⟨s, rfl, run_of_ret hreturn rfl⟩

/-- A dispatcher fails as the lookup does. -/
lemma run_unresolved {t : LiveType} (ht : vm.registry.byId? d.typeId = some t) {cause : LookupError}
    (hcause : t.executable d.key = .error cause)
    (hroom : 2 * arguments.length ≤ Stack.defaultLimit) :
    run vm (arguments.length + (n + 1)) d 0 (loading h arguments 0) =
      some (.error (.lookup cause) (loading h arguments arguments.length)) := by
  obtain ⟨i, hi, hoffset, -, hfails, -⟩ := exists_lookup hd hcount ht
  rw [run_loading hd hcount (Nat.le_refl _) (by omega), ← hoffset]
  exact run_of_error hi (hfails cause hcause _)

/-- A dispatcher comes to what the implementation comes to. -/
lemma run_resolved (hcode : vm.registry.SoundCode) (hh : h.Sound vm.registry)
    (hvalues : ∀ v ∈ arguments, h.Holds v) {t : LiveType}
    (ht : vm.registry.byId? d.typeId = some t) (htarget : t.executable d.key = .ok target)
    (hbody : vm.registry.HasBody target)
    (hreturns : target.signature.returnsValue = d.signature.returnsValue)
    (hroom : 2 * arguments.length ≤ Stack.defaultLimit) :
    (run vm (arguments.length + (n + 2)) d 0 (loading h arguments 0)).map (outcome <| finish ·) =
      (call vm (n + 1) target arguments.length (loading h arguments arguments.length)).map
        (handedBack target) := by
  obtain ⟨i, hi, hoffset, hnext, -, hcalls⟩ := exists_lookup hd hcount ht
  have hs : (loading h arguments arguments.length).Sound vm.registry := sound_loading hh hvalues
  rw [run_loading hd hcount (Nat.le_refl _) (by omega), ← hoffset,
    run_of_call hi (hcalls target htarget _)]
  cases hcall : call vm (n + 1) target arguments.length (loading h arguments arguments.length) with
  | none => rfl
  | some res =>
    obtain ⟨hsettles, -⟩ := call_settles hcode (survives_true vm) hbody hs trivial hcall
    cases res with
    | error cause s => exact congrArg some (outcome_finish_error hsettles.2.1.frames_eq)
    | ok v s =>
      obtain ⟨hs', hgrows, -⟩ := hsettles
      have hsize := size_of_call hcode hbody hs hcall
      have hlimit : s.stack.limit = Stack.defaultLimit := hgrows.limit_eq
      have hsome : 0 < Stack.defaultLimit := Nat.succ_pos 16383
      simp [loading] at hsize
      obtain ⟨s₁, hpushed, hrun⟩ :=
        @run_return vm d target s arguments n hd hcount v hreturns hs'.floor_le
          fun _ => by omega
      simp only [hpushed, hnext, hrun, Option.map_some]
      rw [outcome_finish_ok hgrows.frames_eq]
      rfl

/-- A call of a dispatcher over all that is on the stack runs its body. -/
lemma call_dispatcher (hdepth : 0 < vm.maxCallDepth)
    (hsize : arguments.length ≤ Stack.defaultLimit) :
    call vm n d arguments.length ⟨⟨arguments.toArray, [], Stack.defaultLimit⟩, h, 0⟩ =
      (run vm n d 0 (loading h arguments 0)).map finish := by
  have hpush : Stack.pushFrame ⟨arguments.toArray, [], Stack.defaultLimit⟩ arguments.length
      d.locals.toNat = .ok (loading h arguments 0).stack := by
    rw [hd.locals_eq, ← hcount]
    simp [Stack.pushFrame, Stack.floor, loading, Nat.not_lt.mpr hsize]
  rw [call, callBy, enter_of_pushFrame hdepth hcount hpush]
  rfl

end Body

/-! ### Invocations -/

/-- The receiver and the arguments of an invocation, as they are put on the stack. -/
abbrev passed (receiver : Option Value) (arguments : List Value) : List Value :=
  receiver.toList ++ arguments

/-- Whether there are as many values as a dispatcher takes, with room for a call of it and one of the
implementation. -/
structure Ready (vm : Machine) (d : Executable) (values : List Value) : Prop where
  count : values.length = d.argSlots
  depth : 0 < vm.maxCallDepth
  room : 2 * values.length ≤ Stack.defaultLimit

section Invocations

variable {find : Run Executable} {receiver : Option Value}

lemma prepare_of_ne (hcount : (passed receiver arguments).length ≠ d.argSlots) :
    prepare d receiver arguments s =
      .error (.typeError (.arguments d.key d.signature.paramCount arguments.length)) s := by
  have hcount : arguments.length + receiver.toList.length ≠ d.argSlots := by
    rwa [Nat.add_comm, ← List.length_append]
  simp only [prepare, if_pos hcount]
  rfl

lemma prepare_of_eq (hcount : (passed receiver arguments).length = d.argSlots) :
    prepare d receiver arguments s =
      (pushAll (passed receiver arguments) >>= fun _ =>
        pure (passed receiver arguments).length) s := by
  have hlength : arguments.length + receiver.toList.length =
      (passed receiver arguments).length := by
    rw [Nat.add_comm, ← List.length_append]
  simp only [prepare, hlength, if_neg (not_not.mpr hcount)]

lemma invoke_of_find_error {cause : VmError} (hfind : find (startState h) = .error cause s) :
    invoke vm n find receiver arguments (startState h) = some (.error cause s) := by
  have hstart : (do
      let target ← find
      return (target, ← prepare target receiver arguments) : Run (Executable × Nat))
      (startState h) = .error cause s := bind_of_error hfind
  simp only [invoke, hstart]

variable (hfind : find (startState h) = .ok d (startState h))
include hfind

lemma invoke_of_prepare_error {cause : VmError}
    (hprepare : prepare d receiver arguments (startState h) = .error cause s) :
    invoke vm n find receiver arguments (startState h) = some (.error cause s) := by
  have hstart : (do
      let target ← find
      return (target, ← prepare target receiver arguments) : Run (Executable × Nat))
      (startState h) = .error cause s := by
    rw [bind_of_ok hfind, bind_of_error hprepare]
  simp only [invoke, hstart]

lemma invoke_of_prepare_ok {argc : Nat}
    (hprepare : prepare d receiver arguments (startState h) = .ok argc s) :
    invoke vm n find receiver arguments (startState h) = call vm n d argc s := by
  have hstart : (do
      let target ← find
      return (target, ← prepare target receiver arguments) : Run (Executable × Nat))
      (startState h) = .ok (d, argc) s := by
    rw [bind_of_ok hfind, bind_of_ok hprepare]
    rfl
  simp only [invoke, hstart]

/-- An invocation of a dispatcher that there is room for calls it over its arguments. -/
lemma invoke_of_le (hcount : (passed receiver arguments).length = d.argSlots)
    (hsize : (passed receiver arguments).length ≤ Stack.defaultLimit) :
    invoke vm n find receiver arguments (startState h) =
      call vm n d (passed receiver arguments).length
        ⟨⟨(passed receiver arguments).toArray, [], Stack.defaultLimit⟩, h, 0⟩ := by
  refine invoke_of_prepare_ok hfind ?_
  have hroom : (startState h).stack.slots.size + (passed receiver arguments).length ≤
      (startState h).stack.limit := by
    simpa [startState, Stack.empty] using hsize
  rw [prepare_of_eq hcount, bind_of_ok (pushAll_of_le hroom)]
  simp [startState, Stack.empty]
  rfl

/-- A call that a dispatcher is not ready for is refused, whatever the implementation is. -/
theorem invoke_refused (hd : d.IsDispatcher) (hnot : ¬ vm.Ready d (passed receiver arguments)) :
    ∃ cause : VmError, cause.IsRefusal ∧ ∀ n,
      (invoke vm (d.argSlots + n) find receiver arguments (startState h)).map outcome =
        some (.error cause, h) := by
  by_cases hcount : (passed receiver arguments).length = d.argSlots
  swap
  · refine ⟨.typeError (.arguments d.key d.signature.paramCount arguments.length), trivial,
      fun n => ?_⟩
    rw [invoke_of_prepare_error hfind (prepare_of_ne hcount)]
    rfl
  rcases Nat.lt_or_ge Stack.defaultLimit (passed receiver arguments).length with hfull | hsize
  · obtain ⟨s', hs'⟩ := @pushAll_of_lt (startState h) (passed receiver arguments)
      (by simpa [startState, Stack.empty] using hfull) (Nat.zero_le _)
    refine ⟨.stackOverflow, trivial, fun n => ?_⟩
    rw [invoke_of_prepare_error hfind ((prepare_of_eq hcount).trans (bind_of_error hs'))]
    exact congrArg some (congrArg (Prod.mk _) ((quiet_pushAll _).heap_of_error hs'))
  simp only [invoke_of_le hfind hcount hsize]
  rcases Nat.eq_zero_or_pos vm.maxCallDepth with hdepth | hdepth
  · refine ⟨.callDepthExceeded vm.maxCallDepth, trivial, fun n => ?_⟩
    rw [call, callBy, enter_of_le (Nat.le_of_eq hdepth)]
    rfl
  · have hfull : Stack.defaultLimit < 2 * (passed receiver arguments).length := by
      by_contra hroom
      exact hnot ⟨hcount, hdepth, Nat.not_lt.mp hroom⟩
    refine ⟨.stackOverflow, trivial, fun n => ?_⟩
    obtain ⟨j, hrun⟩ := @run_loads_overflow vm d h _ n hostGround hd hcount
      (by simpa [hostGround] using hsize) (by simpa [hostGround] using hfull)
    rw [call_dispatcher hd hcount hdepth hsize, ← hcount, loading_eq, hrun]
    exact congrArg some (outcome_finish_error rfl)

/-- A call that a dispatcher is ready for fails as the lookup of the implementation does. -/
theorem invoke_unresolved (hd : d.IsDispatcher) (hready : vm.Ready d (passed receiver arguments))
    {t : LiveType} (ht : vm.registry.byId? d.typeId = some t) {cause : LookupError}
    (hcause : t.executable d.key = .error cause) :
    (invoke vm (d.argSlots + (n + 1)) find receiver arguments (startState h)).map outcome =
      some (.error (.lookup cause), h) := by
  have hsize : (passed receiver arguments).length ≤ Stack.defaultLimit := by
    have hroom := hready.room
    omega
  rw [invoke_of_le hfind hready.count hsize, call_dispatcher hd hready.count hready.depth hsize,
    ← hready.count, run_unresolved hd hready.count ht hcause hready.room]
  exact congrArg some (outcome_finish_error rfl)

/-- A call that a dispatcher is ready for comes to what the implementation comes to. -/
theorem invoke_resolved (hcode : vm.registry.SoundCode) (hh : h.Sound vm.registry)
    (hvalues : ∀ v ∈ passed receiver arguments, h.Holds v) (hd : d.IsDispatcher)
    (hready : vm.Ready d (passed receiver arguments)) {t : LiveType}
    (ht : vm.registry.byId? d.typeId = some t) (htarget : t.executable d.key = .ok target)
    (hbody : vm.registry.HasBody target)
    (hreturns : target.signature.returnsValue = d.signature.returnsValue) :
    (invoke vm (d.argSlots + (n + 2)) find receiver arguments (startState h)).map outcome =
      (call vm (n + 1) target d.argSlots
        (loading h (passed receiver arguments) d.argSlots)).map (handedBack target) := by
  have hsize : (passed receiver arguments).length ≤ Stack.defaultLimit := by
    have hroom := hready.room
    omega
  rw [invoke_of_le hfind hready.count hsize, call_dispatcher hd hready.count hready.depth hsize,
    ← hready.count, Option.map_map]
  exact run_resolved hd hready.count hcode hh hvalues ht htarget hbody hreturns hready.room

end Invocations

end Machine

end LiveTypes
