import LiveTypes.Proofs.Machine.Binding
import LiveTypes.Proofs.Registry.Binding

/-!
# Calls through dispatchers

A call that is bound early goes through a dispatcher, one that is bound late goes to the current
implementation at once. Both have the same effect when the dispatcher passes to that implementation
(`transparent_of_passesTo`), and both fail in the same way when there is none
(`transparent_of_unresolved`), as long as there is room for both.
-/

namespace LiveTypes.Machine

open Run Bounded

variable {vm : Machine} {e d target : Executable} {g : Ground} {heap : Heap} {s : MachineState}
  {arguments : List Value} {t : LiveType} {key : String} {a b : UInt32} {isStatic : Bool}
  {config : RegistryConfig}

/-! ### Instructions with the calls that they make -/

/-- Where control goes after an instruction, or its failure. -/
abbrev FlowResult := EStateM.Result VmError MachineState Flow

/-- Where control goes when a call has come to a result. -/
def handBack (target : Executable) : RunResult → FlowResult
  | .ok v s => (pushResult target v >>= fun _ => pure Flow.next) s
  | .error cause s => .error cause s

/-- Make the call that an instruction asks for, if it asks for one. -/
def complete (vm : Machine) (n : Nat) : FlowResult → Option FlowResult
  | .ok (.call target argc) s => (call vm n target argc s).map (handBack target)
  | res => some res

/-- Execute an instruction with the call that it makes, in a bounded number of steps. -/
def perform (vm : Machine) (e : Executable) (i : Instruction) (s : MachineState) (n : Nat) :
    Option FlowResult :=
  complete vm n (step vm e i s)

/-- A run performs the instruction that it is at, and follows where it leads. -/
theorem run_eq_perform {i : Instruction} (hi : e.Has i) (n : Nat) :
    run vm (n + 1) e i.offset s = (perform vm e i s n).bind (follow vm e i.next n) := by
  rw [run_of_has hi, perform]
  rcases step vm e i s with ⟨flow, s₁⟩ | ⟨cause, s₁⟩
  · cases flow with
    | call target argc =>
      rw [complete, Option.bind_map, follow]
      congr 1
      funext res
      cases res with
      | error cause s₂ => rfl
      | ok v s₂ =>
        simp only [resume, Function.comp_apply, handBack]
        cases hpushed : pushResult target v s₂ with
        | ok _ s₃ =>
          rw [bind_of_ok hpushed]
          rfl
        | error cause s₃ =>
          rw [bind_of_error hpushed]
          rfl
    | _ => rfl
  · rfl

/-- However many steps it is given, an instruction comes to no more than one result. -/
lemma perform_unique {i : Instruction} {n m : Nat} {res res' : FlowResult}
    (hn : perform vm e i s n = some res) (hm : perform vm e i s m = some res') : res = res' := by
  unfold perform at hn hm
  generalize step vm e i s = out at hn hm
  rcases out with ⟨flow, s₁⟩ | ⟨cause, s₁⟩
  · cases flow with
    | call target argc =>
      obtain ⟨out, hout, rfl⟩ := Option.map_eq_some_iff.mp hn
      obtain ⟨out', hout', rfl⟩ := Option.map_eq_some_iff.mp hm
      rw [(mono_call _ _ _).eq hout hout']
    | _ => exact Option.some.inj (hn.symm.trans hm)
  · exact Option.some.inj (hn.symm.trans hm)

/-! ### Effects -/

/-- Whether what came of an instruction is a failure for lack of room. -/
def OutOfRoom : FlowResult → Prop
  | .ok _ _ => False
  | .error cause _ => cause.IsLimit

/-- Whether two calls over a ground had the same effect: control goes on with the same stack and the
same heap, or they failed in the same way with the same heap. What a call that failed left of its
arguments is lost with the frame. -/
inductive SameEffect (g : Ground) : FlowResult → FlowResult → Prop
  | next (s : MachineState) : SameEffect g (.ok .next s) (.ok .next s)
  | error (cause : VmError) (values values' : List Value) (heap : Heap) :
    SameEffect g (.error cause (g.calling values heap)) (.error cause (g.calling values' heap))

/-- Whether each of two executions over a ground comes to a result as soon as the other one does, and
with the same effect, unless one of them is out of room. -/
structure Transparent (g : Ground) (x x' : Nat → Option FlowResult) : Prop where
  forth : ∀ n res, x n = some res → OutOfRoom res ∨
    ∃ m res', x' m = some res' ∧ (OutOfRoom res' ∨ SameEffect g res res')
  back : ∀ n res', x' n = some res' → OutOfRoom res' ∨
    ∃ m res, x m = some res ∧ (OutOfRoom res ∨ SameEffect g res res')

lemma SameEffect.symm {res res' : FlowResult} (h : SameEffect g res res') :
    SameEffect g res' res := by
  cases h with
  | next s => exact .next s
  | error cause values values' heap => exact .error cause values' values heap

lemma Transparent.symm {x x' : Nat → Option FlowResult} (h : Transparent g x x') :
    Transparent g x' x where
  forth n res' hres' := (h.back n res' hres').imp_right fun ⟨m, res, hres, heffect⟩ =>
    ⟨m, res, hres, heffect.imp_right .symm⟩
  back n res hres := (h.forth n res hres).imp_right fun ⟨m, res', hres', heffect⟩ =>
    ⟨m, res', hres', heffect.imp_right .symm⟩

/-- Whether a run that is at an instruction goes on from the state, or fails with the error, that
another execution comes to, unless one of them is out of room. -/
def RunsAs (vm : Machine) (e : Executable) (g : Ground) (i : Instruction) (s : MachineState)
    (x' : Nat → Option FlowResult) : Prop :=
  ∀ n out, run vm (n + 1) e i.offset s = some out →
    ∃ res, follow vm e i.next n res = some out ∧ (OutOfRoom res ∨
      ∃ m res', x' m = some res' ∧ (OutOfRoom res' ∨ SameEffect g res res'))

lemma Transparent.runsAs {i : Instruction} {x' : Nat → Option FlowResult}
    (h : Transparent g (perform vm e i s) x') (hi : e.Has i) : RunsAs vm e g i s x' := by
  intro n out hout
  rw [run_eq_perform hi] at hout
  obtain ⟨res, hres, hfollow⟩ := Option.bind_eq_some_iff.mp hout
  exact ⟨res, hfollow, h.forth n res hres⟩

/-- Whether one instruction may stand for another: both have the same effect over a ground, and so
have the runs that are at them. -/
structure Interchangeable (vm : Machine) (e : Executable) (g : Ground) (i i' : Instruction)
    (s : MachineState) : Prop where
  effect : Transparent g (perform vm e i s) (perform vm e i' s)
  runs : e.Has i → RunsAs vm e g i s (perform vm e i' s)
  runs' : e.Has i' → RunsAs vm e g i' s (perform vm e i s)

theorem Transparent.interchangeable {i i' : Instruction}
    (h : Transparent g (perform vm e i s) (perform vm e i' s)) :
    Interchangeable vm e g i i' s where
  effect := h
  runs := h.runsAs
  runs' := h.symm.runsAs

/-- Instructions that fail in the same way before they call have the same effect. -/
lemma transparent_of_error {i i' : Instruction} {cause : VmError}
    (h : step vm e i (g.calling arguments heap) = .error cause (g.calling arguments heap))
    (h' : step vm e i' (g.calling arguments heap) = .error cause (g.calling arguments heap)) :
    Transparent g (perform vm e i (g.calling arguments heap))
      (perform vm e i' (g.calling arguments heap)) := by
  have hperform {i : Instruction} (n : Nat)
      (h : step vm e i (g.calling arguments heap) = .error cause (g.calling arguments heap)) :
      perform vm e i (g.calling arguments heap) n =
        some (.error cause (g.calling arguments heap)) := by
    rw [perform, h]
    rfl
  constructor
  · intro n res hres
    obtain rfl := Option.some.inj ((hperform n h).symm.trans hres)
    exact .inr ⟨0, _, hperform 0 h', .inr (.error cause arguments arguments heap)⟩
  · intro n res' hres'
    obtain rfl := Option.some.inj ((hperform n h').symm.trans hres')
    exact .inr ⟨0, _, hperform 0 h, .inr (.error cause arguments arguments heap)⟩

/-- What a call returned can only be lost for lack of room. -/
lemma limit_of_pushResult {w : Value} {cause : VmError} {s₁ : MachineState}
    (h : pushResult target w s = .error cause s₁) : cause.IsLimit := by
  unfold pushResult at h
  split at h
  · rcases Nat.lt_or_ge s.stack.slots.size s.stack.limit with hroom | hfull
    · have hpushed : push w s = .ok () _ := push_eq_ok.mpr ⟨hroom, rfl⟩
      rw [hpushed] at h
      cases h
    · rw [push_of_le hfull] at h
      cases h
      trivial
  · cases h

/-- What a call that is bound early has in common with one that is bound late is had by what they hand
back. -/
lemma effect_of_calls {res res' : RunResult}
    (hreturns : target.signature.returnsValue = d.signature.returnsValue)
    (h : Calls (.refl _) g g target.Returns res res') : OutOfRoom (handBack target res) ∨
      OutOfRoom (handBack d res') ∨ SameEffect g (handBack d res') (handBack target res) := by
  cases h with
  | limit he hs => exact .inl he
  | limit' he hs => exact .inr (.inl he)
  | error cause hs =>
    obtain ⟨values, values', heap, rfl, rfl⟩ := hs
    rw [VmError.rename_refl, Heap.rename_refl]
    exact .inr (.inr (.error cause values' values heap))
  | @ok w w' _ _ hw hs =>
    obtain ⟨heap, rfl, rfl⟩ := hs
    rw [Heap.rename_refl]
    have hpushed : pushResult d w' = pushResult target w := by
      unfold pushResult
      rw [← hreturns]
      exact if_ctx_congr Iff.rfl (fun hvalue => by rw [hw hvalue]) fun _ => rfl
    simp only [handBack, hpushed]
    cases hrun : pushResult target w (g.calling [] heap) with
    | ok _ s₁ =>
      rw [bind_of_ok hrun]
      exact .inr (.inr (.next s₁))
    | error cause s₁ =>
      rw [bind_of_error hrun]
      exact .inl (limit_of_pushResult hrun)

/-! ### Dispatchers and implementations -/

section Dispatchers

variable (hg : g.Firm)
include hg

/-- A dispatcher has the effect of the implementation that it passes to. -/
lemma transparent_of_passesTo (hr : vm.registry.WellFormed) (hcode : vm.registry.SoundCode)
    (hloaded : ∀ t ∈ vm.registry.types, t.Loaded config)
    (hs : (g.calling arguments heap).Sound vm.registry) (htarget : vm.registry.HasBody target)
    (hpasses : d.PassesTo vm.registry target) :
    Transparent g
      (fun n => (call vm n d arguments.length (g.calling arguments heap)).map (handBack d))
      fun n => (call vm n target arguments.length (g.calling arguments heap)).map
        (handBack target) := by
  have hmatched (k : Nat) : Matched k (Calls (.refl _) g g target.Returns)
      (fun n => call vm n target arguments.length (g.calling arguments heap))
      fun n => call vm n d arguments.length (g.calling arguments heap) := by
    have hcalls := @matched_dispatcher _ vm vm g g heap k target target d arguments hcode
      (run_matched (hr.twin_self hloaded) hr hcode k) hg hg hs (Executable.twin_self htarget) hpasses
    rwa [Heap.rename_refl] at hcalls
  constructor
  · intro n out hout
    obtain ⟨res', hres', rfl⟩ := Option.map_eq_some_iff.mp hout
    rcases (hmatched n).right n (Nat.le_refl n) res' hres' with hfree | ⟨m, res, hres, hcalls⟩
    · obtain ⟨cause, _, _, rfl, hcause, -⟩ := limit_of_forall' hfree
      exact .inl hcause
    · rcases effect_of_calls hpasses.returns_eq hcalls with hfull | hfull | hsame
      · exact .inr ⟨m, _, Option.map_eq_some_iff.mpr ⟨res, hres, rfl⟩, .inl hfull⟩
      · exact .inl hfull
      · exact .inr ⟨m, _, Option.map_eq_some_iff.mpr ⟨res, hres, rfl⟩, .inr hsame⟩
  · intro n out hout
    obtain ⟨res, hres, rfl⟩ := Option.map_eq_some_iff.mp hout
    rcases (hmatched n).left n (Nat.le_refl n) res hres with hfree | ⟨m, res', hres', hcalls⟩
    · obtain ⟨cause, _, _, rfl, hcause, -⟩ := limit_of_forall hfree
      exact .inl hcause
    · rcases effect_of_calls hpasses.returns_eq hcalls with hfull | hfull | hsame
      · exact .inl hfull
      · exact .inr ⟨m, _, Option.map_eq_some_iff.mpr ⟨res', hres', rfl⟩, .inl hfull⟩
      · exact .inr ⟨m, _, Option.map_eq_some_iff.mpr ⟨res', hres', rfl⟩, .inr hsame⟩

/-- Without an implementation, a call of a dispatcher fails as the lookup does, unless there is no room
for it. -/
lemma call_unresolved (hd : d.IsDispatcher) (hcount : arguments.length = d.argSlots)
    (ht : vm.registry.byId? d.typeId = some t) {cause : LookupError}
    (hcause : t.executable d.key = .error cause) :
    ∃ n e values, call vm n d arguments.length (g.calling arguments heap) =
      some (.error e (g.calling values heap)) ∧ (e.IsLimit ∨ e = .lookup cause) := by
  have hlocals : d.locals.toNat = arguments.length := hd.locals_eq.trans hcount.symm
  rcases @enter_calling vm d g arguments heap hg (Nat.le_of_eq hd.locals_eq.symm) with
    ⟨-, hroom, henter⟩ | ⟨e, he, henter⟩ | ⟨hne, -⟩
  · have hview : opened d arguments heap = loaded arguments heap 0 := by
      rw [opened, hlocals, Nat.sub_self, List.replicate_zero, loaded, List.take_zero]
    rw [hview] at henter
    rw [hlocals] at hroom
    rcases Nat.lt_or_ge g.limit (g.below.length + 2 * arguments.length) with hfull | hroom'
    · obtain ⟨j, hrun⟩ := @run_loads_overflow vm d heap arguments 0 g hd hcount hroom hfull
      refine ⟨arguments.length + 0, .stackOverflow, [], ?_, .inl trivial⟩
      rw [call_of_enter_ok henter, hrun, Option.map_some, finish_error]
      rfl
    · obtain ⟨i, hi, hoffset, -, hfails, -⟩ := exists_lookup hd hcount ht
      refine ⟨arguments.length + 1, .lookup cause, [], ?_, .inr rfl⟩
      rw [call_of_enter_ok henter, run_loads hd hcount (Nat.le_refl _) (by omega), ← hoffset,
        run_of_error hi (hfails cause hcause _), Option.map_some, finish_error]
      rfl
  · exact ⟨0, e, arguments, call_of_enter_error henter 0, .inl he⟩
  · exact absurd hcount hne

/-- Without an implementation, a call of a dispatcher has the effect of the lookup. -/
lemma transparent_of_unresolved (hd : d.IsDispatcher) (hcount : arguments.length = d.argSlots)
    (ht : vm.registry.byId? d.typeId = some t) {cause : LookupError}
    (hcause : t.executable d.key = .error cause) :
    Transparent g
      (fun n => (call vm n d arguments.length (g.calling arguments heap)).map (handBack d))
      fun _ => some (.error (.lookup cause) (g.calling arguments heap)) := by
  obtain ⟨k, e, values, hcall, he⟩ := @call_unresolved vm d g heap arguments t hg hd hcount ht _ hcause
  constructor
  · intro n out hout
    obtain ⟨res, hres, rfl⟩ := Option.map_eq_some_iff.mp hout
    obtain rfl := (mono_call _ _ _).eq hcall hres
    rcases he with he | rfl
    · exact .inl he
    · exact .inr ⟨0, _, rfl, .inr (.error _ _ _ _)⟩
  · intro n out' hout'
    obtain rfl := Option.some.inj hout'
    refine .inr ⟨k, _, Option.map_eq_some_iff.mpr ⟨_, hcall, rfl⟩, ?_⟩
    rcases he with he | rfl
    · exact .inl he
    · exact .inr (.error _ _ _ _)

end Dispatchers

/-! ### Calls of methods -/

def callOf (find : Run Executable) (isStatic : Bool) (argc : Executable → Nat) : Run Flow := do
  let target ← find
  expectKind target isStatic
  return .call target (argc target)

lemma callOf_of_ok {find : Run Executable} {argc : Executable → Nat} (h : find s = .ok target s)
    (hkind : target.isStatic = isStatic) :
    callOf find isStatic argc s = .ok (.call target (argc target)) s := by
  have hexpect : expectKind target isStatic s = .ok () s := by
    rw [expectKind, if_pos hkind]
    rfl
  refine (bind_of_ok h).trans ?_
  exact bind_of_ok hexpect

lemma checkAccess_cases (e : Executable) (t : LiveType) (s : MachineState) :
    (∃ cause, checkAccess e t s = .error cause s) ∨ checkAccess e t s = .ok () s := by
  unfold checkAccess
  split
  · exact .inr rfl
  · exact .inl ⟨_, rfl⟩

section Instructions

variable {signature : Signature} (ha : e.constants.string? a = some t.name)
  (hb : e.constants.string? b = some key) (ht : vm.registry.find? t.name = some t)
include ht

lemma receiverType_cases (n : Nat) (s : MachineState) :
    (∃ cause, receiverType vm t.name n s = .error cause s) ∨
      receiverType vm t.name n s = .ok t s := by
  have hpeek : peek n s = lift (s.stack.peek n) s := rfl
  cases hv : s.stack.peek n with
  | error cause =>
    rw [hv] at hpeek
    exact .inl ⟨cause, bind_of_error hpeek⟩
  | ok v =>
    rw [hv] at hpeek
    rw [receiverType, bind_of_ok hpeek]
    split
    · split_ifs
      · exact .inr (resolve_of_find? ht)
      · exact .inl ⟨_, rfl⟩
    · exact .inl ⟨_, rfl⟩
    · exact .inl ⟨_, rfl⟩

include ha hb

/-- A static call fails before it looks for the method, or calls the method of the type. -/
lemma invokeStatic_cases :
    (∃ cause, ∀ late, invokeStatic vm e late a b s = .error cause s) ∨
      ∀ late, invokeStatic vm e late a b s =
        callOf (if late then implementation t key else dispatcher t key) true
          Executable.argSlots s := by
  have hlooks (late : Bool) : invokeStatic vm e late a b s = (do
      checkAccess e t
      let key ← stringOperand e b
      callOf (if late then implementation t key else dispatcher t key) true
        Executable.argSlots) s := by
    rw [invokeStatic, bind_of_ok (stringOperand_of_string? ha), bind_of_ok (resolve_of_find? ht)]
    cases late <;> rfl
  simp only [hlooks]
  rcases checkAccess_cases e t s with ⟨cause, haccess⟩ | haccess
  · exact .inl ⟨cause, fun late => bind_of_error haccess⟩
  · refine .inr fun late => ?_
    rw [bind_of_ok haccess, bind_of_ok (stringOperand_of_string? hb)]

/-- So does a call on a receiver, which lies under the arguments that the key takes. -/
lemma invokeVirtual_cases (hkey : Signature.parseKey key = .ok signature) :
    (∃ cause, ∀ late, invokeVirtual vm e late a b s = .error cause s) ∨
      ∀ late, invokeVirtual vm e late a b s =
        callOf (if late then implementation t key else dispatcher t key) false
          (fun _ => signature.paramCount + 1) s := by
  have hsignature : signatureOperand e b s = .ok (key, signature) s := by
    rw [signatureOperand, bind_of_ok (stringOperand_of_string? hb), hkey]
    rfl
  have hlooks (late : Bool) : invokeVirtual vm e late a b s = (do
      let t ← receiverType vm t.name signature.paramCount
      checkAccess e t
      callOf (if late then implementation t key else dispatcher t key) false
        fun _ => signature.paramCount + 1) s := by
    rw [invokeVirtual, bind_of_ok (stringOperand_of_string? ha), bind_of_ok hsignature]
    cases late <;> rfl
  simp only [hlooks]
  rcases receiverType_cases ht signature.paramCount s with ⟨cause, hreceiver⟩ | hreceiver
  · exact .inl ⟨cause, fun late => bind_of_error hreceiver⟩
  rcases checkAccess_cases e t s with ⟨cause, haccess⟩ | haccess
  · refine .inl ⟨cause, fun late => ?_⟩
    rw [bind_of_ok hreceiver, bind_of_error haccess]
  · refine .inr fun late => ?_
    rw [bind_of_ok hreceiver, bind_of_ok haccess]

end Instructions

/-- Whether an executable is the dispatcher of a method of a type, and passes to whatever the type gives
for its key. -/
structure Relays (r : Registry) (t : LiveType) (key : String) (isStatic : Bool)
    (d : Executable) : Prop extends d.IsDispatcher where
  found : t.dispatcher? key = some d
  key_eq : d.key = key
  isStatic_eq : d.isStatic = isStatic
  byId_eq : r.byId? d.typeId = some t
  passes : ∀ target, t.executable key = .ok target → d.PassesTo r target

/-- A call of a method through its dispatcher has the effect of one of its current implementation. -/
theorem transparent_of_callOf {argc : Executable → Nat} {i i' : Instruction}
    (hr : vm.registry.WellFormed) (hcode : vm.registry.SoundCode)
    (hloaded : ∀ t ∈ vm.registry.types, t.Loaded config) (hg : g.Firm)
    (hs : (g.calling arguments heap).Sound vm.registry) (ht : t ∈ vm.registry.types)
    (hd : Relays vm.registry t key isStatic d) (hcount : arguments.length = d.argSlots)
    (hargc : ∀ target : Executable, target.argSlots = d.argSlots → argc target = arguments.length)
    (hearly : step vm e i (g.calling arguments heap) =
      callOf (dispatcher t key) isStatic argc (g.calling arguments heap))
    (hlate : step vm e i' (g.calling arguments heap) =
      callOf (implementation t key) isStatic argc (g.calling arguments heap)) :
    Transparent g (perform vm e i (g.calling arguments heap))
      (perform vm e i' (g.calling arguments heap)) := by
  have hearly : step vm e i (g.calling arguments heap) =
      .ok (.call d arguments.length) (g.calling arguments heap) := by
    have hfinds : dispatcher t key (g.calling arguments heap) = .ok d (g.calling arguments heap) :=
      require_eq_ok.mpr ⟨hd.found, rfl⟩
    rw [hearly, callOf_of_ok hfinds hd.isStatic_eq, hargc d rfl]
  have hperform : perform vm e i (g.calling arguments heap) = fun n =>
      (call vm n d arguments.length (g.calling arguments heap)).map (handBack d) := by
    funext n
    rw [perform, hearly, complete]
  have hkey := hd.key_eq
  cases hlookup : t.executable key with
  | error cause =>
    have hfails : implementation t key (g.calling arguments heap) =
        .error (.lookup cause) (g.calling arguments heap) := by
      rw [implementation, hlookup]
      rfl
    have hperform' : perform vm e i' (g.calling arguments heap) = fun _ =>
        some (.error (.lookup cause) (g.calling arguments heap)) := by
      funext n
      rw [perform, hlate, callOf, bind_of_error hfails]
      rfl
    rw [hperform, hperform']
    exact transparent_of_unresolved hg hd.toIsDispatcher hcount hd.byId_eq (hkey ▸ hlookup)
  | ok target =>
    have hpasses := hd.passes target hlookup
    have hfinds : implementation t key (g.calling arguments heap) =
        .ok target (g.calling arguments heap) := by
      rw [implementation, hlookup]
      rfl
    have hperform' : perform vm e i' (g.calling arguments heap) = fun n =>
        (call vm n target arguments.length (g.calling arguments heap)).map (handBack target) := by
      funext n
      rw [perform, hlate, callOf_of_ok hfinds (hpasses.isStatic_eq.trans hd.isStatic_eq),
        hargc target hpasses.argSlots_eq, complete]
    rw [hperform, hperform']
    exact transparent_of_passesTo hg hr hcode hloaded hs
      ⟨t, ht, key, .inl (LiveType.executable_eq_ok.mp hlookup)⟩ hpasses

end LiveTypes.Machine
