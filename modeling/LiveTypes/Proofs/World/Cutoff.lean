import LiveTypes.Proofs.Machine.Cutoff
import LiveTypes.Proofs.World.Link

/-!
# The limit of depth, seen by a host

The limit only cuts off: what a host calls comes to the same result and leaves the same objects under
every greater limit, unless calls were nested too deep. And it fails for depth only when as many calls
were open as the limit allows (`depth_limit_cuts_off`).
-/

namespace LiveTypes

namespace Run.Composes

variable {P : {α : Type} → Run α → Prop} (h : Composes P) {vm : Machine}
include h

lemma prepare (target : Executable) (receiver : Option Value) (arguments : List Value) :
    P (Machine.prepare target receiver arguments) := by
  have hpushAll (values : List Value) : P (Machine.pushAll values) := by
    induction values with
    | nil => exact h.pure ()
    | cons v rest ih => exact h.bind (h.push v) fun _ => ih
  have hpush : P (do
      Machine.pushAll (receiver.toList ++ arguments)
      return arguments.length + receiver.toList.length) :=
    h.bind (hpushAll _) fun _ => h.pure _
  unfold Machine.prepare
  dsimp only
  split
  · exact h.bind (h.throw _ rfl) fun _ => hpush
  · exact hpush

lemma find (call : Invocation) : P (call.find vm) := by
  have hdispatcher (typeName key : String) (isStatic : Bool) :
      P (Machine.findDispatcher vm typeName key isStatic) := by
    refine h.bind (h.resolve typeName) fun t => h.bind (h.dispatcher t key) fun target => ?_
    exact h.bind (h.expectKind target isStatic) fun _ => h.pure target
  cases call with
  | static typeName key arguments => exact hdispatcher typeName key true
  | method receiver typeName key arguments => exact hdispatcher typeName key false
  | closure object c key arguments => exact h.closureTarget c key

end Run.Composes

namespace Invocation

open Run

variable {vm : Machine} {h : Heap} {call : Invocation} {target : Executable} {argc : Nat}
  {s s₁ : MachineState}

/-- What a host calls is a dispatcher or an implementation of a registered type. -/
lemma gives_find (call : Invocation) : Gives vm.registry.HasBody (call.find vm) := by
  have hdispatcher (typeName key : String) (isStatic : Bool) :
      Gives vm.registry.HasBody (Machine.findDispatcher vm typeName key isStatic) := by
    refine (Machine.gives_resolve typeName).bind fun t ht => ?_
    refine (Machine.gives_dispatcher ht key).bind fun target htarget => ?_
    exact gives_of_last fun _ => gives_pure htarget
  cases call with
  | static typeName key arguments => exact hdispatcher typeName key true
  | method receiver typeName key arguments => exact hdispatcher typeName key false
  | closure object c key arguments => exact Machine.gives_closureTarget c key

/-- Whether a host finds a body for a call and gets its arguments ready. -/
def Prepares (vm : Machine) (h : Heap) (call : Invocation) (target : Executable) (argc : Nat)
    (s : MachineState) : Prop :=
  ∃ s₁, call.find vm (Machine.startState h) = .ok target s₁ ∧
    Machine.prepare target call.receiver? call.arguments s₁ = .ok argc s

/-- Calls that are made while an invocation runs, with the bodies whose calls are open then, the
innermost first: that of the host, and those of the code. -/
inductive Calls (vm : Machine) (h : Heap) (call : Invocation) :
    List Executable → Executable → Nat → MachineState → Prop
  | host {target : Executable} {argc : Nat} {s : MachineState}
      (prepares : call.Prepares vm h target argc s) : Calls vm h call [] target argc s
  | code {body target : Executable} {argc argc' : Nat} {s₀ s₁ s : MachineState}
      {bodies : List Executable} {p : Machine.Point} {i : Instruction}
      (prepares : call.Prepares vm h body argc s₀)
      (entered : Machine.enter vm body argc s₀ = .ok () s₁)
      (nests : Machine.Point.Nests vm ⟨body, 0, s₁⟩ bodies p)
      (fetched : Machine.fetch p.body p.offset = .ok i)
      (done : Machine.step vm p.body i p.state = .ok (.call target argc') s) :
      Calls vm h call bodies target argc' s

lemma Prepares.stacked (h₀ : call.Prepares vm h target argc s) : Machine.Stacked vm [] s := by
  obtain ⟨s₁, hfound, hprepared⟩ := h₀
  have hstart : Machine.Stacked vm [] (Machine.startState h) :=
    ⟨nofun, rfl, rfl, Nat.zero_le _, Nat.le_refl 0⟩
  exact (hstart.contained (composes_contained.find call) hfound).contained
    (composes_contained.prepare _ _ _) hprepared

/-- The bodies whose calls are open are those of the frames that are open. -/
theorem Calls.stacked {bodies : List Executable} (hcalls : call.Calls vm h bodies target argc s) :
    Machine.Stacked vm bodies s := by
  cases hcalls with
  | host prepares => exact prepares.stacked
  | code prepares entered nests fetched done =>
    have hbody := gives_find call _ _ _ prepares.choose_spec.1
    have hstart := prepares.stacked.enter hbody entered
    exact (nests.stacked hstart).contained (composes_contained.step vm _ _) done

/-- What an invocation comes to: it fails before anything is called, for another reason than depth and
under every limit, or it is the call of a body. -/
lemma run_cases {r : Registry} {d fuel : Nat} {o : Except VmError Value × Heap}
    (hrun : call.run ⟨r, d⟩ fuel h = some o) :
    (∃ cause, o.1 = .error cause ∧ cause.isCutoff = false ∧
      ∀ d', call.run ⟨r, d'⟩ fuel h = some o) ∨
    ∃ target argc s res, call.Prepares ⟨r, d⟩ h target argc s ∧
      Machine.call ⟨r, d⟩ fuel target argc s = some res ∧ o = Machine.outcome res ∧
      ∀ d', call.run ⟨r, d'⟩ fuel h =
        (Machine.call ⟨r, d'⟩ fuel target argc s).map Machine.outcome := by
  have hfind (d' : Nat) : call.find ⟨r, d'⟩ = call.find ⟨r, d⟩ := by cases call <;> rfl
  simp only [run_eq, Machine.invoke, hfind] at hrun ⊢
  obtain ⟨res, hres, rfl⟩ := Option.map_eq_some_iff.mp hrun
  cases hfound : call.find ⟨r, d⟩ (Machine.startState h) with
  | error cause s₁ =>
    rw [bind_of_error hfound] at hres ⊢
    obtain rfl := Option.some.inj hres
    exact .inl ⟨cause, rfl, composes_uncut.find call _ _ _ hfound, fun _ => rfl⟩
  | ok target s₁ =>
    rw [bind_of_ok hfound] at hres ⊢
    cases hprepared : Machine.prepare target call.receiver? call.arguments s₁ with
    | error cause s₂ =>
      rw [bind_of_error hprepared] at hres ⊢
      obtain rfl := Option.some.inj hres
      exact .inl ⟨cause, rfl, composes_uncut.prepare _ _ _ _ _ _ hprepared, fun _ => rfl⟩
    | ok argc s₂ =>
      rw [bind_of_ok hprepared] at hres ⊢
      exact .inr ⟨target, argc, s₂, res, ⟨s₁, hfound, hprepared⟩, hres, rfl, fun _ => rfl⟩

/-- An invocation that is cut off made a call that was refused for depth. -/
lemma exists_refused {fuel : Nat} {cause : VmError} {heap : Heap}
    (hrun : call.run vm fuel h = some (.error cause, heap)) (hcut : cause.isCutoff = true) :
    ∃ bodies target argc s, call.Calls vm h bodies target argc s ∧
      Machine.enter vm target argc s = .error cause s := by
  obtain ⟨r, d⟩ := vm
  rcases run_cases hrun with ⟨cause', heq, hnot, -⟩ | ⟨target, argc, s, res, hprepares, hcall, hout, -⟩
  · obtain rfl := Except.error.inj heq
    rw [hnot] at hcut
    cases hcut
  · obtain ⟨s', rfl⟩ : ∃ s', res = .error cause s' := by
      cases res with
      | ok v s' => cases hout
      | error cause' s' =>
        obtain ⟨he, -⟩ := Prod.mk.inj hout
        exact ⟨s', by rw [Except.error.inj he]⟩
    rcases Machine.call_cases hcall with ⟨cause', hrefused, heq⟩ | ⟨s₁, res₁, hentered, hres₁, heq, -⟩
    · obtain ⟨rfl, -⟩ := EStateM.Result.error.inj heq
      exact ⟨[], target, argc, s, .host hprepares, hrefused⟩
    · cases res₁ with
      | ok v s₂ => cases heq
      | error cause' s₂ =>
        obtain ⟨rfl, -⟩ := EStateM.Result.error.inj heq
        obtain ⟨bodies, p, i, target', argc', s₃, hnests, hfetched, hdone, hrefused⟩ :=
          Machine.exists_refused_of_run .start hres₁ hcut
        exact ⟨bodies, target', argc', s₃, .code hprepares hentered hnests hfetched hdone, hrefused⟩

/-- The limit of depth only cuts off. What an invocation comes to under one limit, with the objects that
it leaves, it comes to under every greater one, unless its calls were nested too deep. And if they were,
the failure names the limit, and there was a call to be refused while as many calls were open as the
limit allows, each of a dispatcher or an implementation and each with a frame of its own. -/
theorem depth_limit_cuts_off (r : Registry) (h : Heap) (call : Invocation) (fuel d d' : Nat)
    (hle : d ≤ d') (o : Except VmError Value × Heap) (hrun : call.run ⟨r, d⟩ fuel h = some o) :
    ((∀ n, o.1 ≠ .error (.callDepthExceeded n)) → call.run ⟨r, d'⟩ fuel h = some o) ∧
    ∀ n, o.1 = .error (.callDepthExceeded n) → n = d ∧
      ∃ bodies target argc s, call.Calls ⟨r, d⟩ h bodies target argc s ∧
        Machine.enter ⟨r, d⟩ target argc s = .error (.callDepthExceeded d) s ∧
        bodies.length = d ∧ s.stack.frames.length = d ∧ s.depth = d ∧ ∀ e ∈ bodies, r.HasBody e := by
  refine ⟨fun hcut => ?_, fun n hn => ?_⟩
  · rcases run_cases hrun with ⟨-, -, -, hsame⟩ | ⟨target, argc, s, res, -, hcall, rfl, hgreater⟩
    · exact hsame d'
    · have hnot : ¬ Machine.IsCut res := by
        intro hres
        cases res with
        | ok v s' => exact hres
        | error cause s' =>
          cases cause with
          | callDepthExceeded n => exact hcut n rfl
          | _ => cases hres
      rw [hgreater, Machine.call_of_limit_le hle (fun _ _ => Machine.run_of_limit_le hle) hcall hnot]
      rfl
  · obtain ⟨outcome, heap⟩ := o
    obtain rfl : outcome = _ := hn
    obtain ⟨bodies, target, argc, s, hcalls, hrefused⟩ := exists_refused hrun rfl
    obtain ⟨hdepth, hlimit⟩ := (Machine.enter_eq_error hrefused).2 rfl
    obtain rfl : d = n := (VmError.callDepthExceeded.inj hlimit).symm
    have hstacked := hcalls.stacked
    have hdepth_eq : s.depth = d := Nat.le_antisymm hstacked.depth_le hdepth
    have hlength : bodies.length = d := hstacked.depth_eq.symm.trans hdepth_eq
    refine ⟨rfl, bodies, target, argc, s, hcalls, hrefused, hlength, ?_, hdepth_eq,
      hstacked.bodies_have⟩
    have hframes := congrArg List.length hstacked.frames_eq
    rw [List.length_map, List.length_map] at hframes
    exact hframes.trans hlength

/-- A method that calls itself once more when its argument is true. -/
def onceMore : TypeUnit where
  formatFlags := 0
  name := "a.R"
  superName := none
  access := Access.isPublic
  constants := ⟨#["a.R", "down(Z)I"], [], []⟩
  fields := []
  methods := [⟨⟨"down", ⟨[.bool], .i32⟩⟩, staticMethod, [], 1, Instruction.encodeAll
    [⟨0, .loadLocal, .localSlot 0⟩, ⟨3, .jmpIfFalse, .jump 11⟩, ⟨8, .constFalse, .none⟩,
      ⟨9, .invokeStatic, .pair 0 1⟩, ⟨18, .ret, .none⟩, ⟨19, .constI32, .i32 7⟩, ⟨24, .ret, .none⟩]⟩]
  attributes := []

/-- A host's call of it. -/
abbrev descent : Invocation := .static "a.R" "down(Z)I" [.bool true]

set_option maxRecDepth 100000 in
/-- Two dispatchers and two implementations: a limit of four lets them run, and one of three refuses the
last. -/
theorem depth_limit_cuts_off_recursion :
    ∃ r heap, (Registry.create .default).replay [.register "a.R" onceMore.encode] = some r ∧
      4 ≤ 9 ∧ descent.run ⟨r, 4⟩ 20 .empty = some (.ok (.i32 7), heap) ∧
      descent.run ⟨r, 9⟩ 20 .empty = some (.ok (.i32 7), heap) ∧
      ∃ bodies target argc s, descent.Calls ⟨r, 3⟩ .empty bodies target argc s ∧
        Machine.enter ⟨r, 3⟩ target argc s = .error (.callDepthExceeded 3) s ∧ bodies.length = 3 ∧
        s.stack.frames.length = 3 ∧ s.depth = 3 ∧ ∀ e ∈ bodies, r.HasBody e := by
  have hfacts : ((Registry.create .default).replay [.register "a.R" onceMore.encode]).any (fun r =>
      (descent.run ⟨r, 4⟩ 20 .empty).map Prod.fst = some (.ok (.i32 7)) ∧
      (descent.run ⟨r, 3⟩ 20 .empty).map Prod.fst =
        some (.error (.callDepthExceeded 3))) = true := by
    decide +kernel
  obtain ⟨r, hr, hfacts⟩ := (Option.any_eq_true _ _).mp hfacts
  obtain ⟨hvalue, hcut⟩ := of_decide_eq_true hfacts
  obtain ⟨⟨_, heap⟩, hfour, rfl⟩ := Option.map_eq_some_iff.mp hvalue
  obtain ⟨⟨_, heap'⟩, hthree, rfl⟩ := Option.map_eq_some_iff.mp hcut
  refine ⟨r, heap, hr, by decide, hfour, ?_, ?_⟩
  · exact (depth_limit_cuts_off r .empty _ 20 4 9 (by decide) _ hfour).1 nofun
  · exact ((depth_limit_cuts_off r .empty _ 20 3 3 (by decide) _ hthree).2 3 rfl).2

end Invocation

end LiveTypes
