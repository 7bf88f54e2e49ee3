import LiveTypes.Proofs.Machine.Dispatch
import LiveTypes.Proofs.Registry.Lookup
import LiveTypes.Proofs.Registry.Request
import LiveTypes.Proofs.World.Basic

/-!
# Calling methods of types

A host calls a method of a type through the dispatchers of the first version. A key that the first
version does not declare has none, whatever later versions declare. Every other call finds what the type
gives for the key at the time of the call, once its receiver, its arguments and the room for them are
in order (`Reachable.resolves_routes`).
-/

namespace LiveTypes

/-- Whether a method returns a value is told by the last character of its key. -/
lemma Signature.returnsValue_eq (s : Signature) :
    s.returnsValue = decide (s.key.toList.getLast? ≠ some 'V') := by
  have hlast : s.key.toList.getLast? = s.descriptor.result.chars.getLast? := by
    have hsome : s.descriptor.result.chars.getLast?.isSome := by
      cases s.descriptor.result <;> simp [TypeDescriptor.chars]
    obtain ⟨c, hc⟩ := Option.isSome_iff_exists.mp hsome
    simp [key, MethodDescriptor.text, MethodDescriptor.chars, List.getLast?_cons, hc]
  rw [hlast, returnsValue]
  cases s.descriptor.result <;> simp [TypeDescriptor.chars, List.getLast?_cons]

namespace LiveType

variable {t : LiveType} {key : String} {receiver : Option ObjectId} {arguments : List Value}

def invocation (t : LiveType) (key : String) (receiver : Option ObjectId)
    (arguments : List Value) : Invocation :=
  match receiver with
  | none => .static t.name key arguments
  | some o => .method o t.name key arguments

def passed (t : LiveType) (receiver : Option ObjectId) (arguments : List Value) : List Value :=
  Machine.passed (receiver.map (.object · t.name)) arguments

/-- Whether a call of a method gets as far as looking up the implementation: it is made on the type or
on an instance as the method is static or not, gives the arguments that the method takes, and there is
room for the calls that it makes. -/
structure Arrives (m : MethodDecl) (limit : Nat) (receiver : Option ObjectId)
    (arguments : List Value) : Prop where
  kind : m.isStatic = receiver.isNone
  count : arguments.length = m.signature.paramCount
  depth : 0 < limit
  room : 2 * m.argSlots ≤ Stack.defaultLimit

/-- What comes of calls of a method that the first version declares. -/
structure Forwards (r : Registry) (t : LiveType) (m : MethodDecl) (limit : Nat) (h : Heap)
    (receiver : Option ObjectId) (arguments : List Value) : Prop where
  refused : ¬ Arrives m limit receiver arguments → ∃ cause : VmError, cause.IsRefusal ∧
    ∀ n, (t.invocation m.key receiver arguments).run ⟨r, limit⟩ (m.argSlots + n) h =
      some (.error cause, h)
  unresolved : Arrives m limit receiver arguments → ∀ cause, t.executable m.key = .error cause →
    ∀ n, (t.invocation m.key receiver arguments).run ⟨r, limit⟩ (m.argSlots + (n + 1)) h =
      some (.error (.lookup cause), h)
  resolved : Arrives m limit receiver arguments → ∀ target, t.executable m.key = .ok target →
    ∀ n, (t.invocation m.key receiver arguments).run ⟨r, limit⟩ (m.argSlots + (n + 2)) h =
      (Machine.call ⟨r, limit⟩ (n + 1) target m.argSlots
        (Machine.loading h (t.passed receiver arguments) m.argSlots)).map
          (Machine.handedBack target)

/-- Whether calls of a key come to what the first version and the current one say. -/
structure Routes (r : Registry) (t : LiveType) (key : String) : Prop where
  missing : ¬ t.initial.unit.Declares key → ∀ limit fuel h receiver arguments,
    (t.invocation key receiver arguments).run ⟨r, limit⟩ fuel h =
      some (.error (.lookup (.noSuchMember t.name key)), h)
  declared : t.initial.unit.Declares key → ∃ m ∈ t.initial.unit.methods, m.key = key ∧
    ∀ limit h receiver arguments, h.Sound r → (t.invocation key receiver arguments).Belongs h →
      t.Forwards r m limit h receiver arguments

end LiveType

namespace Machine

variable {vm : Machine} {t : LiveType} {key : String} {h : Heap} {receiver : Option ObjectId}
  {arguments : List Value} {d : Executable} {s : MachineState}

/-- Every call of a method of a type looks for its dispatcher first. -/
lemma run_invocation {fuel : Nat} : (t.invocation key receiver arguments).run vm fuel h =
    (invoke vm fuel (findDispatcher vm t.name key receiver.isNone)
      (receiver.map (.object · t.name)) arguments (startState h)).map outcome := by
  cases receiver <;> rfl

lemma findDispatcher_of_none (ht : vm.registry.find? t.name = some t)
    (hnone : t.dispatcher? key = none) (isStatic : Bool) :
    findDispatcher vm t.name key isStatic s =
      .error (.lookup (.noSuchMember t.name key)) s := by
  have hdispatcher : dispatcher t key s = .error (.lookup (.noSuchMember t.name key)) s := by
    rw [dispatcher, hnone]
    rfl
  rw [findDispatcher, Run.bind_of_ok (resolve_of_find? ht), Run.bind_of_error hdispatcher]

lemma findDispatcher_of_some (ht : vm.registry.find? t.name = some t)
    (hd : t.dispatcher? key = some d) (isStatic : Bool) :
    findDispatcher vm t.name key isStatic s =
      if d.isStatic = isStatic then .ok d s
      else .error (.typeError (.kind d.typeName d.key d.isStatic)) s := by
  have hdispatcher : dispatcher t key s = .ok d s := Run.require_eq_ok.mpr ⟨hd, rfl⟩
  rw [findDispatcher, Run.bind_of_ok (resolve_of_find? ht), Run.bind_of_ok hdispatcher, expectKind]
  split <;> rfl

end Machine

namespace LiveType

variable {r : Registry} {t : LiveType} {m : MethodDecl} {d : Executable} {key : String}
  {limit : Nat} {h : Heap} {receiver : Option ObjectId} {arguments : List Value}

lemma Dispatches.argSlots_eq (hd : t.Dispatches m d) : d.argSlots = m.argSlots := by
  rw [Executable.argSlots, hd.signature_eq, hd.isStatic_eq, MethodDecl.argSlots]

/-- A dispatcher is ready for the calls that get as far as looking up the implementation. -/
lemma Dispatches.ready_iff (hd : t.Dispatches m d) (hkind : m.isStatic = receiver.isNone) :
    (Machine.mk r limit).Ready d (t.passed receiver arguments) ↔
      Arrives m limit receiver arguments := by
  have hslots : m.argSlots = m.signature.paramCount + receiver.toList.length := by
    rw [MethodDecl.argSlots, hkind]
    cases receiver <;> rfl
  have hlength : (t.passed receiver arguments).length =
      arguments.length + receiver.toList.length := by
    rw [passed, Machine.passed, List.length_append, Nat.add_comm]
    cases receiver <;> rfl
  have hcount := hd.argSlots_eq.trans hslots
  constructor
  · rintro ⟨hready, hdepth, hroom⟩
    refine ⟨hkind, ?_, hdepth, ?_⟩
    · omega
    · rwa [← hd.argSlots_eq, ← hready]
  · rintro ⟨-, harguments, hdepth, hroom⟩
    have hready : (t.passed receiver arguments).length = d.argSlots := by omega
    exact ⟨hready, hdepth, by rwa [hready, hd.argSlots_eq]⟩

/-- A key that the first version does not declare is never found. -/
lemma invocation_missing (ht : r.find? t.name = some t) (hnone : t.dispatcher? key = none)
    (fuel : Nat) : (t.invocation key receiver arguments).run ⟨r, limit⟩ fuel h =
      some (.error (.lookup (.noSuchMember t.name key)), h) := by
  rw [Machine.run_invocation,
    Machine.invoke_of_find_error (Machine.findDispatcher_of_none ht hnone _)]
  rfl

/-- A call of a method that the first version declares goes through its dispatcher. -/
lemma Dispatches.forwards (hd : t.Dispatches m d) (hfound : t.dispatcher? m.key = some d)
    (hr : r.WellFormed) (hcode : r.SoundCode) (ht : t ∈ r.types) (hh : h.Sound r)
    (hbelongs : (t.invocation m.key receiver arguments).Belongs h)
    (hsignature : ∀ target, t.executable m.key = .ok target → target.signature.key = m.key) :
    t.Forwards r m limit h receiver arguments := by
  have hfind : r.find? t.name = some t := hr.find?_name ht
  have hbyId : r.byId? d.typeId = some t := hd.typeId_eq ▸ hr.byId?_id ht
  by_cases hkind : m.isStatic = receiver.isNone
  swap
  · refine ⟨fun _ => ⟨.typeError (.kind d.typeName d.key d.isStatic), trivial, fun n => ?_⟩,
      fun harrives => absurd harrives.kind hkind, fun harrives => absurd harrives.kind hkind⟩
    have hwrong : Machine.findDispatcher ⟨r, limit⟩ t.name m.key receiver.isNone
        (Machine.startState h) = .error (.typeError (.kind d.typeName d.key d.isStatic))
          (Machine.startState h) := by
      rw [Machine.findDispatcher_of_some hfind hfound, if_neg (hd.isStatic_eq ▸ hkind)]
    rw [Machine.run_invocation, Machine.invoke_of_find_error hwrong]
    rfl
  have hdispatcher : Machine.findDispatcher ⟨r, limit⟩ t.name m.key receiver.isNone
      (Machine.startState h) = .ok d (Machine.startState h) := by
    rw [Machine.findDispatcher_of_some hfind hfound, if_pos (hd.isStatic_eq.trans hkind)]
  have hvalues : ∀ v ∈ t.passed receiver arguments, h.Holds v := by
    cases receiver with
    | none => exact hbelongs
    | some o => exact List.forall_mem_cons.mpr ⟨hbelongs.1, hbelongs.2⟩
  constructor
  · intro hnot
    obtain ⟨cause, hcause, hrefused⟩ := Machine.invoke_refused hdispatcher hd.toIsDispatcher
      fun hready => hnot ((hd.ready_iff hkind).mp hready)
    refine ⟨cause, hcause, fun n => ?_⟩
    rw [Machine.run_invocation, ← hd.argSlots_eq]
    exact hrefused n
  · intro harrives cause hcause n
    rw [Machine.run_invocation, ← hd.argSlots_eq]
    exact Machine.invoke_unresolved hdispatcher hd.toIsDispatcher
      ((hd.ready_iff hkind).mpr harrives) hbyId (hd.key_eq ▸ hcause)
  · intro harrives target htarget n
    have hbody : r.HasBody target := ⟨t, ht, m.key, .inl (executable_eq_ok.mp htarget)⟩
    have hsame : target.signature.returnsValue = d.signature.returnsValue := by
      rw [Signature.returnsValue_eq, hsignature target htarget, hd.signature_eq,
        Signature.returnsValue_eq]
      rfl
    rw [← hd.key_eq] at htarget
    rw [Machine.run_invocation, ← hd.argSlots_eq]
    exact Machine.invoke_resolved hdispatcher hcode hh hvalues hd.toIsDispatcher
      ((hd.ready_iff hkind).mpr harrives) hbyId htarget hbody hsame

end LiveType

namespace World

variable {w : World} {config : RegistryConfig}

/-- Whatever is asked of a registry, accepted or refused, every type gives for each key what its
versions say, and calls from a host come to that when the first version declares the key, as long as
no two versions of a type with different bytes have one digest. -/
theorem Reachable.resolves_routes (h : Reachable config w) (hverify : config.verify = true)
    (requests : List Registry.Request) (hfree : (w.registry.serveAll requests).CollisionFree)
    {t : LiveType} (ht : t ∈ (w.registry.serveAll requests).types) (key : String) :
    t.Resolves key ∧ t.Routes (w.registry.serveAll requests) key := by
  have hafter := (h.leads (w.registry.leads_serveAll requests)).registry
  have hr := hafter.wellFormed hverify
  have hloaded := hafter.loaded t ht
  have hbounded := TypeUnit.bounded_of_read ((hr.types t ht).genuine _ List.mem_cons_self).admitted
  have hresolves := hafter.resolves hverify hfree ht key
  refine ⟨hresolves, ?_, ?_⟩
  · intro hnot limit fuel heap receiver arguments
    refine LiveType.invocation_missing (hr.find?_name ht) ?_ fuel
    rw [Option.eq_none_iff_forall_ne_some]
    intro d hd
    obtain ⟨m, hm, hkey, -⟩ := hloaded.dispatches hbounded hd
    exact hnot ⟨m, hm, hkey⟩
  · intro hdeclares
    obtain ⟨d, hd⟩ := hloaded.exists_dispatcher hdeclares
    obtain ⟨m, hm, rfl, hdispatches⟩ := hloaded.dispatches hbounded hd
    refine ⟨m, hm, rfl, fun limit heap receiver arguments hheap hbelongs => ?_⟩
    refine hdispatches.forwards hd hr (hafter.soundCode hverify) ht hheap hbelongs ?_
    intro target htarget
    obtain ⟨m', -, hkey, hrewrites⟩ := hresolves.rewrites target htarget
    exact (congrArg Signature.key hrewrites.signature_eq).trans hkey

/-- A version of the type that divides by two instead. -/
def halver : TypeUnit := { divider with
  methods := [⟨⟨"half", ⟨[], .i32⟩⟩, staticMethod, [], 0, Instruction.encodeAll
    [⟨0, .constI32, .i32 8⟩, ⟨5, .constI32, .i32 2⟩, ⟨10, .idiv, .none⟩, ⟨11, .ret, .none⟩]⟩] }

/-- A type is registered, and its method replaced at the second attempt. -/
def replacement : List Registry.Request :=
  [.single (.register "a.D" divider.encode), .single (.reload "a.D" "empty" []),
    .single (.reload "a.D" "half" halver.encode)]

set_option maxRecDepth 100000 in
/-- A method that was removed and one that was added. -/
theorem resolves_routes_replaced :
    ∃ r t, r = (Registry.create .default).serveAll replacement ∧ t ∈ r.types ∧
      t.executable "div()I" = .error (.removed "a.D" "div()I") ∧
      t.current.unit.Declares "half()I" ∧ ¬ t.initial.unit.Declares "half()I" ∧
      (t.Resolves "div()I" ∧ t.Routes r "div()I") ∧ t.Resolves "half()I" ∧ t.Routes r "half()I" := by
  have hfacts : ((Registry.create .default).serveAll replacement).CollisionFree ∧
      (((Registry.create .default).serveAll replacement).find? "a.D").any (fun t =>
        t.executable "div()I" = .error (.removed "a.D" "div()I") ∧
          t.current.unit.Declares "half()I" ∧ ¬ t.initial.unit.Declares "half()I") = true := by
    decide +kernel
  obtain ⟨hfree, hfacts⟩ := hfacts
  obtain ⟨t, hfind, hfacts⟩ := (Option.any_eq_true _ _).mp hfacts
  obtain ⟨hremoved, hadded, hnew⟩ := of_decide_eq_true hfacts
  have ht := Registry.mem_of_find? hfind
  have hempty : Reachable .default ⟨.create .default, .empty⟩ := .refl
  exact ⟨_, t, rfl, ht, hremoved, hadded, hnew,
    hempty.resolves_routes rfl replacement hfree ht "div()I",
    hempty.resolves_routes rfl replacement hfree ht "half()I"⟩

end World

end LiveTypes
