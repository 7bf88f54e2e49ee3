import LiveTypes.Proofs.Machine.Transparency
import LiveTypes.Proofs.World.Lookup

/-!
# Early and late calls of a type

The dispatcher of a method comes to whatever its type gives for the key, after any reloads. So a call
that is bound early has the effect of one that is bound late (`Reachable.dispatch_transparent`), as long
as the versions of the type agree on how many arguments the key takes: a name with a bracket makes a key
that can be read in two ways.
-/

namespace LiveTypes

/-- Whether a key is read as a signature that has the parameters of each method of a type under the key,
in whatever version. -/
structure LiveType.ReadsAs (t : LiveType) (key : String) (signature : Signature) : Prop where
  parsed : Signature.parseKey key = .ok signature
  params : ∀ v ∈ t.versions, ∀ m ∈ v.unit.methods, m.key = key →
    m.signature.paramCount = signature.paramCount

namespace Registry

variable {r : Registry} {config : RegistryConfig} {t : LiveType} {m : MethodDecl}
  {signature : Signature}

/-- A method of the first version has a dispatcher, which passes to whatever implements it. -/
lemma Reachable.exists_relays (h : Reachable config r) (hverify : config.verify = true)
    (ht : t ∈ r.types) (hm : m ∈ t.initial.unit.methods) (hreads : t.ReadsAs m.key signature) :
    ∃ d, d.argSlots = m.argSlots ∧ Machine.Relays r t m.key m.isStatic d := by
  have hr := h.wellFormed hverify
  have hinitial := (hr.types t ht).genuine _ List.mem_cons_self
  have hloaded := h.loaded t ht
  obtain ⟨d, hd⟩ := hloaded.exists_dispatcher ⟨m, hm, rfl⟩
  obtain ⟨m₁, hm₁, hkey₁, hdispatches⟩ :=
    hloaded.dispatches (TypeUnit.bounded_of_read hinitial.admitted) hd
  obtain rfl : m₁ = m := List.inj_on_of_nodup_map hinitial.verified.methods_nodup hm₁ hm hkey₁
  have hbyId : r.byId? d.typeId = some t := hdispatches.typeId_eq ▸ hr.byId?_id ht
  refine ⟨d, hdispatches.argSlots_eq, hdispatches.toIsDispatcher, hd, hdispatches.key_eq,
    hdispatches.isStatic_eq, hbyId, fun target htarget => ?_⟩
  obtain ⟨v, cx, redirected, hpublishes, hknows⟩ := h.knows_published hverify t ht
  obtain ⟨m', hm', hkey, m'', -, s, s', hmethod, rfl⟩ :=
    hpublishes.method_of_find? (LiveType.executable_eq_ok.mp htarget)
  have hsame := Redirection.method_eq hmethod
  have hsignature : m''.signature = m'.signature := by rw [hsame]
  have hkind : m''.isStatic = m₁.isStatic := by
    have hknown := hknows.method m' hm'
    rw [hkey, (hr.types t ht).initial_known.method m₁ hm₁] at hknown
    rw [hsame]
    exact (Option.some.inj hknown).symm
  refine ⟨hdispatches.toIsDispatcher, ⟨t, hbyId, hdispatches.key_eq ▸ htarget⟩, ?_, ?_, ?_, ?_⟩
  · rw [hdispatches.key_eq, ← hkey]
    exact congrArg Signature.key hsignature
  · rw [hdispatches.argSlots_eq]
    show m''.signature.paramCount + (if m''.isStatic then 0 else 1) = _
    rw [hsignature, hreads.params v hpublishes.mem m' hm' hkey, hkind, MethodDecl.argSlots,
      hreads.params _ List.mem_cons_self m₁ hm₁ rfl]
  · exact hkind.trans hdispatches.isStatic_eq.symm
  · show m''.signature.returnsValue = d.signature.returnsValue
    have hkeys : m'.signature.key = m₁.signature.key := hkey
    rw [hsignature, hdispatches.signature_eq, Signature.returnsValue_eq, Signature.returnsValue_eq,
      hkeys]

/-- Whatever was registered and reloaded, a call of a method that the first version of its type declares
has the same effect through the dispatcher as on the current implementation, over all the arguments that
the key takes, as long as all versions agree on those. So a run goes on from the same state after
either. -/
theorem Reachable.dispatch_transparent (h : Reachable config r) (hverify : config.verify = true)
    (ht : t ∈ r.types) (hm : m ∈ t.initial.unit.methods) (hreads : t.ReadsAs m.key signature)
    {e : Executable} {a b : UInt32} (ha : e.constants.string? a = some t.name)
    (hb : e.constants.string? b = some m.key) (limit offset : Nat) {g : Ground} (hg : g.Firm)
    {arguments : List Value} {heap : Heap} (hs : (g.calling arguments heap).Sound r)
    (hcount : arguments.length = signature.paramCount + if m.isStatic then 0 else 1) :
    Machine.Interchangeable ⟨r, limit⟩ e g
      ⟨offset, if m.isStatic then .invokeStatic else .invokeVirtual, .pair a b⟩
      ⟨offset, if m.isStatic then .invokeDynamicStatic else .invokeDynamicVirtual, .pair a b⟩
      (g.calling arguments heap) := by
  have hr := h.wellFormed hverify
  obtain ⟨d, hslots, hd⟩ := h.exists_relays hverify ht hm hreads
  have hargs : arguments.length = d.argSlots := by
    rw [hcount, hslots, MethodDecl.argSlots, hreads.params _ List.mem_cons_self m hm rfl]
  have hcalls {i i' : Instruction} {argc : Executable → Nat} :=
    @Machine.transparent_of_callOf ⟨r, limit⟩ e d g heap arguments t m.key m.isStatic config argc i i'
      hr (h.soundCode hverify) h.loaded hg hs ht hd hargs
  have hfind : r.find? t.name = some t := hr.find?_name ht
  refine Machine.Transparent.interchangeable ?_
  cases hkind : m.isStatic with
  | true =>
    rw [hkind] at hcalls
    rcases @Machine.invokeStatic_cases ⟨r, limit⟩ e (g.calling arguments heap) t m.key a b ha hb hfind
      with ⟨cause, hfails⟩ | hcall
    · exact Machine.transparent_of_error (hfails false) (hfails true)
    · exact hcalls (fun target htarget => htarget.trans hargs.symm) (hcall false) (hcall true)
  | false =>
    rw [hkind] at hcalls
    rcases @Machine.invokeVirtual_cases ⟨r, limit⟩ e (g.calling arguments heap) t m.key a b signature
      ha hb hfind hreads.parsed with ⟨cause, hfails⟩ | hcall
    · exact Machine.transparent_of_error (hfails false) (hfails true)
    · refine hcalls (fun target htarget => ?_) (hcall false) (hcall true)
      rw [hcount, hkind]
      rfl

/-- Code that calls a method of a type. -/
def caller (owner key : String) : Executable where
  key := "run()V"
  signature := ⟨"run", ⟨[], .void⟩⟩
  isStatic := true
  typeId := 0
  typeName := "a.C"
  unitName := "a.C"
  version := 0
  locals := 0
  throws := []
  code := .ofBytes (Instruction.encodeAll [⟨0, .invokeStatic, .pair 0 1⟩, ⟨9, .ret, .none⟩])
  constants := ⟨#[owner, key], [], []⟩

lemma has_caller (owner key : String) :
    (caller owner key).Has ⟨0, .invokeStatic, .pair 0 1⟩ := by
  have hdecoded : Instruction.decodeAll
      (Instruction.encodeAll [⟨0, .invokeStatic, .pair 0 1⟩, ⟨9, .ret, .none⟩]) =
      .ok [⟨0, .invokeStatic, .pair 0 1⟩, ⟨9, .ret, .none⟩] := by
    decide +kernel
  exact ⟨_, hdecoded, List.mem_cons_self⟩

def soleMethod (m : MethodDecl) : TypeUnit where
  formatFlags := 0
  name := "a.T"
  superName := none
  access := Access.isPublic
  constants := .empty
  fields := []
  methods := [m]
  attributes := []

/-- The registration of a type with one method, and a reload with another. -/
def revision (m m' : MethodDecl) : List Operation :=
  [.register "a.T" (soleMethod m).encode, .reload "a.T" "two" (soleMethod m').encode]

def scale (n : Int32) : MethodDecl where
  signature := ⟨"scale", ⟨[.i32], .i32⟩⟩
  flags := staticMethod
  throws := []
  locals := 1
  code := Instruction.encodeAll [⟨0, .loadLocal, .localSlot 0⟩, ⟨3, .constI32, .i32 n⟩,
    ⟨8, .imul, .none⟩, ⟨9, .ret, .none⟩]

/-- Arguments on the stack of a host. -/
abbrev hosting (arguments : List Value) : MachineState :=
  Machine.hostGround.calling arguments .empty

lemma sound_hosting (r : Registry) {arguments : List Value}
    (h : ∀ v ∈ arguments, Heap.empty.Holds v) : (hosting arguments).Sound r :=
  ⟨Heap.sound_empty r, fun v hv => h v (List.mem_toArray.mp hv), Nat.zero_le _⟩

set_option maxRecDepth 100000 in
/-- A method with an argument, that was replaced before it is called. -/
theorem dispatch_transparent_scaled :
    ∃ r t, (Registry.create .default).replay (revision (scale 2) (scale 3)) = some r ∧
      t ∈ r.types ∧ scale 2 ∈ t.initial.unit.methods ∧
      t.ReadsAs "scale(I)I" ⟨"scale", ⟨[.i32], .i32⟩⟩ ∧
      (caller t.name "scale(I)I").Has ⟨0, .invokeStatic, .pair 0 1⟩ ∧
      Machine.Interchangeable ⟨r, 256⟩ (caller t.name "scale(I)I") Machine.hostGround
        ⟨0, .invokeStatic, .pair 0 1⟩ ⟨0, .invokeDynamicStatic, .pair 0 1⟩ (hosting [.i32 7]) := by
  have hfacts : ((Registry.create .default).replay (revision (scale 2) (scale 3))).any (fun r =>
      (r.find? "a.T").any fun t => scale 2 ∈ t.initial.unit.methods ∧
        ∀ v ∈ t.versions, ∀ m ∈ v.unit.methods, m.key = "scale(I)I" →
          m.signature.paramCount = 1) = true := by
    decide +kernel
  obtain ⟨r, hr, hfacts⟩ := (Option.any_eq_true _ _).mp hfacts
  obtain ⟨t, hfind, hfacts⟩ := (Option.any_eq_true _ _).mp hfacts
  obtain ⟨hm, hparams⟩ := of_decide_eq_true hfacts
  have ht := mem_of_find? hfind
  have hreads : t.ReadsAs "scale(I)I" ⟨"scale", ⟨[.i32], .i32⟩⟩ :=
    ⟨by decide +kernel, hparams⟩
  have hs : (hosting [.i32 7]).Sound r := sound_hosting r (by simp [Heap.Holds])
  have hreachable : Reachable .default r := leads_of_replay hr
  have hfirm : Machine.hostGround.Firm := Nat.zero_le 0
  refine ⟨r, t, hr, ht, hm, hreads, has_caller t.name "scale(I)I", ?_⟩
  exact hreachable.dispatch_transparent rfl ht hm hreads rfl rfl 256 0 hfirm hs rfl

def giving (name : String) (params : List TypeDescriptor) (n : Int32) : MethodDecl where
  signature := ⟨name, ⟨params, .i32⟩⟩
  flags := staticMethod
  throws := []
  locals := UInt16.ofNat params.length
  code := Instruction.encodeAll [⟨0, .constI32, .i32 n⟩, ⟨5, .ret, .none⟩]

/-- Methods of one key, which has a second bracket: `f(ILa` with one parameter and `f` with two. -/
def ambiguous : List Operation :=
  revision (giving "f(ILa" [.object "b"] 7) (giving "f" [.i32, .object "a(Lb"] 5)

def failure? : Machine.FlowResult → Option VmError
  | .ok _ _ => none
  | .error cause _ => some cause

set_option maxRecDepth 100000 in
/-- A key that two versions read in two ways: a late call finds the method that takes both arguments,
and an early one does not get past the dispatcher. -/
theorem not_transparent_ambiguous :
    ∃ r t m signature, (Registry.create .default).replay ambiguous = some r ∧ t ∈ r.types ∧
      m ∈ t.initial.unit.methods ∧ Signature.parseKey m.key = .ok signature ∧
      (caller t.name m.key).constants.string? 0 = some t.name ∧
      (caller t.name m.key).constants.string? 1 = some m.key ∧ Machine.hostGround.Firm ∧
      (hosting [.i32 1, .null]).Sound r ∧ m.isStatic = true ∧ signature.paramCount = 2 ∧
      ¬ Machine.Transparent Machine.hostGround
        (Machine.perform ⟨r, 256⟩ (caller t.name m.key) ⟨0, .invokeStatic, .pair 0 1⟩
          (hosting [.i32 1, .null]))
        (Machine.perform ⟨r, 256⟩ (caller t.name m.key) ⟨0, .invokeDynamicStatic, .pair 0 1⟩
          (hosting [.i32 1, .null])) := by
  have hfacts : ((Registry.create .default).replay ambiguous).any (fun r =>
      (r.find? "a.T").any fun t => giving "f(ILa" [.object "b"] 7 ∈ t.initial.unit.methods ∧
        (Machine.perform ⟨r, 256⟩ (caller t.name "f(ILa(Lb;)I") ⟨0, .invokeStatic, .pair 0 1⟩
          (hosting [.i32 1, .null]) 5).map failure? =
            some (some (.typeError (.argumentSlots "f(ILa(Lb;)I" 2 1))) ∧
        (Machine.perform ⟨r, 256⟩ (caller t.name "f(ILa(Lb;)I") ⟨0, .invokeDynamicStatic, .pair 0 1⟩
          (hosting [.i32 1, .null]) 5).map failure? = some none) = true := by
    decide +kernel
  obtain ⟨r, hr, hfacts⟩ := (Option.any_eq_true _ _).mp hfacts
  obtain ⟨t, hfind, hfacts⟩ := (Option.any_eq_true _ _).mp hfacts
  obtain ⟨hm, hearly, hlate⟩ := of_decide_eq_true hfacts
  obtain ⟨res, hres, hfailure⟩ := Option.map_eq_some_iff.mp hearly
  obtain ⟨res', hres', hnone⟩ := Option.map_eq_some_iff.mp hlate
  have hs : (hosting [.i32 1, .null]).Sound r := sound_hosting r (by simp [Heap.Holds])
  refine ⟨r, t, _, ⟨"f", ⟨[.i32, .object "a(Lb"], .i32⟩⟩, hr, mem_of_find? hfind, hm, by decide +kernel,
    rfl, rfl, Nat.zero_le 0, hs, rfl, rfl, fun htransparent => ?_⟩
  -- The late call does not fail, and the early one only comes to its failure.
  cases res' with
  | error cause s' => cases hnone
  | ok flow s' =>
    rcases htransparent.back 5 _ hres' with hfull | ⟨k, out, hout, heffect⟩
    · exact hfull
    obtain rfl := Machine.perform_unique hres hout
    rcases heffect with hfull | hsame
    · cases res with
      | ok flow s => cases hfailure
      | error cause s =>
        obtain rfl := Option.some.inj hfailure
        exact hfull
    · cases hsame
      cases hfailure

end Registry

end LiveTypes
