import LiveTypes.Proofs.Machine.Visits
import LiveTypes.Proofs.World.Basic

/-!
# Links

Code finds what it refers to. The one exception are references that were left open when the body was
rewritten, to an enclosing type that was not registered then: only such an owner may be missing when the
body runs. Everything else that rewriting accepted stays where code finds it, whatever the host does
afterwards (`World.Reachable.links`).
-/

namespace LiveTypes

namespace Invocation

open Run

variable {vm : Machine} {h : Heap} {call : Invocation}

def find (vm : Machine) : Invocation → Run Executable
  | .static typeName key _ => Machine.findDispatcher vm typeName key true
  | .method _ typeName key _ => Machine.findDispatcher vm typeName key false
  | .closure _ c key _ => Machine.closureTarget vm c key

def receiver? : Invocation → Option Value
  | .static _ _ _ => none
  | .method receiver typeName _ _ => some (.object receiver typeName)
  | .closure object _ _ _ => some (.closure object)

def arguments : Invocation → List Value
  | .static _ _ arguments | .method _ _ _ arguments | .closure _ _ _ arguments => arguments

lemma run_eq (fuel : Nat) : call.run vm fuel h =
    (Machine.invoke vm fuel (call.find vm) call.receiver? call.arguments
      (Machine.startState h)).map Machine.outcome := by
  cases call <;> rfl

/-- Whether a call runs code at a point. -/
def Visits (vm : Machine) (h : Heap) (call : Invocation) (p : Machine.Point) : Prop :=
  ∃ target argc s₁ s₂ s₃, call.find vm (Machine.startState h) = .ok target s₁ ∧
    Machine.prepare target call.receiver? call.arguments s₁ = .ok argc s₂ ∧
    Machine.enter vm target argc s₂ = .ok () s₃ ∧ Machine.Point.Visits vm ⟨target, 0, s₃⟩ p

/-- The point at which a call starts to run. -/
def start? (vm : Machine) (h : Heap) (call : Invocation) : Option Machine.Point :=
  let entered : Run Executable := do
    let target ← call.find vm
    Machine.enter vm target (← Machine.prepare target call.receiver? call.arguments)
    return target
  match entered (Machine.startState h) with
  | .ok target s => some ⟨target, 0, s⟩
  | .error _ _ => none

lemma visits_of_start? {p q : Machine.Point} (h₀ : call.start? vm h = some p) (hq : p.Visits vm q) :
    call.Visits vm h q := by
  unfold start? at h₀
  dsimp only at h₀
  split at h₀
  · next target s hentered =>
    obtain rfl := Option.some.inj h₀
    obtain ⟨target', s₁, hfind, hentered⟩ := bind_eq_ok.mp hentered
    obtain ⟨argc, s₂, hprepare, hentered⟩ := bind_eq_ok.mp hentered
    obtain ⟨_, s₃, henter, hentered⟩ := bind_eq_ok.mp hentered
    obtain ⟨rfl, rfl⟩ := pure_eq_ok.mp hentered
    exact ⟨_, argc, s₁, s₂, _, hfind, hprepare, henter, hq⟩
  · cases h₀

lemma keeps_find (hh : h.Sound vm.registry) (hcall : call.Belongs h) :
    Keeps vm.registry (call.find vm)
      (fun target s' => vm.registry.HasBody target ∧ Machine.startState h = s')
      (Machine.startState h) := by
  have hs := Machine.sound_startState hh
  cases call with
  | static typeName key arguments => exact Machine.keeps_findDispatcher hs typeName key true
  | method receiver typeName key arguments =>
    exact Machine.keeps_findDispatcher hs typeName key false
  | closure object c key arguments =>
    exact Machine.keeps_closureTarget hs (hh.closures object c hcall.1) key

lemma holds_values (hcall : call.Belongs h) :
    ∀ v ∈ call.receiver?.toList ++ call.arguments, h.Holds v := by
  cases call with
  | static typeName key arguments => exact hcall
  | method receiver typeName key arguments => exact List.forall_mem_cons.mpr hcall
  | closure object c key arguments => exact List.forall_mem_cons.mpr ⟨⟨c, hcall.1⟩, hcall.2⟩

/-- A call of what belongs to a heap starts to run at a sound point, with the heap as it was. -/
lemma exists_start (hcode : vm.registry.SoundCode) (hh : h.Sound vm.registry)
    (hcall : call.Belongs h) {p : Machine.Point} (hp : call.Visits vm h p) :
    ∃ start : Machine.Point, start.Sound vm ∧ start.state.heap = h ∧ start.Visits vm p := by
  obtain ⟨target, argc, s₁, s₂, s₃, hfind, hprepare, hentered, hvisits⟩ := hp
  obtain ⟨hs₁, -, htarget, rfl⟩ := (keeps_find hh hcall).of_ok hfind
  obtain ⟨hs₂, -, -⟩ := (Machine.keeps_prepare hs₁ (holds_values hcall)).of_ok hprepare
  have hheap₂ : s₂.heap = h := (Machine.quiet_prepare _ _).heap_of_ok hprepare
  have hsound := hcode target htarget
  obtain ⟨hs₃, hheap₃, hframe⟩ := Machine.sound_of_enter hs₂ hsound.arguments_le hentered
  exact ⟨⟨target, 0, s₃⟩, ⟨htarget, hsound.starts_zero, hs₃, hframe⟩, hheap₃.trans hheap₂, hvisits⟩

/-- A call of what belongs to a heap only runs sound code. -/
lemma sound_of_visits (hcode : vm.registry.SoundCode) (hh : h.Sound vm.registry)
    (hcall : call.Belongs h) {p : Machine.Point} (hp : call.Visits vm h p) : p.Sound vm := by
  obtain ⟨start, hstart, -, hvisits⟩ := exists_start hcode hh hcall hp
  exact hstart.visits hcode hvisits

/-- What survives the code of a registry holds of the heap wherever a call runs. -/
lemma survives_of_visits (hcode : vm.registry.SoundCode) (hh : h.Sound vm.registry)
    (hcall : call.Belongs h) {P : Heap → Prop} (hP : vm.Survives P) (hbefore : P h)
    {p : Machine.Point} (hp : call.Visits vm h p) : P p.state.heap := by
  obtain ⟨start, hstart, rfl, hvisits⟩ := exists_start hcode hh hcall hp
  exact hstart.survives_visits hcode hP hbefore hvisits

lemma plain_prepare (target : Executable) (receiver : Option Value) (arguments : List Value) :
    (Machine.prepare target receiver arguments).Plain := by
  have hpushAll (values : List Value) : (Machine.pushAll values).Plain := by
    induction values with
    | nil => exact plain_pure ()
    | cons v rest ih => exact (plain_push v).bind fun _ => ih
  have hpush : Run.Plain (do
      Machine.pushAll (receiver.toList ++ arguments)
      return arguments.length + receiver.toList.length) :=
    (hpushAll _).bind fun _ => plain_pure _
  unfold Machine.prepare
  dsimp only
  split
  · exact (plain_throw rfl).bind fun _ => hpush
  · exact hpush

/-- A call that misses an owner misses it when the host looks up what it calls, or at a point of the
code that it runs. -/
lemma missed_of_run {fuel : Nat} {cause : VmError} {heap : Heap} {owner : String}
    (hrun : call.run vm fuel h = some (.error cause, heap)) (howner : cause.missing? = some owner) :
    (∃ s, call.find vm (Machine.startState h) = .error cause s) ∨
      ∃ p, call.Visits vm h p ∧ p.Raises vm cause := by
  rw [run_eq] at hrun
  obtain ⟨res, hres, houtcome⟩ := Option.map_eq_some_iff.mp hrun
  obtain ⟨s, rfl⟩ : ∃ s, res = .error cause s := by
    cases res with
    | ok v s => cases houtcome
    | error e s =>
      obtain ⟨he, -⟩ := Prod.mk.inj houtcome
      exact ⟨s, by rw [Except.error.inj he]⟩
  unfold Machine.invoke at hres
  dsimp only at hres
  cases hfind : call.find vm (Machine.startState h) with
  | error e s₁ =>
    rw [bind_of_error hfind] at hres
    obtain ⟨rfl, rfl⟩ := EStateM.Result.error.inj (Option.some.inj hres)
    exact .inl ⟨s₁, rfl⟩
  | ok target s₁ =>
    rw [bind_of_ok hfind] at hres
    cases hprepare : Machine.prepare target call.receiver? call.arguments s₁ with
    | error e s₂ =>
      rw [bind_of_error hprepare] at hres
      obtain ⟨rfl, rfl⟩ := EStateM.Result.error.inj (Option.some.inj hres)
      exact absurd howner ((plain_prepare target _ _).not_missing hprepare)
    | ok argc s₂ =>
      rw [bind_of_ok hprepare] at hres
      obtain ⟨s₃, s₄, hentered, hbody⟩ := Machine.exists_of_callBy hres howner
      obtain ⟨p, hvisits, hraises⟩ := Machine.exists_raises_of_run hbody howner
      exact .inr ⟨p, ⟨target, argc, s₁, s₂, s₃, hfind, hprepare, hentered, hvisits⟩, hraises⟩

/-- When the host looks up what it calls, only the type of a static method may be missing. -/
lemma misses_find (hhosts : Machine.HostsRegistered vm.registry) (hh : h.Sound vm.registry)
    (hcall : call.Belongs h) : Misses (fun owner => (∃ key arguments,
      call = .static owner key arguments) ∧ vm.registry.find? owner = none) (call.find vm)
        (Machine.startState h) := by
  have hrest (t : LiveType) (key : String) (isStatic : Bool) : Run.Plain (do
      let target ← Machine.dispatcher t key
      Machine.expectKind target isStatic
      return target) :=
    (Machine.plain_dispatcher t key).bind fun target =>
      (Machine.plain_expectKind target isStatic).bind fun _ => plain_pure target
  have hreports : Reports (fun cause => ∃ owner key arguments, cause = .unknownType owner ∧
      call = .static owner key arguments ∧ vm.registry.find? owner = none) (call.find vm)
        (Machine.startState h) := by
    cases call with
    | static typeName key arguments =>
      refine (Machine.reports_resolve fun hnone => ?_).bind fun t s _ => (hrest t key true).reports
      exact ⟨typeName, key, arguments, rfl, rfl, hnone⟩
    | method receiver typeName key arguments =>
      refine (Machine.reports_resolve fun hnone => ?_).bind fun t s _ => (hrest t key false).reports
      obtain ⟨i, hi, rfl⟩ := hcall.1
      obtain ⟨t, ht, -⟩ := hh.instances receiver i hi
      rw [hnone] at ht
      cases ht
    | closure object c key arguments =>
      refine Machine.reports_closureTarget c key fun site hsite hnone => ?_
      obtain ⟨t, ht⟩ := hhosts _ site hsite
      rw [hnone] at ht
      cases ht
  refine hreports.misses fun cause owner hcause howner => ?_
  obtain ⟨owner', key, arguments, rfl, hstatic, hnone⟩ := hcause
  obtain rfl := Option.some.inj howner
  exact ⟨⟨key, arguments, hstatic⟩, hnone⟩

end Invocation

/-- The type of every body of a registry is registered. -/
lemma Registry.Reachable.byId?_of_body {config : RegistryConfig} {r : Registry}
    (h : Registry.Reachable config r) (hverify : config.verify = true) {e : Executable}
    (he : r.HasBody e) : ∃ t, r.byId? e.typeId = some t := by
  have hr := h.wellFormed hverify
  obtain ⟨t, ht, key, he⟩ := he
  have hid : e.typeId = t.id := by
    rcases he with he | he
    · obtain ⟨version, -, hbodies⟩ := (hr.types t ht).bodies
      exact (hbodies key e he).1
    · rw [(h.loaded t ht).dispatchers_eq] at he
      obtain ⟨m, -, -, rfl⟩ := ExecutorTable.mem_of_find?_ofUnit he
      rfl
  exact ⟨t, hid ▸ hr.byId?_id ht⟩

/-- Every body of a registry that is no published one is a dispatcher, which refers to nothing. -/
lemma Registry.Reachable.reference_cases {config : RegistryConfig} {r : Registry}
    (h : Registry.Reachable config r) (hverify : config.verify = true) {e : Executable}
    (he : r.HasBody e) : (∃ r₀ u, Registry.Rewritten config r e r₀ u) ∨
      ∀ i, e.Has i → i.reference? e.constants = none := by
  obtain ⟨t, ht, key, he | he⟩ := he
  · exact .inl (h.rewritten hverify t ht key e he)
  · refine .inr fun i hi => ?_
    rcases h.opcode_of_dispatcher hverify ht he hi with hop | hop | hop | hop <;>
      simp [Instruction.reference?, hop]

namespace World

variable {w : World} {config : RegistryConfig}

/-- A world whose code finds what it refers to, with the exceptions that its rewriting left open. -/
structure Linked (config : RegistryConfig) (w : World) : Prop where
  /-- Code that a call runs misses an owner only if it was not registered when the body was rewritten,
  and the type of the body is nested in it. -/
  raises : ∀ limit (call : Invocation) p cause owner, call.Belongs w.heap →
    call.Visits ⟨w.registry, limit⟩ w.heap p → p.Raises ⟨w.registry, limit⟩ cause →
    cause.missing? = some owner → ∃ r₀ u, Registry.Rewritten config w.registry p.body r₀ u ∧
      r₀.find? owner = none ∧ ∃ rest, p.body.typeName = owner ++ "$" ++ rest
  /-- A call that misses an owner misses it in code that it runs, unless the host itself names a type
  that is not registered. -/
  fails : ∀ limit fuel (call : Invocation) cause heap owner, call.Belongs w.heap →
    call.run ⟨w.registry, limit⟩ fuel w.heap = some (.error cause, heap) →
    cause.missing? = some owner →
      ((∃ key arguments, call = .static owner key arguments) ∧ w.registry.find? owner = none) ∨
      ∃ p, call.Visits ⟨w.registry, limit⟩ w.heap p ∧ p.Raises ⟨w.registry, limit⟩ cause
  /-- Whatever else a rewriting on the way to the world accepted resolves. -/
  keeps : ∀ r₀ r₁ u cx redirected, Registry.Reachable config r₀ →
    r₀.Rewrites r₁ u cx redirected → Registry.Leads r₁ w.registry →
      r₀.KeepsReferences u redirected w.registry

/-- In every world that a host comes to, code finds what it refers to, with the exceptions that its
rewriting left open. -/
theorem Reachable.links (h : Reachable config w) (hverify : config.verify = true) :
    w.Linked config := by
  have hw := h.sound hverify
  have hregistry := h.registry
  have hhosts : Machine.HostsRegistered w.registry :=
    fun id site hsite => hregistry.host_registered hverify hsite
  refine ⟨?_, ?_, ?_⟩
  · rintro limit call p cause owner hcall hvisits ⟨i, s, hi, hstep⟩ howner
    have hp := call.sound_of_visits hw.code hw.heap hcall hvisits
    obtain ⟨hmem, hsound, -⟩ := hp.instruction hw.code hi
    have hown := hregistry.byId?_of_body hverify hp.body
    have hmisses {late : String → Prop} (hfound : Machine.Found ⟨w.registry, limit⟩ late p.body i) :
        late owner :=
      Machine.step_misses hhosts hown hsound.toLinked hp.state hfound cause s owner hstep howner
    rcases hregistry.reference_cases hverify hp.body with ⟨r₀, u, hrewritten⟩ | hnone
    · have hname := hrewritten.typeName_eq
      have ⟨r₁, cx, redirected, hreachable, hrewrites, hleads, m, hm, hbody⟩ := hrewritten
      have hkeeps := hreachable.keeps_references hverify hrewrites hleads
      obtain ⟨hnone, hnested⟩ := @hmisses (fun owner => r₀.find? owner = none ∧
          TypeName.isNestedIn u.name owner = true) fun ref href => by
        obtain ⟨l, hl, hi⟩ := hmem
        rw [hbody] at hl href
        exact hkeeps.references ref (.inr ⟨m, hm, l, hl, i, hi, href⟩)
      refine ⟨r₀, u, hrewritten, hnone, ?_⟩
      rw [hname]
      exact TypeName.isNestedIn_eq_true.mp hnested
    · refine (@hmisses (fun _ => False) fun ref href => ?_).elim
      rw [hnone i hmem] at href
      cases href
  · intro limit fuel call cause heap owner hcall hrun howner
    rcases call.missed_of_run hrun howner with ⟨s, hfind⟩ | hraises
    · exact .inl (call.misses_find hhosts hw.heap hcall cause s owner hfind howner)
    · exact .inr hraises
  · intro r₀ r₁ u cx redirected hreachable hrewrites hleads
    exact hreachable.keeps_references hverify hrewrites hleads

/-- A nested type whose method calls its enclosing type. -/
def orphan : TypeUnit := { divider with
  name := "a.E$N"
  constants := (ConstantPool.empty.intern "a.E").2.intern "one()I" |>.2
  methods := [⟨⟨"run", ⟨[], .i32⟩⟩, staticMethod, [], 0, Instruction.encodeAll
    [⟨0, .invokeStatic, .pair 0 1⟩, ⟨9, .ret, .none⟩]⟩] }

lemma of_failure? {o : Option (Except VmError Value × Heap)} {e : VmError}
    (h : failure? o = some e) : ∃ heap, o = some (.error e, heap) := by
  unfold failure? at h
  split at h
  · next e' heap => exact ⟨heap, by rw [Option.some.inj h]⟩
  · cases h

set_option maxRecDepth 100000 in
/-- A call that misses the enclosing type of the code that it runs. -/
theorem links_orphan :
    ∃ r heap, Reachable .default ⟨r, .empty⟩ ∧
      (Invocation.static "a.E$N" "run()I" []).run ⟨r, 256⟩ 10 .empty =
        some (.error (.unknownType "a.E"), heap) ∧ Linked .default ⟨r, .empty⟩ := by
  have hfacts : ((Registry.create .default).replay [.register "a.E$N" orphan.encode]).any (fun r =>
      failure? ((Invocation.static "a.E$N" "run()I" []).run ⟨r, 256⟩ 10 .empty) =
        some (.unknownType "a.E")) = true := by
    decide +kernel
  obtain ⟨r, hr, hfails⟩ := (Option.any_eq_true _ _).mp hfacts
  obtain ⟨heap, hrun⟩ := of_failure? (of_decide_eq_true hfails)
  have hreachable : Reachable .default ⟨r, .empty⟩ :=
    reachable_of_leads (Registry.leads_of_replay hr)
  exact ⟨r, heap, hreachable, hrun, hreachable.links rfl⟩

end World

end LiveTypes
