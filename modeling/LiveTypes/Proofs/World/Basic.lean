import LiveTypes.Proofs.Machine.Code
import LiveTypes.Proofs.Machine.Safety
import LiveTypes.Proofs.Registry.Apply

/-!
# Worlds

A world is a registry with the heap of its objects. It changes when the host registers or reloads a
type, makes an instance, calls into the code, touches a field or lets objects go. In every world that
a host comes to, all code is sound and so are all objects (`Reachable.sound`).
-/

namespace LiveTypes

/-- An instance is made of a registered type that hosts no closure. -/
lemma Machine.makeInstance_eq_ok {vm : Machine} {typeName : String} {h h' : Heap} {v : Value} :
    vm.makeInstance typeName h = .ok (v, h') ↔ ∃ t, vm.registry.find? typeName = some t ∧
      t.isClosureHost = false ∧ v = .object h.objects.size t.name ∧
      h' = (h.allocate (newInstance t)).2 := by
  unfold makeInstance
  cases vm.registry.find? typeName with
  | none => simp
  | some t =>
    dsimp only
    cases hhost : t.isClosureHost with
    | true => simp [hhost]
    | false =>
      simp only [Bool.false_eq_true, ↓reduceIte, Except.ok.injEq, Prod.mk.injEq,
        Option.some.injEq, exists_eq_left', hhost, true_and]
      exact and_congr eq_comm eq_comm

/-- A registry and the heap of its objects. -/
structure World where
  registry : Registry
  heap : Heap

/-- What a host calls. -/
inductive Invocation where
  | static (typeName key : String) (arguments : List Value)
  | method (receiver : ObjectId) (typeName key : String) (arguments : List Value)
  | closure (object : ObjectId) (c : Closure) (key : String) (arguments : List Value)

namespace Invocation

def run (vm : Machine) (fuel : Nat) (h : Heap) : Invocation → Option (Except VmError Value × Heap)
  | .static typeName key arguments => vm.invokeStaticMethod fuel typeName key arguments h
  | .method receiver typeName key arguments =>
    vm.invokeInstanceMethod fuel receiver typeName key arguments h
  | .closure object c key arguments => vm.invokeClosureMethod fuel object c key arguments h

/-- Whether the receiver and the arguments of a call are values of a heap. -/
def Belongs (h : Heap) : Invocation → Prop
  | .static _ _ arguments => ∀ v ∈ arguments, h.Holds v
  | .method receiver typeName _ arguments =>
    h.Holds (.object receiver typeName) ∧ ∀ v ∈ arguments, h.Holds v
  | .closure object c _ arguments => h.closure? object = some c ∧ ∀ v ∈ arguments, h.Holds v

/-- A call of what belongs to a heap settles, and keeps of the heap what every instruction keeps. -/
lemma settled_run {vm : Machine} {fuel : Nat} {h : Heap} {call : Invocation}
    {o : Except VmError Value × Heap} {P : Heap → Prop} (hcode : vm.registry.SoundCode)
    (hp : vm.Survives P) (hh : h.Sound vm.registry) (hbefore : P h) (hcall : call.Belongs h)
    (hrun : call.run vm fuel h = some o) : Machine.Settled vm.registry h o ∧ P o.2 := by
  cases call with
  | static typeName key arguments =>
    exact Machine.settled_static hcode hp hh hbefore hcall hrun
  | method receiver typeName key arguments =>
    exact Machine.settled_instance hcode hp hh hbefore hcall.1 hcall.2 hrun
  | closure object c key arguments =>
    exact Machine.settled_closure hcode hp hh hbefore hcall.1 hcall.2 hrun

end Invocation

namespace World

variable {w w' : World} {config : RegistryConfig}

/-- What a host does to a world. A call keeps what it changed also when it fails. -/
inductive Step (w : World) : World → Prop where
  | update {r : Registry} (ok : Registry.Step w.registry r) : Step w ⟨r, w.heap⟩
  | make {limit : Nat} {typeName : String} {v : Value} {h : Heap}
      (ok : (Machine.mk w.registry limit).makeInstance typeName w.heap = .ok (v, h)) :
      Step w ⟨w.registry, h⟩
  | call {limit fuel : Nat} {call : Invocation} {o : Except VmError Value × Heap}
      (belongs : call.Belongs w.heap) (ok : call.run ⟨w.registry, limit⟩ fuel w.heap = some o) :
      Step w ⟨w.registry, o.2⟩
  | readField {t : LiveType} {id : ObjectId} {name : String} {v : Value} {h : Heap}
      (ok : w.heap.readField t id name = some (v, h)) : Step w ⟨w.registry, h⟩
  | writeField {t : LiveType} {id : ObjectId} {name : String} {v : Value} {h : Heap}
      (held : w.heap.Holds v) (ok : w.heap.writeField t id name v = some h) :
      Step w ⟨w.registry, h⟩
  | release (roots : List Value) : Step w ⟨w.registry, w.heap.release roots⟩

/-- The worlds that a host comes to from an empty one. -/
abbrev Reachable (config : RegistryConfig) (w : World) : Prop :=
  Relation.ReflTransGen Step ⟨.create config, .empty⟩ w

lemma Reachable.registry (h : Reachable config w) : Registry.Reachable config w.registry := by
  induction h with
  | refl => exact .refl
  | tail _ hstep ih =>
    cases hstep with
    | update ok => exact ih.tail ok
    | _ => exact ih

lemma Reachable.leads (h : Reachable config w) {r : Registry}
    (hleads : Registry.Leads w.registry r) : Reachable config ⟨r, w.heap⟩ := by
  induction hleads with
  | refl => exact h
  | tail _ hstep ih => exact ih.tail (.update hstep)

lemma reachable_of_leads {r : Registry} (h : Registry.Leads (.create config) r) :
    Reachable config ⟨r, .empty⟩ :=
  @Reachable.leads ⟨.create config, .empty⟩ config .refl r h

/-- A world in which everything belongs together. -/
structure Sound (w : World) : Prop where
  registry : w.registry.WellFormed
  code : w.registry.SoundCode
  heap : w.heap.Sound w.registry

lemma sound_empty (hverify : config.verify = true) : Sound ⟨.create config, .empty⟩ where
  registry := @Registry.Reachable.wellFormed _ config .refl hverify
  code := @Registry.Reachable.soundCode _ config .refl hverify
  heap := Heap.sound_empty _

/-- Nothing that a host does takes a world apart. -/
lemma Sound.step (hw : w.Sound) (h : Step w w') : w'.Sound := by
  cases h with
  | update ok =>
    have hchange := ok.change
    have hwell := hw.registry.change hchange
    exact ⟨hwell, hw.code.change hw.registry hchange,
      hw.heap.of_extends hwell (hchange.extends hw.registry)⟩
  | @make limit typeName v heap ok =>
    refine ⟨hw.registry, hw.code, ?_⟩
    obtain ⟨t, ht, -, -, rfl⟩ := Machine.makeInstance_eq_ok.mp ok
    obtain rfl := Registry.find?_name ht
    exact hw.heap.allocate (Machine.admits_newInstance ht)
  | call belongs ok =>
    have hsettled :=
      Invocation.settled_run hw.code (Machine.survives_true _) hw.heap trivial belongs ok
    exact ⟨hw.registry, hw.code, hsettled.1.heap⟩
  | readField ok =>
    refine ⟨hw.registry, hw.code, ?_⟩
    obtain ⟨place, -, -, rfl⟩ := Heap.readField_eq_some.mp ok
    exact hw.heap.touchAt _ place
  | writeField held ok =>
    refine ⟨hw.registry, hw.code, ?_⟩
    obtain ⟨place, -, -, rfl⟩ := Heap.writeField_eq_some.mp ok
    exact hw.heap.storeAt held place
  | release roots => exact ⟨hw.registry, hw.code, hw.heap.release roots⟩

/-- Every world that a host comes to is sound. -/
theorem Reachable.sound (h : Reachable config w) (hverify : config.verify = true) : w.Sound := by
  induction h with
  | refl => exact sound_empty hverify
  | tail _ hstep ih => exact ih.step hstep

def divider : TypeUnit where
  formatFlags := 0
  name := "a.D"
  superName := none
  access := Access.isPublic
  constants := .empty
  fields := []
  methods := [⟨⟨"div", ⟨[], .i32⟩⟩, staticMethod, [], 0, Instruction.encodeAll
    [⟨0, .constI32, .i32 1⟩, ⟨5, .constI32, .i32 0⟩, ⟨10, .idiv, .none⟩, ⟨11, .ret, .none⟩]⟩]
  attributes := []

def failure? : Option (Except VmError Value × Heap) → Option VmError
  | some (.error e, _) => some e
  | _ => none

end World

end LiveTypes
