import LiveTypes.Proofs.Heap.Typed
import LiveTypes.Proofs.World.Fields

/-!
# Typed worlds

Code checks every value that it stores, and a host that does so too never sees a slot with a value
that does not conform to its type, whatever is registered, reloaded and called in between
(`Conforming.typed`).
-/

namespace LiveTypes

open Machine

variable {r : Registry} {config : RegistryConfig}

/-- A closure that an instruction may create is typed. -/
lemma Machine.Makes.typed {vm : Machine} {e : Executable} {i : Instruction} {c : Closure}
    (h : vm.Makes e i c) (hvoid : ∀ id s, vm.registry.sites.find? id = some s →
      ∀ k type, s.slotType? k = some type → type ≠ .void) : c.Typed vm.registry := by
  obtain ⟨s, values, hs, hfill⟩ := h.filled
  exact ⟨s, hs, .fillSlots (.defaults (hvoid c.site s hs)) hfill⟩

/-- No instruction leaves a value in a slot whose type it does not conform to. -/
lemma Heap.Typed.survives (h : Registry.Reachable config r) (hverify : config.verify = true)
    (limit : Nat) : (Machine.mk r limit).Survives fun h => h.Typed r := by
  have hr := h.wellFormed hverify
  refine survives_of_effect hr fun e i heap write heap' _ _ htyped heffect => ?_
  refine htyped.effect hr (heffect.mono (fun c hc => ?_) fun _ _ => id)
  exact hc.typed (h.slotType?_ne_void hverify)

namespace World

variable {w w' : World}

/-- What a host does to a world when it writes to fields what conforms to their types. A call runs
any code, and keeps what it changed also when it fails. -/
inductive TypedStep (w : World) : World → Prop where
  | update {r : Registry} (ok : Registry.Step w.registry r) : TypedStep w ⟨r, w.heap⟩
  | make {limit : Nat} {typeName : String} {v : Value} {h : Heap}
      (ok : (Machine.mk w.registry limit).makeInstance typeName w.heap = .ok (v, h)) :
      TypedStep w ⟨w.registry, h⟩
  | call {limit fuel : Nat} {call : Invocation} {o : Except VmError Value × Heap}
      (belongs : call.Belongs w.heap) (ok : call.run ⟨w.registry, limit⟩ fuel w.heap = some o) :
      TypedStep w ⟨w.registry, o.2⟩
  | readField {t : LiveType} {id : ObjectId} {name : String} {v : Value} {h : Heap}
      (registered : w.registry.find? t.name = some t) (object : w.heap.Holds (.object id t.name))
      (ok : w.heap.readField t id name = some (v, h)) : TypedStep w ⟨w.registry, h⟩
  | writeField {t : LiveType} {id : ObjectId} {name : String} {v : Value} {h : Heap}
      (registered : w.registry.find? t.name = some t) (object : w.heap.Holds (.object id t.name))
      (held : w.heap.Holds v)
      (conforms : ∀ type, t.fieldType? name = some type → v.conforms type = true)
      (ok : w.heap.writeField t id name v = some h) : TypedStep w ⟨w.registry, h⟩
  | release (roots : List Value) : TypedStep w ⟨w.registry, w.heap.release roots⟩

lemma TypedStep.step (h : TypedStep w w') : Step w w' := by
  cases h with
  | update ok => exact .update ok
  | make ok => exact .make ok
  | call belongs ok => exact .call belongs ok
  | readField _ _ ok => exact .readField ok
  | writeField _ _ held _ ok => exact .writeField held ok
  | release roots => exact .release roots

/-- One step leaves the heap of a sound world typed. -/
lemma TypedStep.typed (hreachable : Registry.Reachable config w.registry)
    (hverify : config.verify = true) (hw : w.Sound) (htyped : w.heap.Typed w.registry)
    (hstep : TypedStep w w') : w'.heap.Typed w'.registry := by
  cases hstep with
  | update ok =>
    have hchange := ok.change
    exact htyped.of_extends (hw.registry.change hchange) (hchange.extends hw.registry)
  | make ok =>
    obtain ⟨t, hfind, -, -, rfl⟩ := makeInstance_eq_ok.mp ok
    obtain rfl := Registry.find?_name hfind
    exact htyped.effect hw.registry (.made hfind)
  | call belongs ok =>
    exact (Invocation.settled_run hw.code (Heap.Typed.survives hreachable hverify _) hw.heap htyped
      belongs ok).2
  | readField hfind hobject ok =>
    obtain ⟨place, hplace, -, rfl⟩ := Heap.readField_eq_some.mp ok
    exact htyped.effect hw.registry (.touched hfind hobject hplace)
  | writeField hfind hobject _ hconforms ok =>
    obtain ⟨place, hplace, -, rfl⟩ := Heap.writeField_eq_some.mp ok
    exact htyped.effect hw.registry (.stored hfind hobject hplace hconforms)
  | release roots => exact htyped.release roots

/-- The worlds that a host comes to when it writes what conforms. -/
abbrev TypedReachable (config : RegistryConfig) (w : World) : Prop :=
  Relation.ReflTransGen TypedStep ⟨.create config, .empty⟩ w

lemma TypedReachable.reachable (h : TypedReachable config w) : Reachable config w :=
  Relation.ReflTransGen.mono (fun _ _ => TypedStep.step) _ _ h

/-- What holds of the empty world and is kept by every step from a sound one holds wherever such a host
comes to. -/
lemma TypedReachable.invariant {P : World → Prop} (h : TypedReachable config w)
    (hverify : config.verify = true) (hempty : P ⟨.create config, .empty⟩)
    (hkept : ∀ {w w' : World}, Registry.Reachable config w.registry → w.Sound → P w →
      TypedStep w w' → P w') : P w := by
  induction h with
  | refl => exact hempty
  | tail hbefore hstep ih =>
    have hreachable : Reachable config _ := TypedReachable.reachable hbefore
    exact hkept hreachable.registry (hreachable.sound hverify) ih hstep

/-- Whatever is registered, reloaded, made, called and written, every value in the heap conforms to
the type of its slot. -/
theorem TypedReachable.heap_typed (h : TypedReachable config w) (hverify : config.verify = true) :
    w.heap.Typed w.registry :=
  h.invariant hverify (P := fun w => w.heap.Typed w.registry) (Heap.typed_empty _)
    fun hreachable hw htyped hstep => hstep.typed hreachable hverify hw htyped

lemma TypedReachable.leads (h : TypedReachable config w) {r : Registry}
    (hleads : Registry.Leads w.registry r) : TypedReachable config ⟨r, w.heap⟩ := by
  induction hleads with
  | refl => exact h
  | tail _ hstep ih => exact ih.tail (.update hstep)

set_option maxRecDepth 100000 in
/-- An instance with a slot of its layout and a field that only the second version declares. -/
theorem heap_typed_extended :
    ∃ w, TypedReachable .default w ∧ w.heap.getSlot? 0 0 = some (.i32 0) ∧
      w.heap.extensions.slot? 0 "y" = some ⟨.i32, .i32 5⟩ ∧ w.heap.Typed w.registry := by
  have hfacts : ((Registry.create .default).replay [.register "a.T" (holder "x"),
      .reload "a.T" "second" (holder "y")]).any (fun r => (r.find? "a.T").any fun t =>
        t.isClosureHost = false ∧ t.layout = ⟨[("x", .i32)]⟩ ∧
          t.fieldType? "y" = some .i32) = true := by
    decide +kernel
  obtain ⟨r, hr, hafter⟩ := (Option.any_eq_true _ _).mp hfacts
  obtain ⟨t, ht, hdeclares⟩ := (Option.any_eq_true _ _).mp hafter
  obtain ⟨hhost, hlayout, htype⟩ := of_decide_eq_true hdeclares
  have hfound : r.find? t.name = some t := (Registry.find?_name ht).symm ▸ ht
  -- an instance is made, and the field that it has no slot for is written
  have hinstance : (Machine.mk r 256).makeInstance "a.T" .empty =
      .ok (.object 0 t.name, (Heap.empty.allocate (newInstance t)).2) :=
    makeInstance_eq_ok.mpr ⟨t, ht, hhost, rfl, rfl⟩
  have hmade : TypedReachable .default ⟨r, (Heap.empty.allocate (newInstance t)).2⟩ :=
    (TypedReachable.leads .refl (Registry.leads_of_replay hr)).tail (.make hinstance)
  have hplace : t.fieldPlace? "y" = some (.extension .i32) :=
    LiveType.fieldPlace?_eq_extension.mpr ⟨by rw [hlayout]; rfl, htype⟩
  have hobject : (Heap.empty.allocate (newInstance t)).2.Holds (.object 0 t.name) :=
    ⟨⟨t.id, t.name, t.layout.defaults⟩, rfl, rfl⟩
  have hconforms : ∀ type, t.fieldType? "y" = some type → Value.conforms (.i32 5) type = true := by
    intro type h
    obtain rfl := Option.some.inj (htype.symm.trans h)
    rfl
  have hwrite : (Heap.empty.allocate (newInstance t)).2.writeField t 0 "y" (.i32 5) = some _ :=
    Heap.writeField_eq_some.mpr ⟨_, hplace, ⟨_, rfl⟩, rfl⟩
  have hheld : (Heap.empty.allocate (newInstance t)).2.Holds (.i32 5) := trivial
  have hwritten := hmade.tail (.writeField hfound hobject hheld hconforms hwrite)
  refine ⟨_, hwritten, ?_, rfl, TypedReachable.heap_typed hwritten rfl⟩
  show t.layout.defaults[0]? = some (.i32 0)
  rw [hlayout]
  rfl

end World

end LiveTypes
