import LiveTypes.Proofs.Capture.Law
import LiveTypes.Proofs.Registry.Coherent
import LiveTypes.Proofs.Registry.Request
import LiveTypes.Proofs.World.Crowded

/-!
# Coherent worlds

Whatever a host asks of a registry and whatever its code does, types and capture sites agree with each
other. Every closure ever created holds an enclosing instance just when its site says so, as long as
there are indices for all strings (`Reachable.coherent_served`); when there are not, a closure can be
created at the site of another (`not_encloses_crowded`).
-/

namespace LiveTypes

/-! ### Keys of closure creations -/

/-- Whether there are indices for all strings of every version and the keys of its closures. -/
def Registry.Numbered (r : Registry) : Prop :=
  ∀ t ∈ r.types, ∀ v ∈ t.versions, (v.unit.keyedConstants t.id).strings.size ≤ UInt32.size

instance (r : Registry) : Decidable r.Numbered :=
  inferInstanceAs (Decidable (∀ t ∈ r.types, ∀ v ∈ t.versions, _))

namespace Registry

variable {r r' : Registry} {config : RegistryConfig}

lemma Numbered.of_extends (h : r.Extends r') (hnumbered : r'.Numbered) : r.Numbered := by
  intro t ht v hv
  obtain ⟨t', ht', hcontinues⟩ := h.types t ht
  rw [← hcontinues.id_eq]
  exact hnumbered t' ht' v (hcontinues.versions_grow.subset hv)

/-- Every body that creates closures finds their keys where it looks for them. -/
lemma Reachable.not_overfull (h : Reachable config r) (hverify : config.verify = true)
    (hnumbered : r.Numbered) {e : Executable} {i : Instruction} (he : r.HasBody e) (hi : e.Has i)
    (hop : i.opcode = .makeCaptured) : ¬ e.constants.Overfull := by
  obtain ⟨t, ht, key, he | he⟩ := he
  · obtain ⟨v, cx, redirected, hpublishes⟩ := h.publishes hverify t ht
    obtain ⟨m, -, -, rfl⟩ := hpublishes.mem_of_find? he
    have hconstants : (ExecutorTable.executable redirected.executor t.id t.name v.index m).constants =
        v.unit.keyedConstants t.id :=
      hpublishes.typeId_eq ▸ TypeUnit.constants_of_redirect hpublishes.redirect_eq
    rw [ConstantPool.Overfull, hconstants, Nat.not_lt]
    exact hnumbered t ht v hpublishes.mem
  · -- dispatchers create no closures
    rcases h.opcode_of_dispatcher hverify ht he hi with hop' | hop' | hop' | hop' <;>
    · rw [hop] at hop'
      cases hop'

end Registry

/-! ### Closures -/

/-- Whether every closure holds an enclosing instance just when its site says so. -/
def Heap.Encloses (r : Registry) (h : Heap) : Prop :=
  ∀ id c, h.closure? id = some c →
    ∃ s, r.sites.find? c.site = some s ∧ c.enclosing.isSome = s.capturesThis

namespace Heap.Encloses

variable {r r' : Registry} {h h' : Heap} {config : RegistryConfig}

lemma of_extends (henclosed : h.Encloses r) (hextends : r.Extends r') : h.Encloses r' := by
  intro id c hc
  obtain ⟨s, hs, hthis⟩ := henclosed id c hc
  obtain ⟨s', hs', hevolves⟩ := hextends.sites c.site s hs
  exact ⟨s', hs', hthis.trans hevolves.capturesThis_eq.symm⟩

lemma of_closures (henclosed : h.Encloses r) (hsame : ∀ id, h'.closure? id = h.closure? id) :
    h'.Encloses r :=
  fun id c hc => henclosed id c (hsame id ▸ hc)

/-- Code creates closures only as their sites say. -/
lemma survives (hreachable : Registry.Reachable config r) (hverify : config.verify = true)
    (hnumbered : r.Numbered) (limit : Nat) :
    (Machine.mk r limit).Survives fun h => h.Encloses r := by
  refine Machine.survives_of_effect (hreachable.wellFormed hverify) ?_
  intro e i heap write heap' he hi henclosed heffect id c hc
  rcases heffect.closure_cases hc with hold | hmade
  · exact henclosed id c hold
  · obtain ⟨index, count, flags, key, hop, hoperands, hkey, hid, hthis⟩ := hmade.creates
    have hsound := (hreachable.soundCode hverify e he).of_has hi
    rcases hsound.site hop index count flags key hoperands hkey with
      hoverfull | ⟨site, s, hsite, hs, hcaptures⟩
    · exact absurd hoverfull (hreachable.not_overfull hverify hnumbered he hi hop)
    · obtain rfl := Option.some.inj (hsite.symm.trans hid)
      exact ⟨s, hs, hthis.trans hcaptures.symm⟩

end Heap.Encloses

namespace World

variable {w w' : World} {config : RegistryConfig}

lemma encloses_step (hreachable : Registry.Reachable config w.registry) (hw : w.Sound)
    (hverify : config.verify = true) (hnumbered : w.registry.Numbered)
    (henclosed : w.heap.Encloses w.registry) (hstep : Step w w') :
    w'.heap.Encloses w'.registry := by
  cases hstep with
  | update ok => exact henclosed.of_extends (ok.change.extends hw.registry)
  | @make limit typeName v heap ok =>
    obtain ⟨t, ht, -, -, rfl⟩ := Machine.makeInstance_eq_ok.mp ok
    obtain rfl := Registry.find?_name ht
    have heffect : Heap.Effect w.registry (fun _ => False) (fun _ _ => True) w.heap none
        (w.heap.allocate (Machine.newInstance t)).2 := .made ht
    intro place c hc
    exact henclosed place c ((heffect.closure_cases hc).resolve_right not_false)
  | call belongs ok =>
    exact (Invocation.settled_run hw.code (Heap.Encloses.survives hreachable hverify hnumbered _)
      hw.heap henclosed belongs ok).2
  | readField ok =>
    obtain ⟨place, -, -, rfl⟩ := Heap.readField_eq_some.mp ok
    exact henclosed.of_closures fun id => Heap.closure?_touchAt ..
  | writeField held ok =>
    obtain ⟨place, -, -, rfl⟩ := Heap.writeField_eq_some.mp ok
    exact henclosed.of_closures fun id => Heap.closure?_storeAt ..
  | release roots => exact henclosed.of_closures fun id => Heap.closure?_release ..

/-- Every closure ever created holds an enclosing instance just when its site says so. -/
theorem Reachable.encloses (h : Reachable config w) (hverify : config.verify = true)
    (hnumbered : w.registry.Numbered) : w.heap.Encloses w.registry := by
  induction h with
  | refl =>
    intro id c hc
    simp [Heap.closure?, Heap.empty] at hc
  | @tail w w' hbefore hstep ih =>
    have hw := Reachable.sound hbefore hverify
    have hbefore' : w.registry.Numbered := by
      cases hstep with
      | update ok => exact hnumbered.of_extends (ok.change.extends hw.registry)
      | _ => exact hnumbered
    exact encloses_step (Reachable.registry hbefore) hw hverify hbefore' (ih hbefore') hstep

/-- A world whose types and capture sites agree with each other, and whose closures agree with them as
long as there are indices for all strings. -/
structure Coherent (w : World) : Prop where
  registry : w.registry.Coherent
  encloses : w.registry.Numbered → w.heap.Encloses w.registry

/-- Whatever is asked of the registry of a world, accepted or refused, one by one or in batches, leaves
the world coherent, as long as no two versions of a type with different bytes have one digest. -/
theorem Reachable.coherent_served (h : Reachable config w) (hverify : config.verify = true)
    (requests : List Registry.Request)
    (hfree : (w.registry.serveAll requests).CollisionFree) :
    Coherent ⟨w.registry.serveAll requests, w.heap⟩ := by
  have hafter := h.leads (w.registry.leads_serveAll requests)
  exact ⟨hafter.registry.coherent hverify hfree, hafter.encloses hverify⟩

/-- A batch that is refused at its second unit, and a registration that is refused. -/
def mixedRequests : List Registry.Request :=
  [.batch .any "b" [("a.G", Machine.ownMaker.encode), ("a.G", Machine.foreignMaker.encode)],
    .single (.register "a.H" Machine.integerHost.encode)]

/-- Whether a call makes a closure. -/
def closureMade (r : Registry) (call : Invocation) (c : Closure) : Bool :=
  (call.run ⟨r, 256⟩ 10 .empty).any fun o => o.2.closure? 0 = some c

set_option maxRecDepth 100000 in
/-- A site moves to another host while a closure of it is held. -/
theorem coherent_served_mixed :
    ∃ w, Reachable .default w ∧ w.heap.closure? 0 = some (Machine.madeClosure [.i32 7]) ∧
      (w.registry.serveAll mixedRequests).Numbered ∧
      Coherent ⟨w.registry.serveAll mixedRequests, w.heap⟩ := by
  have hfacts : ((Registry.create .default).replay Machine.openings).any (fun r =>
      closureMade r (.static "a.G" "make()La.G;" []) (Machine.madeClosure [.i32 7]) ∧
        (r.serveAll mixedRequests).CollisionFree ∧ (r.serveAll mixedRequests).Numbered) = true := by
    decide +kernel
  obtain ⟨r, hr, hfacts⟩ := (Option.any_eq_true _ _).mp hfacts
  obtain ⟨hmade, hfree, hnumbered⟩ := of_decide_eq_true hfacts
  obtain ⟨o, ho, hclosure⟩ := (Option.any_eq_true _ _).mp hmade
  have hcall : (Invocation.static "a.G" "make()La.G;" []).Belongs .empty := nofun
  have hw : Reachable .default ⟨r, o.2⟩ :=
    (reachable_of_leads (Registry.leads_of_replay hr)).tail (.call hcall ho)
  exact ⟨_, hw, of_decide_eq_true hclosure, hnumbered, hw.coherent_served rfl _ hfree⟩

/-- A unit with all strings that there are indices for but one creates a closure of a site that captures
an instance, without one. -/
theorem not_encloses_crowded :
    ∃ g t q r o, (Registry.create .default).register "a.G" encloser.encode = .ok (g, q) ∧
      q.register "a.H" (crowded (List.replicate (UInt32.size - 4) "")).encode = .ok (t, r) ∧
      (Invocation.static "a.H" "m()V" []).run ⟨r, 256⟩ 3 .empty = some o ∧
      Reachable .default ⟨r, o.2⟩ ∧ ¬ o.2.Encloses r := by
  obtain ⟨hsize, hblank⟩ := Crowded.replicate_blank
  obtain ⟨g, t, q, r, h⟩ := Crowded.exists_registers hsize hblank
  obtain ⟨o, hrun, hclosure⟩ := h.run_moved
  have hcall : (Invocation.static "a.H" "m()V" []).Belongs .empty := nofun
  have hw : Reachable .default ⟨r, o.2⟩ :=
    (reachable_of_leads h.reachable).tail (.call hcall hrun)
  refine ⟨g, t, q, r, o, h.registered, h.accepted, hrun, hw, fun hencloses => ?_⟩
  obtain ⟨s, hs, hthis⟩ := hencloses 0 _ hclosure
  obtain rfl := Option.some.inj (h.find?_site.symm.trans hs)
  cases hthis

end World

end LiveTypes
