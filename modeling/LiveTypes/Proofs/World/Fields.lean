import LiveTypes.Proofs.Heap.Release
import LiveTypes.Proofs.Machine.Access
import LiveTypes.Proofs.World.Basic

/-!
# Instances as maps

The fields of an instance behave as one map from names to values, over all versions of its type. A
log keeps every write that the host or an instruction makes (`Logged`), and a field that some version
declares holds what was last written under its name, or the default of its type, whichever way it is
read (`Logged.reads_last_written`). Reloads and writes of other fields never change it.
-/

namespace LiveTypes

open Machine

/-- The worlds that a host and its code come to in any order of steps, each with the log of all
writes to fields, while an object stays: an instruction is a step of its own, so a reload may come
between any two. -/
inductive World.Logged (config : RegistryConfig) (o : ObjectId) : World → List FieldWrite → Prop where
  | start : Logged config o ⟨.create config, .empty⟩ []
  | update {w : World} {log : List FieldWrite} {r : Registry} (before : Logged config o w log)
      (ok : Registry.Step w.registry r) : Logged config o ⟨r, w.heap⟩ log
  | make {w : World} {log : List FieldWrite} {limit : Nat} {typeName : String} {v : Value}
      {h : Heap} (before : Logged config o w log)
      (ok : (Machine.mk w.registry limit).makeInstance typeName w.heap = .ok (v, h)) :
      Logged config o ⟨w.registry, h⟩ log
  | readField {w : World} {log : List FieldWrite} {t : LiveType} {id : ObjectId} {name : String}
      {v : Value} {h : Heap} (before : Logged config o w log)
      (registered : w.registry.find? t.name = some t) (held : w.heap.Holds (.object id t.name))
      (ok : w.heap.readField t id name = some (v, h)) : Logged config o ⟨w.registry, h⟩ log
  | writeField {w : World} {log : List FieldWrite} {t : LiveType} {id : ObjectId} {name : String}
      {v : Value} {h : Heap} (before : Logged config o w log)
      (registered : w.registry.find? t.name = some t) (held : w.heap.Holds (.object id t.name))
      (ok : w.heap.writeField t id name v = some h) :
      Logged config o ⟨w.registry, h⟩ (⟨id, name, v⟩ :: log)
  | step {w : World} {log : List FieldWrite} {limit : Nat} {e : Executable} {i : Instruction}
      {s s' : MachineState} {flow : Flow} (before : Logged config o w log)
      (heap_eq : s.heap = w.heap) (held : ∀ v ∈ s.stack.slots, w.heap.Holds v)
      (ok : step ⟨w.registry, limit⟩ e i s = .ok flow s') :
      Logged config o ⟨w.registry, s'.heap⟩ ((write? ⟨w.registry, limit⟩ e i s).toList ++ log)
  | fault {w : World} {log : List FieldWrite} {limit : Nat} {e : Executable} {i : Instruction}
      {s s' : MachineState} {cause : VmError} (before : Logged config o w log)
      (heap_eq : s.heap = w.heap) (held : ∀ v ∈ s.stack.slots, w.heap.Holds v)
      (error : step ⟨w.registry, limit⟩ e i s = .error cause s') :
      Logged config o ⟨w.registry, s'.heap⟩ log
  | release {w : World} {log : List FieldWrite} {id : ObjectId} (before : Logged config o w log)
      (other : id ≠ o) :
      Logged config o ⟨w.registry, { w.heap with extensions := w.heap.extensions.release id }⟩ log

namespace World

variable {config : RegistryConfig} {o : ObjectId} {w : World} {log : List FieldWrite}

/-- The log says all about the fields of the object. -/
lemma Logged.tracks (h : Logged config o w log) (hverify : config.verify = true) :
    w.registry.WellFormed ∧ w.heap.Tracks w.registry log o := by
  induction h with
  | start =>
    exact ⟨@Registry.Reachable.wellFormed _ config .refl hverify, Heap.tracks_empty _ o⟩
  | update _ ok ih =>
    obtain ⟨hwell, htracks⟩ := ih
    have hchange := ok.change
    have hwell' := hwell.change hchange
    exact ⟨hwell', htracks.of_extends hwell hwell' (hchange.extends hwell)⟩
  | @make w log limit typeName v heap _ ok ih =>
    obtain ⟨hwell, htracks⟩ := ih
    refine ⟨hwell, ?_⟩
    obtain ⟨t, hfind, -, -, rfl⟩ := makeInstance_eq_ok.mp ok
    obtain rfl := Registry.find?_name hfind
    exact htracks.effect hwell (.made hfind)
  | readField _ hfind hheld ok ih =>
    obtain ⟨hwell, htracks⟩ := ih
    refine ⟨hwell, ?_⟩
    obtain ⟨place, hplace, -, rfl⟩ := Heap.readField_eq_some.mp ok
    exact htracks.effect hwell (.touched hfind hheld hplace)
  | writeField _ hfind hheld ok ih =>
    obtain ⟨hwell, htracks⟩ := ih
    refine ⟨hwell, ?_⟩
    obtain ⟨place, hplace, -, rfl⟩ := Heap.writeField_eq_some.mp ok
    exact htracks.effect hwell (.stored hfind hheld hplace fun _ _ => trivial)
  | @step w log limit e i s s' flow _ hheap hheld ok ih =>
    obtain ⟨hwell, htracks⟩ := ih
    refine ⟨hwell, ?_⟩
    rw [← hheap] at hheld htracks
    have heffect := @step_affects ⟨w.registry, limit⟩ e s i hwell hheld
    exact htracks.effect hwell (heffect.of_ok ok).any
  | @fault w log limit e i s s' cause _ hheap hheld error ih =>
    obtain ⟨hwell, htracks⟩ := ih
    refine ⟨hwell, ?_⟩
    rw [← hheap] at hheld htracks
    have heffect := @step_affects ⟨w.registry, limit⟩ e s i hwell hheld
    exact htracks.effect hwell (heffect.of_error error).any
  | release _ hother ih => exact ⟨ih.1, ih.2.release hother⟩

lemma Logged.reachable (h : Logged config o w log) : Registry.Reachable config w.registry := by
  induction h with
  | start => exact .refl
  | update _ ok ih => exact ih.tail ok
  | _ => assumption

lemma Logged.leads {r : Registry} (h : Logged config o w log)
    (hleads : Registry.Leads w.registry r) : Logged config o ⟨r, w.heap⟩ log := by
  induction hleads with
  | refl => exact h
  | tail _ hstep ih => exact ih.update hstep

/-! ### Calls and releases -/

/-- Whether what a host does as a whole goes on with the log: a call, whatever it comes to, and a
release of what its roots do not reach, as long as they reach the object. -/
structure GoesOn (config : RegistryConfig) (o : ObjectId) (w : World) (log : List FieldWrite) :
    Prop where
  call {call : Invocation} {limit fuel : Nat} {out : Except VmError Value × Heap}
      (belongs : call.Belongs w.heap) (ok : call.run ⟨w.registry, limit⟩ fuel w.heap = some out) :
    ∃ writes, Logged config o ⟨w.registry, out.2⟩ (writes ++ log)
  release {roots : List Value} (held : ∀ v ∈ roots, w.heap.Holds v) (kept : w.heap.Kept roots o) :
    Logged config o ⟨w.registry, w.heap.release roots⟩ log

lemma Logged.call (h : Logged config o w log) (hw : w.Sound) {call : Invocation}
    (belongs : call.Belongs w.heap) {limit fuel : Nat} {out : Except VmError Value × Heap}
    (ok : call.run ⟨w.registry, limit⟩ fuel w.heap = some out) :
    ∃ writes, Logged config o ⟨w.registry, out.2⟩ (writes ++ log) := by
  have hsurvives : (Machine.mk w.registry limit).Survives
      fun heap => ∃ writes, Logged config o ⟨w.registry, heap⟩ (writes ++ log) := by
    rintro e i s - - hs ⟨writes, hlogged⟩
    unfold Run.Ends
    split
    · next flow s' hok =>
      refine ⟨(write? ⟨w.registry, limit⟩ e i s).toList ++ writes, ?_⟩
      rw [List.append_assoc]
      exact hlogged.step rfl hs.stack hok
    · next cause s' herror => exact ⟨writes, hlogged.fault rfl hs.stack herror⟩
  exact (Invocation.settled_run hw.code hsurvives hw.heap ⟨[], h⟩ belongs ok).2

lemma Logged.release_kept (h : Logged config o w log) (hw : w.Sound) {roots : List Value}
    (hroots : ∀ v ∈ roots, w.heap.Holds v) (hkept : w.heap.Kept roots o) :
    Logged config o ⟨w.registry, w.heap.release roots⟩ log := by
  refine hw.heap.release_kept hroots (P := fun heap => Logged config o ⟨w.registry, heap⟩ log) h
    fun heap id hnot hlogged => hlogged.release ?_
  rintro rfl
  exact hnot hkept

/-- A whole call is a series of steps, and a whole release one of releases of single objects. -/
lemma Logged.goesOn (h : Logged config o w log) (hw : w.Sound) : GoesOn config o w log where
  call belongs ok := h.call hw belongs ok
  release := h.release_kept hw

/-! ### Reading and writing -/

/-- Whether a field of an instance reads as a value, whichever way it is read. -/
structure Reads (w : World) (t : LiveType) (o : ObjectId) (name : String) (v : Value) : Prop where
  host : ∃ h, w.heap.readField t o name = some (v, h)
  slot {k limit offset : Nat} {e : Executable} {owner : UInt32} {below : Array Value}
      {s : MachineState} (slot_eq : t.layout.slot? name = some k) (heap_eq : s.heap = w.heap)
      (about : AboutToRead e owner t.name o below s) :
    step ⟨w.registry, limit⟩ e ⟨offset, .getFieldSlot, .pair owner (.ofNat k)⟩ s =
      .ok .next (withSlots s (below.push v))
  byName {limit offset : Nat} {e : Executable} {owner index : UInt32} {below : Array Value}
      {s : MachineState} (name_eq : e.constants.string? index = some name)
      (heap_eq : s.heap = w.heap) (about : AboutToRead e owner t.name o below s) :
    ∃ h, step ⟨w.registry, limit⟩ e ⟨offset, .getExtField, .pair owner index⟩ s =
      .ok .next (withSlots { s with heap := h } (below.push v))

/-- Whether a field of an instance can be written, whichever way it is: by the host with any value, by
code with those of its type. -/
structure Takes (w : World) (t : LiveType) (o : ObjectId) (name : String) (type : TypeDescriptor) :
    Prop where
  host (v : Value) : ∃ h, w.heap.writeField t o name v = some h
  slot {k limit offset : Nat} {e : Executable} {owner : UInt32} {v : Value} {below : Array Value}
      {s : MachineState} (slot_eq : t.layout.slot? name = some k) (heap_eq : s.heap = w.heap)
      (about : AboutToWrite e owner t.name o v below s) (conforms : v.conforms type = true) :
    (∃ s', step ⟨w.registry, limit⟩ e ⟨offset, .putFieldSlot, .pair owner (.ofNat k)⟩ s =
      .ok .next s') ∧
      write? ⟨w.registry, limit⟩ e ⟨offset, .putFieldSlot, .pair owner (.ofNat k)⟩ s =
        some ⟨o, name, v⟩
  byName {limit offset : Nat} {e : Executable} {owner index : UInt32} {v : Value}
      {below : Array Value} {s : MachineState} (name_eq : e.constants.string? index = some name)
      (heap_eq : s.heap = w.heap) (about : AboutToWrite e owner t.name o v below s)
      (conforms : v.conforms type = true) :
    (∃ s', step ⟨w.registry, limit⟩ e ⟨offset, .putExtField, .pair owner index⟩ s =
      .ok .next s') ∧
      write? ⟨w.registry, limit⟩ e ⟨offset, .putExtField, .pair owner index⟩ s = some ⟨o, name, v⟩

/-- Whether a name is no field of an instance: it is neither read nor written, and nothing changes. -/
structure Lacks (w : World) (t : LiveType) (o : ObjectId) (name : String) : Prop where
  hostRead : w.heap.readField t o name = none
  hostWrite (v : Value) : w.heap.writeField t o name v = none
  slot : t.layout.slot? name = none
  read {limit offset : Nat} {e : Executable} {owner index : UInt32} {below : Array Value}
      {s : MachineState} (name_eq : e.constants.string? index = some name)
      (about : AboutToRead e owner t.name o below s) :
    step ⟨w.registry, limit⟩ e ⟨offset, .getExtField, .pair owner index⟩ s =
      .error (.noSuchField t.name name) (withSlots s below)
  write {limit offset : Nat} {e : Executable} {owner index : UInt32} {v : Value}
      {below : Array Value} {s : MachineState} (name_eq : e.constants.string? index = some name)
      (about : AboutToWrite e owner t.name o v below s) :
    step ⟨w.registry, limit⟩ e ⟨offset, .putExtField, .pair owner index⟩ s =
      .error (.noSuchField t.name name) (withSlots s below)

variable {t : LiveType} {name : String} {type : TypeDescriptor} {v : Value}
  {place : LiveType.FieldPlace}

lemma reads_of_valueAt? (ht : t.WellFormed) (hfind : w.registry.find? t.name = some t)
    (hplace : t.fieldPlace? name = some place) (hv : w.heap.valueAt? o name place = some v) :
    w.Reads t o name v := by
  constructor
  · exact ⟨_, Heap.readField_eq_some.mpr ⟨place, hplace, hv, rfl⟩⟩
  · intro k limit offset e owner below s hslot hheap habout
    obtain rfl := Option.some.inj (hplace.symm.trans (LiveType.fieldPlace?_eq_slot.mpr hslot))
    refine step_getFieldSlot habout ?_
    rw [ht.toNat_slot hslot, hheap]
    exact hv
  · intro limit offset e owner index below s hname hheap habout
    rw [← hheap] at hv
    exact ⟨_, step_getExtField habout hname hfind hplace hv⟩

lemma takes_of_valueAt? (ht : t.WellFormed) (hfind : w.registry.find? t.name = some t)
    (htype : t.fieldType? name = some type) (hplace : t.fieldPlace? name = some place)
    (hv : w.heap.valueAt? o name place = some v) : w.Takes t o name type := by
  constructor
  · intro v'
    exact ⟨_, Heap.writeField_eq_some.mpr ⟨place, hplace, ⟨v, hv⟩, rfl⟩⟩
  · intro k limit offset e owner v' below s hslot hheap habout hconforms
    obtain ⟨type', htype', hk⟩ := ht.fieldType?_of_slot? hslot
    obtain rfl := Option.some.inj (htype.symm.trans htype')
    rw [← ht.toNat_slot hslot] at hk
    refine ⟨⟨_, step_putFieldSlot habout hfind hk hconforms⟩, ?_⟩
    show s.stack.write? _ = _
    rw [habout.write?, hfind, Option.bind_some, ht.toNat_slot hslot, Layout.slotName?_of_slot? hslot]
    rfl
  · intro limit offset e owner index v' below s hname hheap habout hconforms
    refine ⟨⟨_, step_putExtField habout hname hfind htype hplace hconforms⟩, ?_⟩
    show s.stack.write? _ = _
    rw [habout.write?, hname]
    rfl

lemma lacks_of_fieldType? (ht : t.WellFormed) (hfind : w.registry.find? t.name = some t)
    (hnone : t.fieldType? name = none) : w.Lacks t o name := by
  have hplace : t.fieldPlace? name = none := by
    by_contra hsome
    obtain ⟨place, hplace⟩ := Option.ne_none_iff_exists'.mp hsome
    obtain ⟨type, htype⟩ := ht.fieldType?_of_place hplace
    rw [hnone] at htype
    cases htype
  constructor
  · rw [Heap.readField, hplace]
    rfl
  · intro v
    rw [Heap.writeField, hplace]
    rfl
  · by_contra hsome
    obtain ⟨k, hk⟩ := Option.ne_none_iff_exists'.mp hsome
    rw [LiveType.fieldPlace?_eq_slot.mpr hk] at hplace
    cases hplace
  · intro limit offset e owner index below s hname habout
    exact step_getExtField_of_none habout hname hfind hplace
  · intro limit offset e owner index v below s hname habout
    exact step_putExtField_of_none habout hname hfind hnone

/-- The fields of an instance are one map. A field that some version of its type declares can be
written, and reads as what was last written to it, or as its default if nothing was, unless two
versions with different bytes have one digest. Any other name is no field, and was never written. All
this goes on through whole calls and releases when the values of the heap belong together. -/
theorem Logged.reads_last_written (h : Logged config o w log) (hverify : config.verify = true) {i : Instance}
    (hi : w.heap.instance? o = some i) :
    (∃ t, w.registry.find? i.typeName = some t ∧
      (∀ v ∈ t.versions, ∀ f ∈ v.unit.fields, t.Collides ∨
        w.Reads t o f.name (loggedValue o f.name f.type log) ∧ w.Takes t o f.name f.type) ∧
      ∀ name, (∀ v ∈ t.versions, ∀ f ∈ v.unit.fields, f.name ≠ name) →
        w.Lacks t o name ∧ lastWritten? o name log = none) ∧
      (w.heap.Sound w.registry → GoesOn config o w log) := by
  obtain ⟨hwell, htracks⟩ := h.tracks hverify
  obtain ⟨t, hfind⟩ := htracks.registered i hi
  have ht := hwell.types t (Registry.mem_of_find? hfind)
  have hname := Registry.find?_name hfind
  have hfound : w.registry.find? t.name = some t := hname ▸ hfind
  refine ⟨⟨t, hfind, fun v hv f hf => ?_, fun name hnever => ?_⟩,
    fun hheap => h.goesOn ⟨hwell, h.reachable.soundCode hverify, hheap⟩⟩
  · refine (h.reachable.records hverify t (Registry.mem_of_find? hfind)).imp_right
      fun hrecords => ?_
    have htype := hrecords v hv f hf
    obtain ⟨place, hplace⟩ := LiveType.exists_fieldPlace? htype
    have hvalue := htracks.value i t hi hfind f.name f.type place htype hplace
    exact ⟨reads_of_valueAt? ht hfound hplace hvalue, takes_of_valueAt? ht hfound htype hplace hvalue⟩
  · have hnone : t.fieldType? name = none := by
      by_contra hsome
      obtain ⟨type, htype⟩ := Option.ne_none_iff_exists'.mp hsome
      obtain ⟨v, hv, f, hf, hfname, -⟩ := ht.declared name type htype
      exact hnever v hv f hf hfname
    exact ⟨lacks_of_fieldType? ht hfound hnone, (htracks.undeclared i t hi hfind name hnone).2⟩

/-! ### A field that is dropped -/

def holder (field : String) : List UInt8 :=
  TypeUnit.encode
    { formatFlags := 0
      name := "a.T"
      superName := none
      access := Access.isPublic
      constants := .empty
      fields := [⟨field, .i32, 0⟩]
      methods := []
      attributes := [] }

/-- Whether the versions of a type declare the given fields, one each, and have digests of their own. -/
def declares (fields : List String) (t : LiveType) : Bool :=
  t.isClosureHost = false ∧
    t.versions.map (fun v => v.unit.fields) = fields.map (fun f => [⟨f, .i32, 0⟩]) ∧
    ∀ v ∈ t.versions, ∀ v' ∈ t.versions, digest v.bytes = digest v'.bytes → v.bytes = v'.bytes

lemma of_declares {fields : List String} {P : FieldDecl → Prop}
    (h : declares fields t = true)
    (hp : ∀ v ∈ t.versions, ∀ f ∈ v.unit.fields, t.Collides ∨ P f) :
    ∀ name ∈ fields, P ⟨name, .i32, 0⟩ := by
  obtain ⟨-, hversions, hfree⟩ := of_decide_eq_true h
  intro name hname
  have hmem : [⟨name, .i32, 0⟩] ∈ t.versions.map (fun v => v.unit.fields) :=
    hversions ▸ List.mem_map_of_mem hname
  obtain ⟨v, hv, hfields⟩ := List.mem_map.mp hmem
  rcases hp v hv ⟨name, .i32, 0⟩ (hfields ▸ List.mem_cons_self) with hcollides | hf
  · obtain ⟨v, hv, v', hv', hdigest, hbytes⟩ := hcollides
    exact absurd (hfree v hv v' hv' hdigest) hbytes
  · exact hf

set_option maxRecDepth 100000 in
/-- A field that a reload drops keeps its value, and the field that comes with it has its default. The
object stays when whatever else there is goes. -/
theorem reads_last_written_dropped :
    ∃ w t, Logged .default 0 w [⟨0, "x", .i32 5⟩] ∧ w.registry.find? "a.T" = some t ∧
      w.Reads t 0 "x" (.i32 5) ∧ w.Reads t 0 "y" (.i32 0) ∧ w.heap.Sound w.registry ∧
      Logged .default 0 ⟨w.registry, w.heap.release [.object 0 "a.T"]⟩ [⟨0, "x", .i32 5⟩] := by
  have hfacts : ((Registry.create .default).replay [.register "a.T" (holder "x")]).any (fun r =>
      (r.find? "a.T").any (declares ["x"]) ∧
        (r.replay [.reload "a.T" "second" (holder "y")]).any fun r' =>
          (r'.find? "a.T").any (declares ["x", "y"])) = true := by
    decide +kernel
  obtain ⟨r, hr, hafter⟩ := (Option.any_eq_true _ _).mp hfacts
  obtain ⟨hfirst, hsecond⟩ := of_decide_eq_true hafter
  obtain ⟨t, ht, hdeclares⟩ := (Option.any_eq_true _ _).mp hfirst
  obtain ⟨r', hr', hsecond⟩ := (Option.any_eq_true _ _).mp hsecond
  obtain ⟨t', ht', hdeclares'⟩ := (Option.any_eq_true _ _).mp hsecond
  have hname : t.name = "a.T" := Registry.find?_name ht
  -- the object is made, and its field is written
  have hinstance : (Machine.mk r 256).makeInstance "a.T" .empty =
      .ok (.object 0 t.name, (Heap.empty.allocate (newInstance t)).2) :=
    makeInstance_eq_ok.mpr ⟨t, ht, (of_decide_eq_true hdeclares).1, rfl, rfl⟩
  have hmade : Logged .default 0 ⟨r, (Heap.empty.allocate (newInstance t)).2⟩ [] :=
    (Logged.start.leads (Registry.leads_of_replay hr)).make hinstance
  obtain ⟨⟨t₁, ht₁, hdeclared, -⟩, -⟩ := hmade.reads_last_written rfl
    (i := ⟨t.id, t.name, t.layout.defaults⟩) rfl
  obtain rfl := Option.some.inj (ht.symm.trans (hname ▸ ht₁))
  obtain ⟨h, hwrite⟩ :=
    (of_declares hdeclares hdeclared "x" List.mem_cons_self).2.host (.i32 5)
  have hwritten : Logged .default 0 ⟨r, h⟩ [⟨0, "x", .i32 5⟩] :=
    hmade.writeField (hname.symm ▸ ht) ⟨⟨t.id, t.name, t.layout.defaults⟩, rfl, rfl⟩ hwrite
  -- the field goes, and another one comes
  have hreloaded : Logged .default 0 ⟨r', h⟩ [⟨0, "x", .i32 5⟩] :=
    hwritten.leads (Registry.leads_of_replay hr')
  obtain ⟨i, hi, -, hiname, -⟩ :=
    (Heap.grows_of_writeField hwrite).instances 0 ⟨t.id, t.name, t.layout.defaults⟩ rfl
  have hbefore : Reachable .default ⟨r, h⟩ :=
    ((reachable_of_leads (Registry.leads_of_replay hr)).tail (.make hinstance)).tail
      (@Step.writeField ⟨r, _⟩ t 0 "x" (.i32 5) h trivial hwrite)
  have hsound := (hbefore.leads (Registry.leads_of_replay hr')).sound rfl
  obtain ⟨⟨t₂, ht₂, hdeclared, -⟩, hgoes⟩ := hreloaded.reads_last_written rfl hi
  have hheld : ∀ v ∈ [Value.object 0 "a.T"], h.Holds v :=
    List.forall_mem_singleton.mpr ⟨i, hi, hiname.trans hname⟩
  have hreleased := (hgoes hsound.heap).release hheld (.root List.mem_cons_self rfl)
  rw [show i.typeName = "a.T" from hiname.trans hname] at ht₂
  obtain rfl := Option.some.inj (ht'.symm.trans ht₂)
  have hboth := of_declares hdeclares' hdeclared
  exact ⟨⟨r', h⟩, t', hreloaded, ht', (hboth "x" (by simp)).1, (hboth "y" (by simp)).1, hsound.heap,
    hreleased⟩

end World

end LiveTypes
