import LiveTypes.Proofs.Capture.Closure
import LiveTypes.Proofs.Registry.Apply
import LiveTypes.Proofs.Registry.Sites

/-!
# The capture law

What code of the current host of a closure reads at a position: the value that the closure was created
with, or a default, depending on the bindings since. The law holds of a position just when every binding
since the one that the code goes by kept its type (`reads_captured`).
-/

namespace LiveTypes

/-- Whether every binding of a site since an earlier state kept the type of a position. -/
def CaptureSite.KeptUntil (s₀ s : CaptureSite) (p : Nat) (type : TypeDescriptor) : Prop :=
  s₀.typeAt? p = some type ∧
    ∀ m ∈ s.mappings.drop s₀.mappings.length, s.typeUnder? m p = some type

instance (s₀ s : CaptureSite) (p : Nat) (type : TypeDescriptor) :
    Decidable (s₀.KeptUntil s p type) :=
  inferInstanceAs (Decidable (_ ∧ _))

/-- What a position of a closure holds by the law, if it was created over the passed values when its
site was in the first state: the passed value as long as every binding since kept the type of the
position, and the default of the type otherwise. -/
def CaptureSite.owed (s₀ s : CaptureSite) (passed : List Value) (p : Nat)
    (type : TypeDescriptor) : Value :=
  if s₀.KeptUntil s p type then passed[p]?.getD (.default type) else .default type

lemma CaptureSite.Evolves.slotFor?_eq_iff_keptUntil {s₀ s : CaptureSite} (h : s₀.Evolves s)
    (hs₀ : s₀.Tidy) {p : Nat} {type : TypeDescriptor} (htype : s.typeAt? p = some type) :
    s₀.slotFor? p = s.slotFor? p ↔ s₀.KeptUntil s p type := by
  obtain ⟨since, hsince⟩ := h.mappings_grow
  rw [h.slotFor?_eq_iff hs₀ hsince.symm htype, KeptUntil, ← hsince, List.drop_left]

namespace Machine

variable {vm₀ vm : Machine} {passed : List Value} {c : Closure} {s₀ s : CaptureSite}

/-! ### Slots of a created closure -/

/-- A slot that no passed value was stored in holds the default of its type. -/
lemma heldAt_of_unfilled (hs₀ : s₀.Tidy) (hevolves : s₀.Evolves s)
    (hfill : fillSlots c.site s₀ 0 (s₀.slots.map fun slot => .default slot.type) passed =
      .ok c.captured) {k : Nat} {type : TypeDescriptor} (htype : s.slotType? k = some type)
    (hk : ∀ j, j < passed.length → s₀.slotFor? j ≠ some k) : heldAt c s k = .default type := by
  obtain ⟨-, -, hother⟩ := fillSlots_eq_ok hs₀.nodup hfill
  have hkept := hother k fun j hj => by simpa using hk j hj
  rw [heldAt, hkept, htype, List.getElem?_map]
  by_cases hlt : k < s₀.slots.length
  · have hold := hevolves.slotType?_of hlt
    rw [htype, CaptureSite.slotType?, List.getElem?_eq_getElem hlt] at hold
    rw [List.getElem?_eq_getElem hlt]
    simpa using congrArg Value.default (Option.some.inj hold).symm
  · rw [List.getElem?_eq_none_iff.mpr (by omega)]
    rfl

/-- The slot that a position had holds the value that was passed for it. -/
lemma heldAt_of_slotFor? (hs₀ : s₀.Tidy) (hevolves : s₀.Evolves s)
    (hfill : fillSlots c.site s₀ 0 (s₀.slots.map fun slot => .default slot.type) passed =
      .ok c.captured) {p k : Nat} {type : TypeDescriptor} (htype : s.slotType? k = some type)
    (hslot : s₀.slotFor? p = some k) : heldAt c s k = passed[p]?.getD (.default type) := by
  obtain ⟨-, hstored, -⟩ := fillSlots_eq_ok hs₀.nodup hfill
  by_cases hp : p < passed.length
  · obtain ⟨k', hslot', hvalue⟩ := hstored p passed[p] (List.getElem?_eq_getElem hp)
    rw [Nat.zero_add] at hslot'
    obtain rfl := Option.some.inj (hslot.symm.trans hslot')
    have hlt := hs₀.positions_lt k (List.mem_of_getElem? hslot)
    rw [heldAt, hvalue (by simpa using hlt), List.getElem?_eq_getElem hp]
    rfl
  · rw [List.getElem?_eq_none_iff.mpr (by omega)]
    apply heldAt_of_unfilled hs₀ hevolves hfill htype
    intro j hj heq
    have hlt : p < s₀.positions.length := (List.getElem?_eq_some_iff.mp hslot).1
    have := (List.getElem?_inj hlt hs₀.nodup).mp (hslot.trans heq.symm)
    omega

/-- The slot that a position has now holds what the law says. -/
lemma heldAt_eq_owed (hs₀ : s₀.Tidy) (hevolves : s₀.Evolves s)
    (hfill : fillSlots c.site s₀ 0 (s₀.slots.map fun slot => .default slot.type) passed =
      .ok c.captured) {p k : Nat} {type : TypeDescriptor} (hslot : s.slotFor? p = some k)
    (htype : s.slotType? k = some type) : heldAt c s k = s₀.owed s passed p type := by
  have hat : s.typeAt? p = some type := by rw [CaptureSite.typeAt?, hslot]; exact htype
  have hiff := hevolves.slotFor?_eq_iff_keptUntil hs₀ hat
  unfold CaptureSite.owed
  by_cases hkept : s₀.KeptUntil s p type
  · rw [if_pos hkept]
    exact heldAt_of_slotFor? hs₀ hevolves hfill htype ((hiff.mpr hkept).trans hslot)
  · rw [if_neg hkept]
    apply heldAt_of_unfilled hs₀ hevolves hfill htype
    intro j _ hj
    -- a slot that some position had then has the same position now
    have hlt := hs₀.positions_lt k (List.mem_of_getElem? hj)
    have hp := hevolves.slotFor?_of_lt hlt hslot
    exact hkept (hiff.mp (hp.trans hslot.symm))

/-- A slot that a position had under some map, but had neither at the creation nor later, holds a
default. -/
lemma heldAt_of_stale (hs₀ : s₀.Tidy) (hevolves : s₀.Evolves s)
    (hfill : fillSlots c.site s₀ 0 (s₀.slots.map fun slot => .default slot.type) passed =
      .ok c.captured) {m : HostMapping} (hm : m ∈ s.mappings) {p k : Nat}
    (hslot : m.positions[p]? = some k) (hold : s₀.slotFor? p ≠ some k) :
    ∃ type, heldAt c s k = .default type := by
  have hs := hevolves.tidy hs₀
  obtain ⟨type, htype⟩ :=
    CaptureSite.slotType?_isSome (hs.range m hm k (List.mem_of_getElem? hslot))
  refine ⟨type, heldAt_of_unfilled hs₀ hevolves hfill htype fun j _ hj => ?_⟩
  obtain ⟨earlier, version, hlast⟩ := hs₀.last
  have hmem : (⟨s₀.hostId, version, s₀.positions⟩ : HostMapping) ∈ s.mappings :=
    hevolves.mappings_grow.subset (hlast ▸ List.mem_append_right _ List.mem_cons_self)
  obtain rfl := hs.home _ hmem m hm j p k hj hslot
  exact hold hj

/-! ### Reading -/

/-- Whether code of an executable reads a value at a position of a closure, wherever it reads. -/
def Reads (vm : Machine) (e : Executable) (c : Closure) (position : UInt32) (v : Value) : Prop :=
  ∀ (i : Instruction) (owner : UInt32) (st : MachineState) (below : Array Value)
    (object : ObjectId), i.opcode = .getCaptured → i.operands = .pair owner position →
    st.stack.slots = below.push (.closure object) → st.stack.floor ≤ below.size →
    below.size < st.stack.limit → st.heap.closure? object = some c →
    step vm e i st = .ok .next
      { st with stack := { st.stack with slots := below.push v } }

lemma reads_heldAt {e : Executable} {position : UInt32} {k : Nat}
    (hsite : vm.registry.sites.find? c.site = some s)
    (hslot : s.slotAt? e.typeId e.version position.toNat = some k) :
    vm.Reads e c position (heldAt c s k) := by
  intro i owner st below object hop hoperands hslots hfloor hlimit hclosure
  exact step_getCaptured hop hoperands hslots hfloor hlimit hclosure hsite hslot

/-- Reading on a stack of one closure. -/
lemma Reads.probe {e : Executable} {position : UInt32} {v : Value}
    (h : vm.Reads e c position v) :
    getCaptured vm e position ⟨⟨#[.closure 0], [], 1⟩, ⟨#[.closureOf c], .empty⟩, 0⟩ =
      .ok .next ⟨⟨#[v], [], 1⟩, ⟨#[.closureOf c], .empty⟩, 0⟩ :=
  h ⟨0, .getCaptured, .pair 0 position⟩ 0 ⟨⟨#[.closure 0], [], 1⟩, ⟨#[.closureOf c], .empty⟩, 0⟩
    #[] 0 rfl rfl rfl (Nat.le_refl 0) Nat.one_pos rfl

/-- Only one value is read at a position. -/
lemma Reads.unique {e : Executable} {position : UInt32} {v w : Value}
    (hv : vm.Reads e c position v) (hw : vm.Reads e c position w) : v = w := by
  simpa using hv.probe.symm.trans hw.probe

/-- What is read is in the slot that the position has for the code. -/
lemma Reads.exists_slot {e : Executable} {position : UInt32} {v : Value}
    (h : vm.Reads e c position v) (hsite : vm.registry.sites.find? c.site = some s) :
    ∃ k, s.slotAt? e.typeId e.version position.toNat = some k ∧ v = heldAt c s k := by
  obtain ⟨c', st₁, hc', hrest⟩ := Run.bind_eq_ok.mp h.probe
  obtain ⟨rfl, rfl⟩ := EStateM.Result.ok.inj (hc'.symm.trans rfl)
  obtain ⟨s', st₂, hfound, hrest⟩ := Run.bind_eq_ok.mp hrest
  obtain ⟨hs', rfl⟩ := Run.require_eq_ok.mp hfound
  obtain rfl := Option.some.inj (hsite.symm.trans hs')
  obtain ⟨k, st₃, hk, -⟩ := Run.bind_eq_ok.mp hrest
  obtain ⟨hslot, -⟩ := Run.require_eq_ok.mp hk
  exact ⟨k, hslot, h.unique (reads_heldAt hsite hslot)⟩

/-- At a position whose type every binding since the one that the code goes by kept, the code reads
what the law says. -/
lemma reads_owed {e : Executable} {position : UInt32} {type : TypeDescriptor} (hs₀ : s₀.Tidy)
    (hevolves : s₀.Evolves s) (hsite : vm.registry.sites.find? c.site = some s)
    (hfill : fillSlots c.site s₀ 0 (s₀.slots.map fun slot => .default slot.type) passed =
      .ok c.captured) (htype : s.typeAt? position.toNat = some type)
    (hkept : s.KeptSince e.typeId e.version position.toNat) :
    vm.Reads e c position (s₀.owed s passed position.toNat type) := by
  have hslotAt := ((hevolves.tidy hs₀).slotAt?_eq_slotFor?_iff htype).mpr hkept
  obtain ⟨k, hslot, hk⟩ := Option.bind_eq_some_iff.mp htype
  rw [← heldAt_eq_owed hs₀ hevolves hfill hslot hk]
  exact reads_heldAt hsite (hslotAt.trans hslot)

/-- At a position whose type some binding since the one that the code goes by changed, the code does
not read what was passed for it, although the position kept its type since the creation. -/
lemma not_reads_of_lost {e : Executable} {position : UInt32} {type : TypeDescriptor}
    (hs₀ : s₀.Tidy) (hevolves : s₀.Evolves s)
    (hsite : vm.registry.sites.find? c.site = some s)
    (hfill : fillSlots c.site s₀ 0 (s₀.slots.map fun slot => .default slot.type) passed =
      .ok c.captured) (htype : s.typeAt? position.toNat = some type)
    (hlost : ¬ s.KeptSince e.typeId e.version position.toNat)
    (hkept : s₀.KeptUntil s position.toNat type) {v : Value} (hv : ∀ type, v ≠ .default type) :
    ¬ vm.Reads e c position v := by
  intro hreads
  have hslotAt := mt ((hevolves.tidy hs₀).slotAt?_eq_slotFor?_iff htype).mp hlost
  have hslotFor := (hevolves.slotFor?_eq_iff_keptUntil hs₀ htype).mpr hkept
  obtain ⟨k, hslot, hheld⟩ := hreads.exists_slot hsite
  cases hm : s.mappingAt? e.typeId e.version with
  | none =>
    rw [CaptureSite.slotAt?, hm] at hslotAt
    exact hslotAt rfl
  | some m =>
    obtain ⟨-, earlier, later, hsplit, -⟩ := CaptureSite.mappingAt?_eq_some.mp hm
    have hmem : m ∈ s.mappings := hsplit ▸ List.mem_append_right _ List.mem_cons_self
    have hposition : m.positions[position.toNat]? = some k := by
      rwa [CaptureSite.slotAt?, hm] at hslot
    obtain ⟨type', htype'⟩ := heldAt_of_stale hs₀ hevolves hfill hmem hposition fun heq =>
      hslotAt (hslot.trans (heq.symm.trans hslotFor))
    exact hv type' (hheld.trans htype')

open Registry

/-- Code of the current host of a closure reads at each position what the law says, if every binding
since the one that its version goes by kept the type of the position, and so always if the current
version of the host has bodies of its own. Otherwise it does not read a value that the closure was
created with and still should hold. -/
theorem reads_captured {config : RegistryConfig} (hverify : config.verify = true)
    (h₀ : Reachable config vm₀.registry) (h : Leads vm₀.registry vm.registry)
    (hc : vm₀.Creates passed c) :
    ∃ s₀ s t, vm₀.registry.sites.find? c.site = some s₀ ∧
      vm.registry.sites.find? c.site = some s ∧ vm.registry.byId? s.hostId = some t ∧
      (vm.registry.CollisionFree → s.HostedBy t) ∧
      ∀ key e position type, t.table.find? key = some e →
        s.typeAt? position.toNat = some type →
        (e.version = t.table.version → s.KeptSince e.typeId e.version position.toNat) ∧
        (s.KeptSince e.typeId e.version position.toNat →
          vm.Reads e c position (s₀.owed s passed position.toNat type)) ∧
        (¬ s.KeptSince e.typeId e.version position.toNat →
          s₀.KeptUntil s position.toNat type →
          ∀ v, passed[position.toNat]? = some v → (∀ type, v ≠ .default type) →
            ¬ vm.Reads e c position v) := by
  obtain ⟨s₀, hs₀, hfill⟩ := captured_of_creates hc
  have hreachable : Reachable config vm.registry := h₀.trans h
  have hwell := hreachable.wellFormed hverify
  obtain ⟨-, hextends⟩ := h.extends (h₀.wellFormed hverify)
  obtain ⟨s, hs, hevolves⟩ := hextends.sites c.site s₀ hs₀
  have htidy₀ := (h₀.tidy hverify c.site s₀ hs₀).1
  obtain ⟨htidy, hversions⟩ := hreachable.tidy hverify c.site s hs
  -- the site was bound to its host, which is registered therefore
  obtain ⟨earlier, version, hlast⟩ := htidy.last
  obtain ⟨t, ht, hid, -⟩ := hversions _ (hlast ▸ List.mem_append_right _ List.mem_cons_self)
  refine ⟨s₀, s, t, hs₀, hs, hwell.byId?_eq_some.mpr ⟨ht, hid⟩, ?_, ?_⟩
  · intro hfree
    obtain ⟨q, hq, hby⟩ := hreachable.hosted hverify hfree c.site s hs
    rwa [← hwell.eq_of_id hq ht (hby.id_eq.trans hid.symm)]
  · intro key e position type he htype
    obtain ⟨_, -, hbodies⟩ := (hwell.types t ht).bodies
    have hown : e.typeId = s.hostId := (hbodies key e he).1.trans hid
    refine ⟨fun hversion => ?_, reads_owed htidy₀ hevolves hs hfill htype, fun hlost hkept v _ =>
      not_reads_of_lost htidy₀ hevolves hs hfill htype hlost hkept⟩
    rw [hown, hversion]
    apply htidy.keptSince
    intro m hm hhost
    obtain ⟨t', ht', hid', hle⟩ := hversions m hm
    rwa [hwell.eq_of_id ht' ht (hid'.trans (hhost.trans hid.symm))] at hle

/-! ### A site that moves between hosts -/

/-- A host of closures that captures an integer and reads it. -/
def integerHost : TypeUnit where
  formatFlags := 0
  name := "a.H"
  superName := none
  access := Access.isPublic ||| Access.closureHost
  constants := ⟨#["a.H", "x"], [], []⟩
  fields := [⟨"x", .i32, capturedField⟩]
  methods := [⟨⟨"get", ⟨[], .i32⟩⟩, 0, [], 1, Instruction.encodeAll
    [⟨0, .loadLocal, .localSlot 0⟩, ⟨3, .getField, .pair 0 1⟩, ⟨12, .ret, .none⟩]⟩]
  attributes := []

/-- A host that captures a long integer, and that creates a closure of some host over a constant. -/
def closureMaker (host : String) (constant : Instruction) : TypeUnit where
  formatFlags := 0
  name := "a.G"
  superName := none
  access := Access.isPublic ||| Access.closureHost
  constants := ⟨#[host], [], []⟩
  fields := [⟨"x", .i64, capturedField⟩]
  methods := [⟨⟨"make", ⟨[], .object "a.G"⟩⟩, staticMethod, [], 0, Instruction.encodeAll
    [constant, ⟨constant.next, .makeClosure, .closure 0 1 0⟩,
      ⟨constant.next + 7, .ret, .none⟩]⟩]
  attributes := []

/-- Its first version creates closures of the other host. -/
def foreignMaker : TypeUnit := closureMaker "a.H" ⟨0, .constI32, .i32 7⟩

/-- Its second version creates closures of its own. -/
def ownMaker : TypeUnit := closureMaker "a.G" ⟨0, .constI64, .i64 7⟩

def openings : List Operation :=
  [.register "a.H" integerHost.encode, .register "a.G" foreignMaker.encode]

/-- The host is given once more, and the site moves to the other host and back. -/
def moves : List Operation :=
  openings ++ [.reload "a.H" "same" integerHost.encode, .reload "a.G" "own" ownMaker.encode,
    .reload "a.G" "foreign" foreignMaker.encode]

/-- A closure of the site, holding the given values. -/
def madeClosure (captured : List Value) : Closure := ⟨⟨1, "make()La.G;", 0⟩, none, captured⟩

/-- Whether the creation in the published body makes a closure over the constant. -/
def makes (r : Registry) (c : Closure) : Bool :=
  ((r.byId? 1).bind fun t => t.table.find? "make()La.G;").any fun e =>
    match step ⟨r, 256⟩ e ⟨5, .makeCaptured, .closure 1 1 0⟩ ⟨⟨#[.i32 7], [], 1⟩, .empty, 0⟩ with
    | .ok .next st =>
      st.stack.slots.back? = some (.closure 0) && st.heap.closure? 0 = some c
    | _ => false

lemma creates_of_makes {r : Registry} {c : Closure} (h : makes r c = true) :
    Creates ⟨r, 256⟩ [.i32 7] c := by
  obtain ⟨e, -, he⟩ := (Option.any_eq_true _ _).mp h
  split at he
  · next st hstep =>
    simp only [Bool.and_eq_true, decide_eq_true_eq] at he
    exact ⟨e, _, 1, 1, 0, _, st, 0, rfl, rfl, rfl, List.suffix_refl _, hstep, he.1, he.2⟩
  · cases he

/-- Whether the site of the closures kept the type of its position, and the body of its current host
that reads the position is as asked for. -/
def hostReads (r : Registry) (p : CaptureSite → LiveType → Executable → Bool) : Bool :=
  match r.sites.find? ⟨1, "make()La.G;", 0⟩ with
  | some s =>
    match r.byId? s.hostId with
    | some t =>
      match t.table.find? "get()I" with
      | some e => s.typeAt? 0 = some .i32 && decide (s.KeptUntil s 0 .i32) && p s t e
      | none => false
    | none => false
  | none => false

lemma exists_of_hostReads {r : Registry} {p : CaptureSite → LiveType → Executable → Bool}
    (h : hostReads r p = true) :
    ∃ s t e, r.sites.find? ⟨1, "make()La.G;", 0⟩ = some s ∧ r.byId? s.hostId = some t ∧
      t.table.find? "get()I" = some e ∧ s.typeAt? 0 = some .i32 ∧ s.KeptUntil s 0 .i32 ∧
      p s t e = true := by
  unfold hostReads at h
  split at h
  · next s hs =>
    split at h
    · next t ht =>
      split at h
      · next e he =>
        simp only [Bool.and_eq_true, decide_eq_true_eq] at h
        exact ⟨s, t, e, hs, ht, he, h.1.1, h.1.2, h.2⟩
      · cases h
    · cases h
  · cases h

lemma owed_of_keptUntil {type : TypeDescriptor} {p : Nat} (h : s₀.KeptUntil s p type) :
    s₀.owed s passed p type = passed[p]?.getD (.default type) :=
  if_pos h

set_option maxRecDepth 100000 in
/-- A closure that was created over 7 reads 7. -/
theorem reads_captured_seven :
    ∃ r, (Registry.create .default).replay openings = some r ∧ Reachable .default r ∧
      Creates ⟨r, 256⟩ [.i32 7] (madeClosure [.i32 7]) ∧
      ∃ s t e, r.sites.find? (madeClosure [.i32 7]).site = some s ∧
        r.byId? s.hostId = some t ∧ t.table.find? "get()I" = some e ∧
        Reads ⟨r, 256⟩ e (madeClosure [.i32 7]) 0 (.i32 7) := by
  have hfacts : ((Registry.create .default).replay openings).any (fun r =>
      makes r (madeClosure [.i32 7]) &&
        hostReads r fun _ t e => e.version = t.table.version) = true := by
    decide +kernel
  obtain ⟨r, hr, hfacts⟩ := (Option.any_eq_true _ _).mp hfacts
  obtain ⟨hmakes, hreads⟩ := Bool.and_eq_true_iff.mp hfacts
  obtain ⟨s, t, e, hs, ht, he, htype, hkept, hversion⟩ := exists_of_hostReads hreads
  have hreachable : Reachable .default r := leads_of_replay hr
  have hcreates := creates_of_makes hmakes
  obtain ⟨s₀, s', t', hs₀, hs', ht', -, hlaw⟩ :=
    @reads_captured ⟨r, 256⟩ ⟨r, 256⟩ _ _ .default rfl hreachable .refl hcreates
  obtain rfl := Option.some.inj (hs.symm.trans hs₀)
  obtain rfl := Option.some.inj (hs.symm.trans hs')
  obtain rfl := Option.some.inj (ht.symm.trans ht')
  obtain ⟨hcurrent, hreads, -⟩ := hlaw "get()I" e 0 .i32 he htype
  have howed : Reads ⟨r, 256⟩ e (madeClosure [.i32 7]) 0 (s.owed s [.i32 7] 0 .i32) :=
    hreads (hcurrent (by simpa using hversion))
  rw [owed_of_keptUntil hkept] at howed
  exact ⟨r, hr, hreachable, hcreates, s, t, e, hs, ht, he, howed⟩

set_option maxRecDepth 100000 in
/-- After the moves, a closure that was created over 7 should hold 7, but its host reads 0. -/
theorem reads_stale_zero :
    ∃ r, (Registry.create .default).replay moves = some r ∧ Reachable .default r ∧
      Creates ⟨r, 256⟩ [.i32 7] (madeClosure [.i32 0, .i64 0, .i32 7]) ∧
      ∃ s t e, r.sites.find? (madeClosure [.i32 0, .i64 0, .i32 7]).site = some s ∧
        r.byId? s.hostId = some t ∧ t.table.find? "get()I" = some e ∧
        s.owed s [.i32 7] 0 .i32 = .i32 7 ∧
        Reads ⟨r, 256⟩ e (madeClosure [.i32 0, .i64 0, .i32 7]) 0 (.i32 0) := by
  have hfacts : ((Registry.create .default).replay moves).any (fun r =>
      makes r (madeClosure [.i32 0, .i64 0, .i32 7]) &&
        hostReads r fun s _ e => s.slotAt? e.typeId e.version 0 = some 0) = true := by
    decide +kernel
  obtain ⟨r, hr, hfacts⟩ := (Option.any_eq_true _ _).mp hfacts
  obtain ⟨hmakes, hreads⟩ := Bool.and_eq_true_iff.mp hfacts
  obtain ⟨s, t, e, hs, ht, he, -, hkept, hslot⟩ := exists_of_hostReads hreads
  refine ⟨r, hr, leads_of_replay hr, creates_of_makes hmakes, s, t, e, hs, ht, he,
    owed_of_keptUntil hkept, ?_⟩
  exact @reads_heldAt ⟨r, 256⟩ _ _ _ 0 0 hs (by simpa using hslot)

end Machine

end LiveTypes
