import LiveTypes.Proofs.Alike
import LiveTypes.Proofs.Machine.Twin
import LiveTypes.Proofs.Redirection.Version

/-!
# Redirecting before and after another type is registered

A version that refers to an enclosing type is redirected whether that type is registered or not, and
makes the same bodies but for the instructions that reach its members: they are bound when it is
registered, and find the members by name when it is not (`TypeUnit.redirect_twin`).
-/

namespace LiveTypes

variable {σ : Renaming} {r r' : Registry}

/-- Whether a type that code was bound to is found by name in both registries, with its layout in one
of them and its dispatchers in the other. -/
structure LiveType.Resolved (r r' : Registry) (name : String) (t : LiveType) : Prop where
  late : ∃ t₀, r.find? name = some t₀ ∧ t₀.layout = t.layout
  early : ∃ t₁, r'.find? name = some t₁ ∧
    ∀ key isStatic, t.loadedKind? key = some isStatic → t₁.Binds r' key isStatic

/-- The type with a name, as a version sees it that is redirected late or early. -/
inductive LiveType.Seen (σ : Renaming) (r r' : Registry) (u : TypeUnit) (name : String) :
    Option LiveType → Option LiveType → Prop
  | same (o : Option LiveType) (fixed : ∀ t, o = some t → σ t.id = t.id) : Seen σ r r' u name o o
  | bound {t : LiveType} (h : t.Resolved r r' name) : Seen σ r r' u name none (some t)
  /-- It takes an enclosing type to be referred to before it is registered. -/
  | refused (t : LiveType) (h : TypeName.isNestedIn u.name name = false) :
    Seen σ r r' u name (some t) none

/-- What the code of a version sees late and early. -/
structure RedirectContext.Twin (σ : Renaming) (r r' : Registry) (u : TypeUnit)
    (cx cx' : RedirectContext) : Prop where
  same : cx' = { cx with typeId := σ cx.typeId, registry := cx'.registry }
  types : ∀ name, name ≠ u.name →
    LiveType.Seen σ r r' u name (cx.registry.find? name) (cx'.registry.find? name)

/-- The owner of a member late and early. -/
inductive Owner.Twin (σ : Renaming) (r r' : Registry) (name : String) : Owner → Owner → Prop
  | own : Twin σ r r' name .own .own
  | registered {t : LiveType} (fixed : σ t.id = t.id) :
    Twin σ r r' name (.registered t) (.registered t)
  | lateBound : Twin σ r r' name .lateBound .lateBound
  | bound {t : LiveType} (h : t.Resolved r r' name) : Twin σ r r' name .lateBound (.registered t)

/-- What redirecting has made late and early; how often each redirection was made does not matter. -/
structure RedirectState.Twin (σ : Renaming) (s s' : RedirectState) : Prop where
  constants_eq : s'.constants = s.constants
  bindings_eq : s'.bindings.toList = s.bindings.toList.map (SiteBinding.rename σ)

structure MethodDecl.Twin (r r' : Registry) (constants : ConstantPool) (m m' : MethodDecl) :
    Prop where
  same : m' = { m with code := m'.code }
  length_eq : m'.code.length = m.code.length
  bodies : ∃ l l', Instruction.decodeAll m.code = .ok l ∧ Instruction.decodeAll m'.code = .ok l' ∧
    List.Forall₂ (Instruction.Twin r r' constants) l l'

structure RedirectedVersion.Twin (σ : Renaming) (r r' : Registry) (x y : RedirectedVersion) :
    Prop where
  executor : y.executor = { x.executor with methods := y.executor.methods }
  methods : List.Forall₂ (MethodDecl.Twin r r' x.executor.constants) x.executor.methods
    y.executor.methods
  bindings_eq : y.bindings = x.bindings.map (SiteBinding.rename σ)

/-- Instructions are twins over more constants too. -/
lemma Instruction.Twin.mono {constants constants' : ConstantPool} {i i' : Instruction}
    (h : i.Twin r r' constants i') (hgrows : constants.strings.toList <+: constants'.strings.toList) :
    i.Twin r r' constants' i' := by
  have hmono {index : UInt32} {text : String} (h : constants.string? index = some text) :
      constants'.string? index = some text := ConstantPool.string?_mono hgrows h
  cases h with
  | same => exact .same i
  | field write howner hname hfound hslot =>
    exact .field write (hmono howner) (hmono hname) hfound hslot _
  | call isStatic howner hkey hfound hbinds =>
    exact .call isStatic (hmono howner) (hmono hkey) hfound hbinds _

lemma MethodDecl.Twin.mono {constants constants' : ConstantPool} {m m' : MethodDecl}
    (h : m.Twin r r' constants m') (hgrows : constants.strings.toList <+: constants'.strings.toList) :
    m.Twin r r' constants' m' where
  same := h.same
  length_eq := h.length_eq
  bodies := by
    obtain ⟨l, l', hl, hl', hall⟩ := h.bodies
    exact ⟨l, l', hl, hl', hall.imp fun _ _ hi => hi.mono hgrows⟩

lemma RedirectState.Twin.addSite {s s' : RedirectState} (h : s.Twin σ s')
    (constants : ConstantPool) (b : SiteBinding) :
    (s.addSite constants b).Twin σ (s'.addSite constants (b.rename σ)) := by
  refine ⟨rfl, ?_⟩
  simp only [RedirectState.addSite, Array.toList_push, h.bindings_eq, List.map_append,
    List.map_cons, List.map_nil]

namespace Redirection

variable {cx cx' : RedirectContext} {u : TypeUnit} {m : MethodDecl} {s s' : RedirectState}

open Outcome

/-- Whether redirecting gave twins of instructions. -/
abbrev TwinWith (σ : Renaming) (r r' : Registry) (x y : Instruction × RedirectState) : Prop :=
  x.1.Twin r r' x.2.constants y.1 ∧ x.2.Twin σ y.2

lemma meet_owner (h : cx.Twin σ r r' u cx') (name : String) :
    Meet (Owner.Twin σ r r' name) (owner cx u name) (owner cx' u name) := by
  unfold owner
  split
  · exact .ok .own
  · next hname =>
    have hseen := h.types name hname
    generalize cx.registry.find? name = o at hseen ⊢
    generalize cx'.registry.find? name = o' at hseen ⊢
    cases hseen with
    | same _ hfixed =>
      cases o with
      | some t => exact .ok (.registered (hfixed t rfl))
      | none => exact .ite (fun _ => .ok .lateBound) fun _ => .error _
    | bound hresolved =>
      dsimp only
      split
      · exact .ok (.bound hresolved)
      · exact .error _
    | refused t hnested =>
      dsimp only
      rw [hnested]
      exact .error' _

lemma meet_host (h : cx.Twin σ r r' u cx') (name : String) :
    Meet (fun x y => y = (σ x.1, x.2)) (host cx u m name) (host cx' u m name) := by
  unfold host
  refine (meet_owner h name).bind fun o o' ho => ?_
  cases ho with
  | own =>
    rw [h.same]
    exact .ite (fun _ => .ok rfl) fun _ => .error _
  | @registered t hfixed =>
    dsimp only
    cases t.currentShape? with
    | none => exact .error _
    | some p =>
      refine .ok ?_
      rw [hfixed]
  | lateBound => exact .error _
  | bound => exact .error _

lemma meet_allocation (hs : s.Twin σ s') (i : Instruction) (a : UInt32) :
    Meet (TwinWith σ r r') ((allocation cx u m a s).map fun _ => (i, s))
      ((allocation cx' u m a s').map fun _ => (i, s')) := by
  intro x y hx hy
  obtain ⟨_, -, rfl⟩ := map_eq_ok.mp hx
  obtain ⟨_, -, rfl⟩ := map_eq_ok.mp hy
  exact ⟨.same i, hs⟩

section States

variable (h : cx.Twin σ r r' u cx') (hs : s.Twin σ s')
include h hs

lemma meet_ownFieldAccess (write : Bool) (i : Instruction) (a b : UInt32) (name : String) :
    Meet (TwinWith σ r r') (ownFieldAccess cx u m write i a b name s)
      (ownFieldAccess cx' u m write i a b name s') := by
  have hlayout : cx'.layout = cx.layout := by rw [h.same]
  unfold ownFieldAccess
  rw [hlayout]
  cases u.field? name with
  | none => exact .error _
  | some f =>
    refine .ite (fun _ => .error _) fun _ => .ite (fun _ => ?_) fun _ => ?_
    · refine .ite (fun _ => .error _) fun _ => .ite (fun _ => ?_) fun _ => ?_
      · exact .ok ⟨.same _, hs⟩
      · exact .ok ⟨.same _, hs⟩
    · cases cx.layout.slot? name with
      | none => exact .ok ⟨.same _, hs.constants_eq, hs.bindings_eq⟩
      | some slot => exact .ok ⟨.same _, hs.constants_eq, hs.bindings_eq⟩

lemma meet_fieldAccess (write : Bool) (i : Instruction) (a b : UInt32) :
    Meet (TwinWith σ r r') (fieldAccess cx u m write i a b s)
      (fieldAccess cx' u m write i a b s') := by
  unfold fieldAccess
  rw [hs.constants_eq]
  refine .after fun ownerName howner => .after fun name hname => ?_
  refine (meet_owner h ownerName).bind fun o o' ho => ?_
  cases ho with
  | own => exact meet_ownFieldAccess h hs write i a b name
  | lateBound => exact .ok ⟨.same _, hs.constants_eq, hs.bindings_eq⟩
  | @registered t =>
    refine .ite (fun _ => .error _) fun _ => ?_
    cases t.layout.slot? name with
    | some slot => exact .ok ⟨.same _, hs.constants_eq, hs.bindings_eq⟩
    | none => exact .ite (fun _ => .error _) fun _ => .ok ⟨.same _, hs.constants_eq, hs.bindings_eq⟩
  | @bound t hresolved =>
    refine .ite' (fun _ => .error' _) fun _ => ?_
    cases hslot : t.layout.slot? name with
    | some slot =>
      -- Redirected to a slot on one side, looked up by name on the other.
      obtain ⟨t₀, ht₀, hlayout⟩ := hresolved.late
      refine .ok ⟨?_, hs.constants_eq, hs.bindings_eq⟩
      exact .field write (string?_of_stringAt howner) (string?_of_stringAt hname) ht₀
        (hlayout ▸ hslot) i.offset
    | none =>
      exact .ite' (fun _ => .error' _) fun _ => .ok ⟨.same _, hs.constants_eq, hs.bindings_eq⟩

lemma meet_invocation (isStatic : Bool) {i : Instruction} {a b : UInt32}
    (hop : i.opcode = if isStatic then .invokeStatic else .invokeVirtual)
    (hoperands : i.operands = .pair a b) :
    Meet (TwinWith σ r r') (invocation cx u m isStatic i a b s)
      (invocation cx' u m isStatic i a b s') := by
  have hloaded : cx'.loadedMethods = cx.loadedMethods := by rw [h.same]
  unfold invocation
  rw [hs.constants_eq, hloaded]
  refine .after fun ownerName howner => .after fun key hkey => ?_
  refine (meet_owner h ownerName).bind fun o o' ho => ?_
  have hrest (loaded : Option Bool) : Meet (TwinWith σ r r')
      (if loaded = some isStatic then (.ok (i, s) : Except RejectReason _) else
        .ok ({ i with opcode := if isStatic then .invokeDynamicStatic else .invokeDynamicVirtual },
          s.countDynamic))
      (if loaded = some isStatic then (.ok (i, s') : Except RejectReason _) else
        .ok ({ i with opcode := if isStatic then .invokeDynamicStatic else .invokeDynamicVirtual },
          s'.countDynamic)) :=
    .ite (fun _ => .ok ⟨.same _, hs⟩) fun _ => .ok ⟨.same _, hs.constants_eq, hs.bindings_eq⟩
  cases ho with
  | own =>
    cases u.method? key with
    | none => exact .error _
    | some declared => exact .ite (fun _ => .error _) fun _ => hrest _
  | registered => exact hrest _
  | lateBound => exact hrest none
  | @bound t hresolved =>
    obtain ⟨t₁, ht₁, hbinds⟩ := hresolved.early
    have hlate : Meet (TwinWith σ r r')
        (.ok ({ i with opcode := if isStatic then .invokeDynamicStatic else .invokeDynamicVirtual },
          s.countDynamic) : Except RejectReason _)
        (if t.loadedKind? key = some isStatic then (.ok (i, s') : Except RejectReason _) else
          .ok ({ i with opcode := if isStatic then .invokeDynamicStatic else .invokeDynamicVirtual },
            s'.countDynamic)) := by
      refine .ite' (fun hkind => .ok ⟨?_, hs.constants_eq, hs.bindings_eq⟩) fun _ =>
        .ok ⟨.same _, hs.constants_eq, hs.bindings_eq⟩
      have htwin := Instruction.Twin.call (r := r) isStatic (string?_of_stringAt howner)
        (string?_of_stringAt hkey) ht₁ (hbinds key isStatic hkind) i.offset
      rw [← hop, ← hoperands] at htwin
      exact htwin
    exact hlate

lemma meet_closureCreation (ordinal : Nat) (i : Instruction) (a : UInt32) (count flags : UInt8) :
    Meet (TwinWith σ r r') (closureCreation cx u m ordinal i a count flags s)
      (closureCreation cx' u m ordinal i a count flags s') := by
  have htypeId : cx'.typeId = σ cx.typeId := by rw [h.same]
  unfold closureCreation
  rw [hs.constants_eq, htypeId]
  refine .after fun hostName _ => (meet_host h hostName).bind ?_
  rintro ⟨hostId, version, shape⟩ _ rfl
  refine .ite (fun _ => .error _) fun _ => .ite (fun _ => .error _) fun _ => ?_
  exact .ok ⟨.same _, hs.addSite _ ⟨⟨cx.typeId, m.key, ordinal⟩, hostName, hostId, version, shape⟩⟩

lemma meet_instruction (ordinal : Nat) (i : Instruction) :
    Meet (TwinWith σ r r') (instruction cx u m ordinal i s) (instruction cx' u m ordinal i s') := by
  unfold instruction
  refine .ite (fun _ => .error _) fun _ => ?_
  split
  · exact meet_fieldAccess h hs false i _ _
  · exact meet_fieldAccess h hs true i _ _
  · next hop hoperands => exact meet_invocation h hs true hop hoperands
  · next hop hoperands => exact meet_invocation h hs false hop hoperands
  · exact meet_allocation hs i _
  · exact meet_closureCreation h hs ordinal i _ _ _
  · exact .ok ⟨.same i, hs⟩

lemma meet_instructions (ordinal : Nat) {l : List Instruction} (hfits : ∀ i ∈ l, i.Fits) :
    Meet (fun x y => List.Forall₂ (Instruction.Twin r r' x.2.constants) x.1 y.1 ∧ x.2.Twin σ y.2)
      (instructions cx u m ordinal s l) (instructions cx' u m ordinal s' l) := by
  induction l generalizing ordinal s s' with
  | nil => exact .ok ⟨.nil, hs⟩
  | cons i rest ih =>
    obtain ⟨-, hrest⟩ := List.forall_mem_cons.mp hfits
    refine (meet_instruction h hs ordinal i).bind ?_
    rintro ⟨j, s₁⟩ ⟨j', s₁'⟩ ⟨htwin, hs₁⟩
    refine (ih hs₁ _ hrest).bind_of_eq ?_
    rintro ⟨l₁, s₂⟩ ⟨l₁', s₂'⟩ hrun - ⟨htwins, hs₂⟩
    have hgrows := (redirectedAll_of_instructions hrest hrun).grows
    exact .ok ⟨.cons (htwin.mono hgrows.constants) htwins, hs₂⟩

lemma meet_method : Meet (fun x y => x.1.Twin r r' x.2.constants y.1 ∧ x.2.Twin σ y.2)
    (method cx u m s) (method cx' u m s') := by
  unfold method
  cases hdecoded : Instruction.decodeAll m.code with
  | error e => exact .error _
  | ok l =>
    have htiles := (Instruction.tiles_of_decodeAll hdecoded).1
    refine (meet_instructions h hs 0 htiles.fits).bind_of_eq ?_
    rintro ⟨l₁, s₁⟩ ⟨l₁', s₁'⟩ hrun hrun' ⟨htwins, hs₁⟩
    have htiles₁ := (redirectedAll_of_instructions htiles.fits hrun).tiles htiles
    have htiles₁' := (redirectedAll_of_instructions htiles.fits hrun').tiles htiles
    refine .ok ⟨⟨rfl, ?_, l₁, l₁', ?_, ?_, htwins⟩, hs₁⟩
    · exact htiles₁'.length_encodeAll.trans htiles₁.length_encodeAll.symm
    · exact Instruction.decodeAll_encodeAll htiles₁
    · exact Instruction.decodeAll_encodeAll htiles₁'

lemma meet_methods (ms : List MethodDecl) :
    Meet (fun x y => List.Forall₂ (MethodDecl.Twin r r' x.2.constants) x.1 y.1 ∧ x.2.Twin σ y.2)
      (methods cx u s ms) (methods cx' u s' ms) := by
  induction ms generalizing s s' with
  | nil => exact .ok ⟨.nil, hs⟩
  | cons m rest ih =>
    refine (meet_method h hs).bind ?_
    rintro ⟨m₁, s₁⟩ ⟨m₁', s₁'⟩ ⟨htwin, hs₁⟩
    refine (ih hs₁).bind_of_eq ?_
    rintro ⟨ms₁, s₂⟩ ⟨ms₁', s₂'⟩ hrun - ⟨htwins, hs₂⟩
    have hgrows := (redirectedMethods_of_methods hrun).grows
    exact .ok ⟨.cons (htwin.mono hgrows.constants) htwins, hs₂⟩

end States

end Redirection

/-- A version that is redirected late and early has twins for bodies, and the same sites. -/
theorem TypeUnit.redirect_twin {cx cx' : RedirectContext} {u : TypeUnit} {x y : RedirectedVersion}
    {verify : Bool} (h : cx.Twin σ r r' u cx') (hx : u.redirect cx verify = .ok x)
    (hy : u.redirect cx' verify = .ok y) : x.Twin σ r r' y := by
  refine (show Outcome.Meet _ (u.redirect cx verify) (u.redirect cx' verify) from ?_) x y hx hy
  have hversion : cx'.version = cx.version := by rw [h.same]
  unfold redirect
  refine (Redirection.meet_methods h (s := .start u.constants) ⟨rfl, rfl⟩ u.methods).bind ?_
  rintro ⟨ms, s⟩ ⟨ms', s'⟩ ⟨htwins, hs⟩
  dsimp only
  have hresult : RedirectedVersion.Twin σ r r'
      ⟨u.executor cx.version s.constants ms, s.bindings.toList, s.stats⟩
      ⟨u.executor cx'.version s'.constants ms', s'.bindings.toList, s'.stats⟩ := by
    refine ⟨?_, htwins, hs.bindings_eq⟩
    rw [hversion, hs.constants_eq]
    rfl
  cases verify with
  | false => exact .ok hresult
  | true =>
    intro a b ha hb
    obtain ⟨-, -, ⟨⟩⟩ := Outcome.bind_eq_ok.mp ha
    obtain ⟨-, -, ⟨⟩⟩ := Outcome.bind_eq_ok.mp hb
    exact hresult

end LiveTypes
