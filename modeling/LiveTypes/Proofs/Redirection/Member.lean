import LiveTypes.Proofs.Outcome
import LiveTypes.Redirection.Member

/-!
# What redirecting an instruction gives

Redirecting keeps the place and the length of an instruction. What comes of it either leaves the
constants and the sites alone, or is the creation of a closure, which adds one site and the constant
with its key.
-/

namespace LiveTypes

/-- Whether a layout is that of the type with a name, as the code of a unit sees it. -/
def RedirectContext.HasLayout (cx : RedirectContext) (u : TypeUnit) (owner : String)
    (layout : Layout) : Prop :=
  (owner = u.name ∧ layout = cx.layout) ∨
    owner ≠ u.name ∧ ∃ t, cx.registry.find? owner = some t ∧ layout = t.layout

/-- A binding that code of a unit may ask for: its host is the unit itself, or a registered host as
it is now. -/
structure SiteBinding.Asked (cx : RedirectContext) (u : TypeUnit) (b : SiteBinding) : Prop where
  declaring_eq : b.id.declaring = cx.typeId
  host : (b.host = u.name ∧ u.isClosureHost = true ∧ b.hostId = cx.typeId ∧
      b.hostVersion = cx.version ∧ b.shape = u.hostShape) ∨
    b.host ≠ u.name ∧ ∃ t, cx.registry.find? b.host = some t ∧ b.hostId = t.id ∧
      t.currentShape? = some (b.hostVersion, b.shape)

/-- What an instruction may be redirected to, at the offset where it is. -/
inductive Instruction.RedirectsTo (i : Instruction) : Instruction → Prop where
  /-- An instruction that reaches no member through its name, or a call of a method that is loaded. -/
  | same (kept : i.opcode ≠ .getField ∧ i.opcode ≠ .putField ∧ i.opcode ≠ .makeClosure) :
      RedirectsTo i i
  | read {op : Opcode} {a b c : UInt32} (opcode_eq : i.opcode = .getField)
      (operands_eq : i.operands = .pair a b)
      (op_mem : op ∈ [Opcode.getFieldSlot, .getExtField, .getCaptured, .getEnclosing]) :
      RedirectsTo i { i with opcode := op, operands := .pair a c }
  | write {op : Opcode} {a b c : UInt32} (opcode_eq : i.opcode = .putField)
      (operands_eq : i.operands = .pair a b) (op_mem : op ∈ [Opcode.putFieldSlot, .putExtField]) :
      RedirectsTo i { i with opcode := op, operands := .pair a c }
  /-- A call that is resolved by name keeps its operands. -/
  | call (isStatic : Bool) (opcode_eq : i.opcode = if isStatic then .invokeStatic else .invokeVirtual) :
      RedirectsTo i
        { i with opcode := if isStatic then .invokeDynamicStatic else .invokeDynamicVirtual }
  /-- A closure keeps its number of values and its flags. -/
  | creation {hostIndex siteIndex : UInt32} {count flags : UInt8} (opcode_eq : i.opcode = .makeClosure)
      (operands_eq : i.operands = .closure hostIndex count flags) :
      RedirectsTo i
        { i with opcode := .makeCaptured, operands := .closure siteIndex count flags }

/-- What redirecting an instruction gives, with the state before and after. -/
inductive Redirected (cx : RedirectContext) (u : TypeUnit) (m : MethodDecl) (ordinal : Nat)
    (i : Instruction) (s : RedirectState) (i' : Instruction) (s' : RedirectState) : Prop where
  /-- An instruction that creates no closure. -/
  | plain
      (constants_eq : s'.constants = s.constants)
      (bindings_eq : s'.bindings = s.bindings)
      (offset_eq : i'.offset = i.offset)
      (fits : i'.Fits)
      (form_eq : i'.opcode.form = i.opcode.form)
      (none_created : i.opcode ≠ .makeClosure)
      (redirected : i'.opcode ≠ .getField ∧ i'.opcode ≠ .putField ∧ i'.opcode ≠ .makeClosure ∧
        i'.opcode ≠ .makeCaptured)
      (slot : i'.opcode = .getFieldSlot ∨ i'.opcode = .putFieldSlot →
        ∃ ownerIndex slot owner name layout, i'.operands = .pair ownerIndex (UInt32.ofNat slot) ∧
          s.constants.string? ownerIndex = some owner ∧ cx.HasLayout u owner layout ∧
          layout.slot? name = some slot)
      (becomes : i.RedirectsTo i')
  /-- The creation of a closure. -/
  | site {b : SiteBinding} {hostIndex : UInt32} {count flags : UInt8}
      (opcode_eq : i.opcode = .makeClosure)
      (operands_eq : i.operands = .closure hostIndex count flags)
      (asked : b.Asked cx u)
      (id_eq : b.id = ⟨cx.typeId, m.key, ordinal⟩)
      (result_eq : i' = { i with
        opcode := .makeCaptured
        operands := .closure (s.constants.intern b.id.key).1 count flags })
      (constants_eq : s'.constants = (s.constants.intern b.id.key).2)
      (bindings_eq : s'.bindings = s.bindings.push b)
      (named : s.constants.string? hostIndex = some b.host)
      (encloses : capturesThis flags = b.shape.capturesThis)

/-- Whether an owner has a field, as far as its fields are known. -/
def Owner.Offers (u : TypeUnit) (name : String) : Owner → Prop
  | .own => ∃ f, u.field? name = some f
  | .registered t => (∃ slot, t.layout.slot? name = some slot) ∨ ∃ type, t.fieldType? name = some type
  | .lateBound => True

/-- What redirecting an access to a field gives, with the state after it. -/
inductive Accessed (cx : RedirectContext) (u : TypeUnit) (write : Bool) (i : Instruction)
    (a b : UInt32) (owner name : String) (s : RedirectState) :
    Instruction → RedirectState → Prop where
  /-- A captured variable, or the enclosing instance. -/
  | captured {op : Opcode} {c : UInt32} (read : write = false)
      (op_eq : op = .getEnclosing ∧ c = b ∨ op = .getCaptured) :
      Accessed cx u write i a b owner name s { i with opcode := op, operands := .pair a c } s
  /-- A field with a slot. -/
  | slot {layout : Layout} {slot : Nat} (layout_of : cx.HasLayout u owner layout)
      (slot_eq : layout.slot? name = some slot) :
      Accessed cx u write i a b owner name s
        { i with
          opcode := if write then .putFieldSlot else .getFieldSlot
          operands := .pair a (UInt32.ofNat slot) } s.countSlot
  /-- A field that is looked up when it is used. -/
  | byName :
      Accessed cx u write i a b owner name s
        { i with
          opcode := if write then .putExtField else .getExtField
          operands := .pair a b } s.countExtension

namespace Redirection

variable {cx : RedirectContext} {u : TypeUnit} {m : MethodDecl} {ordinal : Nat}
  {i i' : Instruction} {s s' : RedirectState}

lemma string?_of_stringAt {constants : ConstantPool} {index : UInt32} {text : String}
    (h : stringAt u m constants index = .ok text) : constants.string? index = some text := by
  unfold stringAt at h
  split at h
  · next hs => rw [hs, Except.ok.inj h]
  · cases h

lemma owner_eq_own {name : String} (h : owner cx u name = .ok .own) : name = u.name := by
  by_contra hname
  simp only [owner, hname, ↓reduceIte] at h
  split at h
  · cases h
  · split at h <;> cases h

lemma owner_eq_registered {name : String} {t : LiveType}
    (h : owner cx u name = .ok (.registered t)) :
    name ≠ u.name ∧ cx.registry.find? name = some t := by
  by_cases hname : name = u.name
  · simp only [owner, hname, ↓reduceIte] at h
    cases h
  · simp only [owner, hname, ↓reduceIte] at h
    split at h
    · next t' hfind =>
      obtain rfl : t' = t := by simpa using h
      exact ⟨hname, hfind⟩
    · split at h <;> cases h

/-- An instruction over two words that becomes one of another kind. -/
lemma redirected_pair {op : Opcode} {a b : UInt32} (hform : i.opcode.form = .pair)
    (hop : op.form = .pair) (hplain : op ≠ .getField ∧ op ≠ .putField)
    (hbecomes : i.RedirectsTo { i with opcode := op, operands := .pair a b })
    (hconstants : s'.constants = s.constants) (hbindings : s'.bindings = s.bindings)
    (hslot : op = .getFieldSlot ∨ op = .putFieldSlot → ∃ slot owner name layout,
      b = UInt32.ofNat slot ∧ s.constants.string? a = some owner ∧
        cx.HasLayout u owner layout ∧ layout.slot? name = some slot) :
    Redirected cx u m ordinal i s { i with opcode := op, operands := .pair a b } s' := by
  refine .plain hconstants hbindings rfl hop.symm (hop.trans hform.symm) ?_ ?_ (fun h => ?_) hbecomes
  · intro heq
    rw [heq] at hform
    cases hform
  · refine ⟨hplain.1, hplain.2, ?_, ?_⟩ <;>
    · intro heq
      rw [show op = _ from heq] at hop
      cases hop
  · obtain ⟨slot, owner, name, layout, rfl, hstring, hlayout, hname⟩ := hslot h
    exact ⟨a, slot, owner, name, layout, rfl, hstring, hlayout, hname⟩

lemma accessed_of_ownFieldAccess {write : Bool} {a b : UInt32} {name : String}
    (h : ownFieldAccess cx u m write i a b name s = .ok (i', s')) :
    Owner.own.Offers u name ∧ Accessed cx u write i a b u.name name s i' s' := by
  unfold ownFieldAccess at h
  split at h
  · cases h
  · next f hf =>
    refine ⟨⟨f, hf⟩, ?_⟩
    split at h
    · cases h
    · split at h
      · split at h
        · cases h
        · next hread =>
          have hread : write = false := by simpa using hread
          split at h <;> obtain ⟨rfl, rfl⟩ := Prod.mk.inj (Except.ok.inj h)
          · exact .captured hread (.inl ⟨rfl, rfl⟩)
          · exact .captured hread (.inr rfl)
      · split at h
        · next slot hslot =>
          obtain ⟨rfl, rfl⟩ := Prod.mk.inj (Except.ok.inj h)
          exact .slot (.inl ⟨rfl, rfl⟩) hslot
        · obtain ⟨rfl, rfl⟩ := Prod.mk.inj (Except.ok.inj h)
          exact .byName

/-- An access to a field names an owner and a field that it has. -/
lemma fieldAccess_cases {write : Bool} {a b : UInt32}
    (h : fieldAccess cx u m write i a b s = .ok (i', s')) :
    ∃ ownerName name o, s.constants.string? a = some ownerName ∧ s.constants.string? b = some name ∧
      owner cx u ownerName = .ok o ∧ o.Offers u name ∧
      Accessed cx u write i a b ownerName name s i' s' := by
  simp only [fieldAccess, Outcome.bind_eq_ok] at h
  obtain ⟨ownerName, howner, name, hname, o, ho, h⟩ := h
  refine ⟨ownerName, name, o, string?_of_stringAt howner, string?_of_stringAt hname, ho, ?_⟩
  cases o with
  | own =>
    obtain rfl := owner_eq_own ho
    exact accessed_of_ownFieldAccess h
  | registered t =>
    obtain ⟨hne, hfind⟩ := owner_eq_registered ho
    obtain ⟨-, h⟩ := Outcome.guard_eq_ok.mp h
    split at h
    · next slot hslot =>
      obtain ⟨rfl, rfl⟩ := Prod.mk.inj (Outcome.pure_eq_ok.mp h)
      exact ⟨.inl ⟨slot, hslot⟩, .slot (.inr ⟨hne, t, hfind, rfl⟩) hslot⟩
    · obtain ⟨htype, h⟩ := Outcome.guard_eq_ok.mp h
      obtain ⟨rfl, rfl⟩ := Prod.mk.inj (Outcome.pure_eq_ok.mp h)
      exact ⟨.inr (Option.ne_none_iff_exists'.mp (by simpa using htype)), .byName⟩
  | lateBound =>
    obtain ⟨rfl, rfl⟩ := Prod.mk.inj (Outcome.pure_eq_ok.mp h)
    exact ⟨trivial, .byName⟩

/-- An access to a field becomes another of its kind, to the same owner. -/
lemma redirectsTo_of_accessed {write : Bool} {a b : UInt32} {owner name : String}
    (hop : i.opcode = if write then .putField else .getField) (hoperands : i.operands = .pair a b)
    (h : Accessed cx u write i a b owner name s i' s') : i.RedirectsTo i' := by
  cases h with
  | captured hread hop' =>
    subst hread
    rcases hop' with ⟨rfl, -⟩ | rfl <;> exact .read hop hoperands (by simp)
  | slot | byName =>
    cases write
    · exact .read hop hoperands (by simp)
    · exact .write hop hoperands (by simp)

lemma redirected_of_fieldAccess {write : Bool} {a b : UInt32}
    (hop : i.opcode = if write then .putField else .getField) (hoperands : i.operands = .pair a b)
    (h : fieldAccess cx u m write i a b s = .ok (i', s')) :
    Redirected cx u m ordinal i s i' s' := by
  obtain ⟨ownerName, name, _, howner, -, -, -, haccessed⟩ := fieldAccess_cases h
  have hform : i.opcode.form = .pair := by rw [hop]; cases write <;> rfl
  have hbecomes := redirectsTo_of_accessed hop hoperands haccessed
  cases haccessed with
  | captured _ hop' =>
    rcases hop' with ⟨rfl, rfl⟩ | rfl <;>
      exact redirected_pair hform rfl (by simp) hbecomes rfl rfl (by simp)
  | @slot layout slot hlayout hslot =>
    refine redirected_pair hform ?_ ?_ hbecomes rfl rfl fun _ =>
      ⟨slot, ownerName, name, layout, rfl, howner, hlayout, hslot⟩
    · cases write <;> rfl
    · cases write <;> simp
  | byName =>
    refine redirected_pair hform ?_ ?_ hbecomes rfl rfl ?_ <;> cases write <;> simp [Opcode.form]

/-- An instruction that stays as it is. -/
lemma redirected_self (hfits : i.Fits) (hsource : i.opcode.isEngineOnly = false)
    (hplain : i.opcode ≠ .getField ∧ i.opcode ≠ .putField ∧ i.opcode ≠ .makeClosure) :
    Redirected cx u m ordinal i s i s := by
  have hengine {op : Opcode} (h : op.isEngineOnly = true) : i.opcode ≠ op := by
    rintro rfl
    rw [hsource] at h
    cases h
  refine .plain rfl rfl rfl hfits rfl hplain.2.2
    ⟨hplain.1, hplain.2.1, hplain.2.2, hengine rfl⟩ ?_ (.same hplain)
  rintro (h | h)
  · exact absurd h (hengine rfl)
  · exact absurd h (hengine rfl)

/-- Whoever the owner of a method is, a call of it stays as it is or becomes one that is resolved by
name. -/
lemma invocation_cases {isStatic : Bool} {a b : UInt32}
    (h : invocation cx u m isStatic i a b s = .ok (i', s')) :
    ∃ ownerName key o, s.constants.string? a = some ownerName ∧ s.constants.string? b = some key ∧
      owner cx u ownerName = .ok o ∧
      ((i' = i ∧ s' = s) ∨
        i' = { i with opcode := if isStatic then .invokeDynamicStatic else .invokeDynamicVirtual } ∧
          s' = s.countDynamic) := by
  simp only [invocation, Outcome.bind_eq_ok] at h
  obtain ⟨ownerName, howner, key, hkey, o, ho, h⟩ := h
  have hcall : ∃ loaded : Option Bool, (if loaded = some isStatic then pure (i, s)
      else pure ({ i with
        opcode := if isStatic then .invokeDynamicStatic else .invokeDynamicVirtual },
          s.countDynamic) : Except RejectReason (Instruction × RedirectState)) = .ok (i', s') := by
    cases o with
    | own =>
      simp only at h
      split at h
      · simp at h
      · obtain ⟨-, h⟩ := Outcome.guard_eq_ok.mp h
        obtain ⟨loaded, -, h⟩ := Outcome.bind_eq_ok.mp h
        exact ⟨loaded, h⟩
    | registered t =>
      obtain ⟨loaded, -, h⟩ := Outcome.bind_eq_ok.mp h
      exact ⟨loaded, h⟩
    | lateBound =>
      obtain ⟨loaded, -, h⟩ := Outcome.bind_eq_ok.mp h
      exact ⟨loaded, h⟩
  obtain ⟨loaded, h⟩ := hcall
  refine ⟨ownerName, key, o, string?_of_stringAt howner, string?_of_stringAt hkey, ho, ?_⟩
  split at h <;> obtain ⟨rfl, rfl⟩ := Prod.mk.inj (Outcome.pure_eq_ok.mp h)
  · exact .inl ⟨rfl, rfl⟩
  · exact .inr ⟨rfl, rfl⟩

lemma redirected_of_invocation {isStatic : Bool} {a b : UInt32} (hfits : i.Fits)
    (hop : i.opcode = if isStatic then .invokeStatic else .invokeVirtual)
    (h : invocation cx u m isStatic i a b s = .ok (i', s')) :
    Redirected cx u m ordinal i s i' s' := by
  obtain ⟨-, -, -, -, -, -, ⟨rfl, rfl⟩ | ⟨rfl, rfl⟩⟩ := invocation_cases h
  · refine redirected_self hfits ?_ ?_ <;> rw [hop] <;> cases isStatic <;>
      simp [Opcode.isEngineOnly, Opcode.byte]
  · have hform : i.opcode.form = .pair := by rw [hop]; cases isStatic <;> rfl
    refine .plain rfl rfl rfl ?_ ?_ ?_ ?_ ?_ (.call isStatic hop)
    · rw [Instruction.Fits, show i.operands.form = _ from hfits, hform]
      cases isStatic <;> rfl
    · rw [hform]
      cases isStatic <;> rfl
    · rw [hop]
      cases isStatic <;> simp
    · cases isStatic <;> simp
    · cases isStatic <;> simp

lemma asked_of_host {name : String} {id : TypeId} {version : Nat} {shape : HostShape}
    {site : SiteId} (hsite : site.declaring = cx.typeId)
    (h : host cx u m name = .ok (id, version, shape)) :
    SiteBinding.Asked cx u ⟨site, name, id, version, shape⟩ := by
  simp only [host, Outcome.bind_eq_ok] at h
  obtain ⟨o, ho, h⟩ := h
  refine ⟨hsite, ?_⟩
  cases o with
  | own =>
    simp only at h
    split at h
    · next hhost =>
      obtain ⟨rfl, rfl, rfl⟩ := by simpa only [Outcome.pure_eq_ok, Prod.mk.injEq] using h
      exact .inl ⟨owner_eq_own ho, hhost, rfl, rfl, rfl⟩
    · simp at h
  | registered t =>
    obtain ⟨hne, hfind⟩ := owner_eq_registered ho
    simp only at h
    split at h
    · next shape' hshape =>
      obtain ⟨rfl, rfl, rfl⟩ := by simpa only [Outcome.pure_eq_ok, Prod.mk.injEq] using h
      exact .inr ⟨hne, t, hfind, rfl, hshape⟩
    · simp at h
  | lateBound => simp at h

lemma redirected_of_closureCreation {hostIndex : UInt32} {count flags : UInt8}
    (hop : i.opcode = .makeClosure) (hoperands : i.operands = .closure hostIndex count flags)
    (h : closureCreation cx u m ordinal i hostIndex count flags s = .ok (i', s')) :
    Redirected cx u m ordinal i s i' s' := by
  simp only [closureCreation, Outcome.bind_eq_ok, Outcome.guard_eq_ok] at h
  obtain ⟨hostName, hname, ⟨id, version, shape⟩, hhost, -, hencloses, h⟩ := h
  obtain ⟨rfl, rfl⟩ := Prod.mk.inj (Outcome.pure_eq_ok.mp h)
  exact .site (b := ⟨⟨cx.typeId, m.key, ordinal⟩, hostName, id, version, shape⟩) hop hoperands
    (asked_of_host rfl hhost) rfl rfl rfl rfl (string?_of_stringAt hname) (not_not.mp hencloses)

/-- What redirecting one instruction gives. -/
theorem redirected_of_instruction (hfits : i.Fits)
    (h : instruction cx u m ordinal i s = .ok (i', s')) : Redirected cx u m ordinal i s i' s' := by
  unfold instruction at h
  split at h
  · cases h
  · next hsource =>
    have hsource : i.opcode.isEngineOnly = false := by simpa using hsource
    have hform {op : Opcode} (hop : i.opcode = op) : i.operands.form = op.form := hop ▸ hfits
    split at h
    · next a b hop hoperands => exact redirected_of_fieldAccess (by rw [hop]; rfl) hoperands h
    · next a b hop hoperands => exact redirected_of_fieldAccess (by rw [hop]; rfl) hoperands h
    · next a b hop hoperands => exact redirected_of_invocation hfits (by rw [hop]; rfl) h
    · next a b hop hoperands => exact redirected_of_invocation hfits (by rw [hop]; rfl) h
    · next a hop hoperands =>
      obtain ⟨_, -, hresult⟩ := Outcome.map_eq_ok.mp h
      obtain ⟨rfl, rfl⟩ := Prod.mk.inj hresult
      exact redirected_self hfits hsource (by simp [hop])
    · next a count flags hop hoperands => exact redirected_of_closureCreation hop hoperands h
    · next hget hput hstatic hvirtual hnew hclosure =>
      obtain ⟨rfl, rfl⟩ := Prod.mk.inj (Except.ok.inj h)
      refine redirected_self hfits hsource ⟨fun hop => ?_, fun hop => ?_, fun hop => ?_⟩
      · have := hform hop
        cases ho : i.operands <;> simp [ho, Operands.form, Opcode.form] at this
        exact hget _ _ hop ho
      · have := hform hop
        cases ho : i.operands <;> simp [ho, Operands.form, Opcode.form] at this
        exact hput _ _ hop ho
      · have := hform hop
        cases ho : i.operands <;> simp [ho, Operands.form, Opcode.form] at this
        exact hclosure _ _ _ hop ho

end Redirection

/-- Whether it creates a closure or not, an instruction becomes one that it may be redirected to. -/
lemma Redirected.redirectsTo {cx : RedirectContext} {u : TypeUnit} {m : MethodDecl} {ordinal : Nat}
    {i i' : Instruction} {s s' : RedirectState} (h : Redirected cx u m ordinal i s i' s') :
    i.RedirectsTo i' := by
  cases h with
  | plain _ _ _ _ _ _ _ _ hbecomes => exact hbecomes
  | site hop hoperands _ _ hresult =>
    subst hresult
    exact .creation hop hoperands

end LiveTypes
