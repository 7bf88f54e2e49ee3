import LiveTypes.Proofs.Code.Patching
import LiveTypes.Proofs.Redirection.Member
import LiveTypes.Proofs.TypeUnit.ConstantPool
import LiveTypes.Proofs.TypeUnit.Verify
import LiveTypes.Redirection.Version
import Mathlib.Data.List.Nodup

/-!
# What redirecting a version gives

The bodies of a redirected version are the bodies of the unit, instruction by instruction, and its
bindings are those of the closures that the bodies create, one for each of their sites.
-/

namespace LiveTypes

variable {cx : RedirectContext} {u : TypeUnit} {m : MethodDecl}

namespace Redirection

variable {s s' : RedirectState}

lemma instructions_cons_eq_ok {ordinal : Nat} {i : Instruction} {rest l' : List Instruction} :
    instructions cx u m ordinal s (i :: rest) = .ok (l', s') ↔ ∃ i' s₁ rest',
      instruction cx u m ordinal i s = .ok (i', s₁) ∧
      instructions cx u m (if i.opcode = .makeClosure then ordinal + 1 else ordinal) s₁ rest =
        .ok (rest', s') ∧ l' = i' :: rest' := by
  simp only [instructions, Outcome.bind_eq_ok]
  constructor
  · rintro ⟨⟨i', s₁⟩, hfirst, ⟨rest', s₂⟩, hothers, h⟩
    obtain ⟨rfl, rfl⟩ := Prod.mk.inj (Outcome.pure_eq_ok.mp h)
    exact ⟨i', s₁, rest', hfirst, hothers, rfl⟩
  · rintro ⟨i', s₁, rest', hfirst, hothers, rfl⟩
    exact ⟨(i', s₁), hfirst, (rest', s'), hothers, rfl⟩

lemma method_eq_ok {m' : MethodDecl} : method cx u m s = .ok (m', s') ↔
    ∃ l l', Instruction.decodeAll m.code = .ok l ∧ instructions cx u m 0 s l = .ok (l', s') ∧
      m' = { m with code := Instruction.encodeAll l' } := by
  unfold method
  constructor
  · intro h
    split at h
    · cases h
    · next l hl =>
      obtain ⟨⟨l', s₁⟩, hinstructions, h⟩ := Outcome.bind_eq_ok.mp h
      obtain ⟨rfl, rfl⟩ := Prod.mk.inj (Outcome.pure_eq_ok.mp h)
      exact ⟨l, l', hl, hinstructions, rfl⟩
  · rintro ⟨l, l', hl, hinstructions, rfl⟩
    rw [hl]
    exact Outcome.bind_eq_ok.mpr ⟨(l', s'), hinstructions, rfl⟩

lemma methods_cons_eq_ok {rest ms' : List MethodDecl} :
    methods cx u s (m :: rest) = .ok (ms', s') ↔ ∃ m' s₁ rest',
      method cx u m s = .ok (m', s₁) ∧ methods cx u s₁ rest = .ok (rest', s') ∧
        ms' = m' :: rest' := by
  simp only [methods, Outcome.bind_eq_ok]
  constructor
  · rintro ⟨⟨m', s₁⟩, hfirst, ⟨rest', s₂⟩, hothers, h⟩
    obtain ⟨rfl, rfl⟩ := Prod.mk.inj (Outcome.pure_eq_ok.mp h)
    exact ⟨m', s₁, rest', hfirst, hothers, rfl⟩
  · rintro ⟨m', s₁, rest', hfirst, hothers, rfl⟩
    exact ⟨(m', s₁), hfirst, (rest', s'), hothers, rfl⟩

end Redirection

/-- What redirecting the instructions of a method gives, with the states before and after. -/
inductive RedirectedAll (cx : RedirectContext) (u : TypeUnit) (m : MethodDecl) :
    Nat → RedirectState → List Instruction → List Instruction → RedirectState → Prop where
  | nil {ordinal : Nat} {s : RedirectState} : RedirectedAll cx u m ordinal s [] [] s
  | cons {ordinal : Nat} {s s₁ s' : RedirectState} {i i' : Instruction}
      {rest rest' : List Instruction} (first : Redirected cx u m ordinal i s i' s₁)
      (others : RedirectedAll cx u m (if i.opcode = .makeClosure then ordinal + 1 else ordinal) s₁
        rest rest' s') :
      RedirectedAll cx u m ordinal s (i :: rest) (i' :: rest') s'

/-- What redirecting the methods of a unit gives, with the states before and after. -/
inductive RedirectedMethods (cx : RedirectContext) (u : TypeUnit) :
    RedirectState → List MethodDecl → List MethodDecl → RedirectState → Prop where
  | nil {s : RedirectState} : RedirectedMethods cx u s [] [] s
  | cons {s s₁ s' : RedirectState} {m : MethodDecl} {l l' : List Instruction}
      {rest rest' : List MethodDecl} (decoded : Instruction.decodeAll m.code = .ok l)
      (first : RedirectedAll cx u m 0 s l l' s₁) (others : RedirectedMethods cx u s₁ rest rest' s') :
      RedirectedMethods cx u s (m :: rest) ({ m with code := Instruction.encodeAll l' } :: rest') s'

lemma redirectedAll_of_instructions {ordinal : Nat} {s s' : RedirectState}
    {l l' : List Instruction} (hfits : ∀ i ∈ l, i.Fits)
    (h : Redirection.instructions cx u m ordinal s l = .ok (l', s')) :
    RedirectedAll cx u m ordinal s l l' s' := by
  induction l generalizing ordinal s l' s' with
  | nil =>
    obtain ⟨rfl, rfl⟩ := Prod.mk.inj (Except.ok.inj h)
    exact .nil
  | cons i rest ih =>
    obtain ⟨hi, hrest⟩ := List.forall_mem_cons.mp hfits
    obtain ⟨i', s₁, rest', hfirst, hothers, rfl⟩ := Redirection.instructions_cons_eq_ok.mp h
    exact .cons (Redirection.redirected_of_instruction hi hfirst) (ih hrest hothers)

lemma redirectedMethods_of_methods {s s' : RedirectState} {ms ms' : List MethodDecl}
    (h : Redirection.methods cx u s ms = .ok (ms', s')) : RedirectedMethods cx u s ms ms' s' := by
  induction ms generalizing s ms' s' with
  | nil =>
    obtain ⟨rfl, rfl⟩ := Prod.mk.inj (Except.ok.inj h)
    exact .nil
  | cons m rest ih =>
    obtain ⟨m', s₁, rest', hfirst, hothers, rfl⟩ := Redirection.methods_cons_eq_ok.mp h
    obtain ⟨l, l', hdecoded, hinstructions, rfl⟩ := Redirection.method_eq_ok.mp hfirst
    have hfits := (Instruction.tiles_of_decodeAll hdecoded).1.fits
    exact .cons hdecoded (redirectedAll_of_instructions hfits hinstructions) (ih hothers)

/-! ### Instructions keep their places -/

/-- What an instruction is redirected to can stand where the instruction stood. -/
lemma Redirected.displaces {ordinal : Nat} {i i' : Instruction} {s s' : RedirectState}
    (h : Redirected cx u m ordinal i s i' s') : i'.Displaces i := by
  cases h with
  | plain _ _ hoffset hfits hform =>
    refine ⟨hoffset, ?_, hfits⟩
    rw [Instruction.length, Instruction.length, Opcode.operandLength_eq, Opcode.operandLength_eq, hform]
  | site hop _ _ _ hresult =>
    subst hresult
    refine ⟨rfl, ?_, rfl⟩
    rw [Instruction.length, Instruction.length, hop]
    rfl

lemma RedirectedAll.displaces {ordinal : Nat} {l l' : List Instruction} {s s' : RedirectState}
    (h : RedirectedAll cx u m ordinal s l l' s') :
    List.Forall₂ (fun i i' => i'.Displaces i) l l' := by
  induction h with
  | nil => exact .nil
  | cons first _ ih => exact .cons first.displaces ih

/-- Redirected instructions tile what the instructions did. -/
lemma RedirectedAll.tiles {ordinal start stop : Nat} {l l' : List Instruction}
    {s s' : RedirectState} (h : RedirectedAll cx u m ordinal s l l' s')
    (htiles : Instruction.Tiles start l stop) : Instruction.Tiles start l' stop :=
  htiles.displaced h.displaces

/-! ### Constants and bindings only grow -/

/-- Whether a state has the constants and the bindings of another, and possibly more. -/
structure RedirectState.Grows (s s' : RedirectState) : Prop where
  constants : s.constants.strings.toList <+: s'.constants.strings.toList
  bindings : s.bindings.toList <+: s'.bindings.toList

namespace RedirectState.Grows

variable {s s₁ s' : RedirectState}

lemma refl (s : RedirectState) : s.Grows s := ⟨List.prefix_refl _, List.prefix_refl _⟩

lemma trans (h : s.Grows s₁) (h' : s₁.Grows s') : s.Grows s' :=
  ⟨h.constants.trans h'.constants, h.bindings.trans h'.bindings⟩

end RedirectState.Grows

lemma Redirected.grows {ordinal : Nat} {i i' : Instruction} {s s' : RedirectState}
    (h : Redirected cx u m ordinal i s i' s') : s.Grows s' := by
  cases h with
  | plain hconstants hbindings =>
    exact ⟨hconstants ▸ List.prefix_refl _, hbindings ▸ List.prefix_refl _⟩
  | site _ _ _ _ _ hconstants hbindings =>
    refine ⟨?_, ?_⟩
    · rw [hconstants]
      exact ConstantPool.strings_prefix_intern _ _
    · rw [hbindings, Array.toList_push]
      exact List.prefix_append _ _

lemma RedirectedAll.grows {ordinal : Nat} {l l' : List Instruction} {s s' : RedirectState}
    (h : RedirectedAll cx u m ordinal s l l' s') : s.Grows s' := by
  induction h with
  | nil => exact .refl _
  | cons first _ ih => exact first.grows.trans ih

lemma RedirectedMethods.grows {ms ms' : List MethodDecl} {s s' : RedirectState}
    (h : RedirectedMethods cx u s ms ms' s') : s.Grows s' := by
  induction h with
  | nil => exact .refl _
  | cons _ first _ ih => exact first.grows.trans ih

/-- Each redirected instruction comes from one, with the states before and after. -/
lemma RedirectedAll.of_mem {ordinal : Nat} {l l' : List Instruction} {s s' : RedirectState}
    {i' : Instruction} (h : RedirectedAll cx u m ordinal s l l' s') (hi : i' ∈ l') :
    ∃ n i s₀ s₁, n < ordinal + l.length ∧ Redirected cx u m n i s₀ i' s₁ ∧ s₀.Grows s' ∧
      s₁.Grows s' := by
  induction h with
  | nil => cases hi
  | @cons ordinal s s₁ s' i j rest rest' first others ih =>
    rcases List.mem_cons.mp hi with rfl | hi
    · exact ⟨ordinal, i, s, s₁, by simp, first, first.grows.trans others.grows, others.grows⟩
    · obtain ⟨n, i, s₀, s₁, hn, hredirected, hbefore, hafter⟩ := ih hi
      refine ⟨n, i, s₀, s₁, ?_, hredirected, hbefore, hafter⟩
      rw [List.length_cons]
      split at hn <;> omega

/-- Each redirected method comes from one, with the states before and after. -/
lemma RedirectedMethods.of_mem {ms ms' : List MethodDecl} {s s' : RedirectState} {m' : MethodDecl}
    (h : RedirectedMethods cx u s ms ms' s') (hm : m' ∈ ms') :
    ∃ m ∈ ms, ∃ l l' s₀ s₁, Instruction.decodeAll m.code = .ok l ∧
      RedirectedAll cx u m 0 s₀ l l' s₁ ∧ s₁.Grows s' ∧
      m' = { m with code := Instruction.encodeAll l' } := by
  induction h with
  | nil => cases hm
  | @cons s s₁ s' m l l' rest rest' hdecoded first others ih =>
    rcases List.mem_cons.mp hm with rfl | hm
    · exact ⟨m, List.mem_cons_self, l, l', s, s₁, hdecoded, first, others.grows, rfl⟩
    · obtain ⟨m₀, hm₀, hrest⟩ := ih hm
      exact ⟨m₀, List.mem_cons_of_mem m hm₀, hrest⟩

/-- Each method is redirected to one, with the states before and after. -/
lemma RedirectedMethods.of_source {ms ms' : List MethodDecl} {s s' : RedirectState} {m : MethodDecl}
    (h : RedirectedMethods cx u s ms ms' s') (hm : m ∈ ms) :
    ∃ l l' s₀ s₁, Instruction.decodeAll m.code = .ok l ∧ RedirectedAll cx u m 0 s₀ l l' s₁ ∧
      s.Grows s₀ ∧ s₁.Grows s' ∧ { m with code := Instruction.encodeAll l' } ∈ ms' := by
  induction h with
  | nil => cases hm
  | @cons s s₁ s' m₀ l l' rest rest' hdecoded first others ih =>
    rcases List.mem_cons.mp hm with rfl | hm
    · exact ⟨l, l', s, s₁, hdecoded, first, .refl s, others.grows, List.mem_cons_self⟩
    · obtain ⟨l, l', s₂, s₃, hl, hall, hbefore, hafter, hmem⟩ := ih hm
      exact ⟨l, l', s₂, s₃, hl, hall, first.grows.trans hbefore, hafter, List.mem_cons_of_mem _ hmem⟩

/-! ### Closure creations -/

/-- The instructions of a method that create closures, in code order. -/
def MethodDecl.creations (m : MethodDecl) : List Instruction :=
  match Instruction.decodeAll m.code with
  | .ok l => l.filter fun i => i.opcode = .makeClosure
  | .error _ => []

lemma MethodDecl.creations_eq {l : List Instruction} (h : Instruction.decodeAll m.code = .ok l) :
    m.creations = l.filter fun i => i.opcode = .makeClosure := by
  rw [creations, h]

/-- The sites of the closures that a method of a type creates, in code order. -/
def MethodDecl.sites (typeId : TypeId) (m : MethodDecl) : List SiteId :=
  (List.range m.creations.length).map fun n => ⟨typeId, m.key, n⟩

lemma MethodDecl.sites_eq {typeId : TypeId} {l : List Instruction}
    (h : Instruction.decodeAll m.code = .ok l) :
    m.sites typeId = (List.range' 0 (l.filter fun i => i.opcode = .makeClosure).length).map
      fun n => ⟨typeId, m.key, n⟩ := by
  rw [sites, creations_eq h, List.range_eq_range']

lemma MethodDecl.mem_sites {typeId : TypeId} {id : SiteId} :
    id ∈ m.sites typeId ↔
      id.declaring = typeId ∧ id.method = m.key ∧ id.ordinal < m.creations.length := by
  rw [sites, List.mem_map]
  constructor
  · rintro ⟨n, hn, rfl⟩
    exact ⟨rfl, rfl, List.mem_range.mp hn⟩
  · rintro ⟨rfl, hmethod, hlt⟩
    exact ⟨id.ordinal, List.mem_range.mpr hlt, by rw [← hmethod]⟩

/-- No two closures of methods with different keys have the same site. -/
lemma MethodDecl.nodup_sites {ms : List MethodDecl} (typeId : TypeId)
    (hkeys : (ms.map MethodDecl.key).Nodup) : (ms.flatMap (sites typeId)).Nodup := by
  rw [List.nodup_flatMap]
  refine ⟨fun m _ => ?_, (List.pairwise_map.mp hkeys).imp fun {m m'} hne => ?_⟩
  · exact List.nodup_range.map fun n n' heq => (SiteId.mk.inj heq).2.2
  · intro id hid hid'
    exact hne ((mem_sites.mp hid).2.1.symm.trans (mem_sites.mp hid').2.1)

/-- The sites of a method are numbered from the ordinal of the first. -/
lemma RedirectedAll.ids_eq {ordinal : Nat} {l l' : List Instruction} {s s' : RedirectState}
    (h : RedirectedAll cx u m ordinal s l l' s') :
    s'.bindings.toList.map SiteBinding.id = s.bindings.toList.map SiteBinding.id ++
      (List.range' ordinal (l.filter fun i => i.opcode = .makeClosure).length).map
        fun n => ⟨cx.typeId, m.key, n⟩ := by
  induction h with
  | nil => simp
  | cons first others ih =>
    cases first with
    | plain _ hbindings _ _ _ hcreated =>
      rw [if_neg hcreated] at ih
      rw [ih, hbindings, List.filter_cons_of_neg (by simpa using hcreated)]
    | site hop _ _ hid _ _ hbindings =>
      rw [if_pos hop] at ih
      rw [ih, hbindings, List.filter_cons_of_pos (by simpa using hop), List.length_cons,
        List.range'_succ]
      simp [hid]

/-- The sites of a unit are bound in the order of its methods and their code. -/
lemma RedirectedMethods.ids_eq {ms ms' : List MethodDecl} {s s' : RedirectState}
    (h : RedirectedMethods cx u s ms ms' s') :
    s'.bindings.toList.map SiteBinding.id =
      s.bindings.toList.map SiteBinding.id ++ ms.flatMap (MethodDecl.sites cx.typeId) := by
  induction h with
  | nil => simp
  | cons hdecoded first _ ih =>
    rw [ih, first.ids_eq, List.flatMap_cons, MethodDecl.sites_eq hdecoded, List.append_assoc]

lemma RedirectedAll.asked {ordinal : Nat} {l l' : List Instruction} {s s' : RedirectState}
    (h : RedirectedAll cx u m ordinal s l l' s') (hs : ∀ b ∈ s.bindings.toList, b.Asked cx u) :
    ∀ b ∈ s'.bindings.toList, b.Asked cx u := by
  induction h with
  | nil => exact hs
  | cons first _ ih =>
    refine ih ?_
    cases first with
    | plain _ hbindings => rwa [hbindings]
    | site _ _ hasked _ _ _ hbindings =>
      rw [hbindings, Array.toList_push, List.forall_mem_append, List.forall_mem_singleton]
      exact ⟨hs, hasked⟩

lemma RedirectedMethods.asked {ms ms' : List MethodDecl} {s s' : RedirectState}
    (h : RedirectedMethods cx u s ms ms' s') (hs : ∀ b ∈ s.bindings.toList, b.Asked cx u) :
    ∀ b ∈ s'.bindings.toList, b.Asked cx u := by
  induction h with
  | nil => exact hs
  | cons _ first _ ih => exact ih (first.asked hs)

/-- Whether a site is that of a closure creation of some method. -/
def SiteId.CreatedBy (id : SiteId) (ms : List MethodDecl) : Prop :=
  ∃ m ∈ ms, id.method = m.key ∧ id.ordinal < m.creations.length

/-- Every creation asks for the site of its place, with the host that it names. -/
lemma RedirectedAll.binding_of_creation {ordinal n : Nat} {l l' : List Instruction}
    {s s' : RedirectState} {i : Instruction} (h : RedirectedAll cx u m ordinal s l l' s')
    (hi : (l.filter fun i => i.opcode = .makeClosure)[n]? = some i) :
    ∃ hostIndex count flags, i.operands = .closure hostIndex count flags ∧
      ∃ b ∈ s'.bindings.toList, b.id = ⟨cx.typeId, m.key, ordinal + n⟩ ∧
        s'.constants.string? hostIndex = some b.host := by
  induction h generalizing n with
  | nil => simp at hi
  | @cons ordinal s s₁ s' j j' rest rest' first others ih =>
    cases first with
    | plain _ _ _ _ _ hcreated =>
      rw [List.filter_cons_of_neg (by simpa using hcreated)] at hi
      rw [if_neg hcreated] at ih
      exact ih hi
    | @site b hostIndex count flags hop hoperands _ hid _ hconstants hbindings hnamed =>
      rw [List.filter_cons_of_pos (by simpa using hop)] at hi
      rw [if_pos hop] at ih
      cases n with
      | zero =>
        obtain rfl := Option.some.inj hi
        have hstrings : s.constants.strings.toList <+: s'.constants.strings.toList := by
          refine List.IsPrefix.trans ?_ others.grows.constants
          exact hconstants ▸ ConstantPool.strings_prefix_intern _ _
        refine ⟨hostIndex, count, flags, hoperands, b, others.grows.bindings.subset ?_, hid,
          ConstantPool.string?_mono hstrings hnamed⟩
        simp [hbindings]
      | succ n =>
        obtain ⟨hostIndex', count', flags', hoperands', b', hb', hid', hnamed'⟩ := ih hi
        refine ⟨hostIndex', count', flags', hoperands', b', hb', ?_, hnamed'⟩
        rw [hid']
        congr 1
        omega

/-- A pool into which the keys of sites were interned one after the other. -/
def ConstantPool.withKeys (p : ConstantPool) (ids : List SiteId) : ConstantPool :=
  ids.foldl (fun p id => (p.intern id.key).2) p

/-- The constants of a unit with the keys of its closures behind them. -/
def TypeUnit.keyedConstants (u : TypeUnit) (typeId : TypeId) : ConstantPool :=
  u.constants.withKeys (u.methods.flatMap (MethodDecl.sites typeId))

lemma RedirectedAll.constants_eq {ordinal : Nat} {l l' : List Instruction} {s s' : RedirectState}
    {p : ConstantPool} (h : RedirectedAll cx u m ordinal s l l' s')
    (hs : s.constants = p.withKeys (s.bindings.toList.map SiteBinding.id)) :
    s'.constants = p.withKeys (s'.bindings.toList.map SiteBinding.id) := by
  induction h with
  | nil => exact hs
  | cons first _ ih =>
    refine ih ?_
    cases first with
    | plain hconstants hbindings => rw [hconstants, hbindings, hs]
    | site _ _ _ _ _ hconstants hbindings =>
      rw [hconstants, hbindings, hs, Array.toList_push, List.map_append]
      simp [ConstantPool.withKeys]

lemma RedirectedMethods.constants_eq {ms ms' : List MethodDecl} {s s' : RedirectState}
    {p : ConstantPool} (h : RedirectedMethods cx u s ms ms' s')
    (hs : s.constants = p.withKeys (s.bindings.toList.map SiteBinding.id)) :
    s'.constants = p.withKeys (s'.bindings.toList.map SiteBinding.id) := by
  induction h with
  | nil => exact hs
  | cons _ first _ ih => exact ih (first.constants_eq hs)

/-- Whether it is verified or not, the executor of a version holds the redirected methods. -/
lemma TypeUnit.methods_of_redirect {redirected : RedirectedVersion} {verify : Bool}
    (h : u.redirect cx verify = .ok redirected) :
    ∃ methods s, Redirection.methods cx u (.start u.constants) u.methods = .ok (methods, s) ∧
      redirected.executor = u.executor cx.version s.constants methods ∧
      redirected.bindings = s.bindings.toList := by
  simp only [redirect, Outcome.bind_eq_ok] at h
  obtain ⟨⟨methods, s⟩, hmethods, h⟩ := h
  refine ⟨methods, s, hmethods, ?_⟩
  cases verify with
  | false =>
    obtain rfl := Outcome.pure_eq_ok.mp h
    exact ⟨rfl, rfl⟩
  | true =>
    obtain ⟨_, -, h⟩ := Outcome.bind_eq_ok.mp h
    obtain rfl := Outcome.pure_eq_ok.mp h
    exact ⟨rfl, rfl⟩

/-- What redirecting a version gives: its executor holds the redirected methods, and is verified. -/
theorem TypeUnit.redirect_eq_ok {redirected : RedirectedVersion}
    (h : u.redirect cx true = .ok redirected) :
    ∃ methods s, RedirectedMethods cx u (.start u.constants) u.methods methods s ∧
      redirected.executor = u.executor cx.version s.constants methods ∧
      redirected.bindings = s.bindings.toList ∧ redirected.executor.Verified := by
  simp only [redirect, ↓reduceIte, Outcome.bind_eq_ok, Outcome.pure_eq_ok] at h
  obtain ⟨⟨methods, s⟩, hmethods, _, hverify, rfl⟩ := h
  exact ⟨methods, s, redirectedMethods_of_methods hmethods, rfl, rfl,
    TypeUnit.verified_of_verify (Outcome.mapError_eq_ok.mp hverify)⟩

/-- Every closure creation of a verified unit names a host, and its site is bound to that host. -/
lemma TypeUnit.binding_of_creation {redirected : RedirectedVersion} (hu : u.Verified)
    (h : u.redirect cx true = .ok redirected) (hm : m ∈ u.methods) {n : Nat} {i : Instruction}
    (hi : m.creations[n]? = some i) :
    ∃ hostIndex count flags, i.operands = .closure hostIndex count flags ∧
      ∃ b ∈ redirected.bindings, b.id = ⟨cx.typeId, m.key, n⟩ ∧
        u.constants.string? hostIndex = some b.host := by
  obtain ⟨methods, s, hmethods, -, hbindings, -⟩ := redirect_eq_ok h
  obtain ⟨l, l', s₀, s₁, hl, hall, hbefore, hafter, -⟩ := hmethods.of_source hm
  rw [MethodDecl.creations_eq hl] at hi
  obtain ⟨hostIndex, count, flags, hoperands, b, hb, hid, hnamed⟩ := hall.binding_of_creation hi
  rw [Nat.zero_add] at hid
  refine ⟨hostIndex, count, flags, hoperands, b, hbindings ▸ hafter.bindings.subset hb, hid, ?_⟩
  -- the index is one of the unit itself, for its code is verified
  obtain ⟨body, hbody⟩ := hu.bodies m hm
  obtain rfl := Except.ok.inj (hl.symm.trans hbody.decoded)
  have hmem := List.mem_filter.mp (List.mem_of_getElem? hi)
  have huses := (hbody.each i hmem.1).uses
  rw [Instruction.constantUses, hoperands, of_decide_eq_true hmem.2] at huses
  obtain ⟨host, hhost⟩ := huses (.string hostIndex) (by simp)
  have hstrings := (hbefore.trans hall.grows).constants
  rw [← hnamed, ConstantPool.string?_mono hstrings hhost]
  exact hhost

/-- The sites of a version are those of its closures, in code order. -/
lemma TypeUnit.ids_of_redirect {redirected : RedirectedVersion} {verify : Bool}
    (h : u.redirect cx verify = .ok redirected) :
    redirected.bindings.map SiteBinding.id = u.methods.flatMap (MethodDecl.sites cx.typeId) := by
  obtain ⟨methods, s, hmethods, -, hbindings⟩ := methods_of_redirect h
  rw [hbindings, (redirectedMethods_of_methods hmethods).ids_eq]
  rfl

/-- The constants of the executor are those of the unit and the keys of its closures. -/
lemma TypeUnit.constants_of_redirect {redirected : RedirectedVersion} {verify : Bool}
    (h : u.redirect cx verify = .ok redirected) :
    redirected.executor.constants = u.keyedConstants cx.typeId := by
  obtain ⟨methods, s, hmethods, hexecutor, hbindings⟩ := methods_of_redirect h
  have hconstants := (redirectedMethods_of_methods hmethods).constants_eq
    (p := u.constants) rfl
  rw [keyedConstants, ← ids_of_redirect h, hbindings, ← hconstants, hexecutor]
  rfl

/-- The bindings of a verified unit are what its code may ask for, one for each site. -/
theorem TypeUnit.bindings_of_redirect {redirected : RedirectedVersion} (hu : u.Verified)
    (h : u.redirect cx true = .ok redirected) :
    (∀ b ∈ redirected.bindings, b.Asked cx u) ∧
      (redirected.bindings.map SiteBinding.id).Nodup := by
  obtain ⟨methods, s, hmethods, -, hbindings, -⟩ := redirect_eq_ok h
  refine ⟨?_, ?_⟩
  · rw [hbindings]
    exact hmethods.asked (by simp [RedirectState.start])
  · rw [ids_of_redirect h]
    exact MethodDecl.nodup_sites cx.typeId hu.methods_nodup

/-- Every binding is that of a closure creation of the unit. -/
lemma TypeUnit.createdBy_of_redirect {redirected : RedirectedVersion} {verify : Bool}
    (h : u.redirect cx verify = .ok redirected) {b : SiteBinding} (hb : b ∈ redirected.bindings) :
    b.id.declaring = cx.typeId ∧ b.id.CreatedBy u.methods := by
  have hid : b.id ∈ u.methods.flatMap (MethodDecl.sites cx.typeId) :=
    ids_of_redirect h ▸ List.mem_map_of_mem hb
  obtain ⟨m, hm, hid⟩ := List.mem_flatMap.mp hid
  obtain ⟨hdeclaring, hmethod, hlt⟩ := MethodDecl.mem_sites.mp hid
  exact ⟨hdeclaring, m, hm, hmethod, hlt⟩

end LiveTypes
