import LiveTypes.Proofs.Registry.Bodies
import LiveTypes.Proofs.Registry.Sites
import LiveTypes.Proofs.Version.Dispatcher

/-!
# Looking up methods

What a type gives for a signature key is decided by its versions alone: the body of the current one if
that declares the key, and otherwise whether an earlier version did (`Reachable.resolves`). It takes
three structures to answer, the published table, the history and the versions, and a version that is
given once more changes only the last.
-/

namespace LiveTypes

def TypeUnit.Declares (u : TypeUnit) (key : String) : Prop := ∃ m ∈ u.methods, m.key = key

instance (u : TypeUnit) (key : String) : Decidable (u.Declares key) :=
  inferInstanceAs (Decidable (∃ m ∈ u.methods, m.key = key))

/-- Each redirected method comes from one by itself. -/
lemma Redirection.exists_method {cx : RedirectContext} {u : TypeUnit} {s s' : RedirectState}
    {ms ms' : List MethodDecl} (h : methods cx u s ms = .ok (ms', s')) {m' : MethodDecl}
    (hm : m' ∈ ms') : ∃ m ∈ ms, ∃ s₀ s₁, method cx u m s₀ = .ok (m', s₁) := by
  induction ms generalizing s ms' s' with
  | nil =>
    obtain ⟨rfl, -⟩ := Prod.mk.inj (Except.ok.inj h)
    cases hm
  | cons m rest ih =>
    obtain ⟨m₁, s₁, rest', hfirst, hothers, rfl⟩ := methods_cons_eq_ok.mp h
    rcases List.mem_cons.mp hm with rfl | hm
    · exact ⟨m, List.mem_cons_self, s, s₁, hfirst⟩
    · obtain ⟨m₀, hm₀, hmethod⟩ := ih hothers hm
      exact ⟨m₀, List.mem_cons_of_mem m hm₀, hmethod⟩

/-- Redirecting changes the code of a method only. -/
lemma Redirection.method_eq {cx : RedirectContext} {u : TypeUnit} {m m' : MethodDecl}
    {s s' : RedirectState} (h : method cx u m s = .ok (m', s')) : m' = { m with code := m'.code } := by
  obtain ⟨l, l', -, -, rfl⟩ := method_eq_ok.mp h
  rfl

namespace LiveType

variable {t : LiveType} {key : String}

/-- Whether an executable is the redirected form of a method of the current version. -/
structure Rewrites (t : LiveType) (m : MethodDecl) (e : Executable) : Prop where
  key_eq : e.key = m.key
  signature_eq : e.signature = m.signature
  isStatic_eq : e.isStatic = m.isStatic
  locals_eq : e.locals = m.locals
  throws_eq : e.throws = m.throws
  typeId_eq : e.typeId = t.id
  /-- The code is that of the method, redirected. -/
  code_eq : ∃ cx s m' s', cx.typeId = t.id ∧
    Redirection.method cx t.current.unit m s = .ok (m', s') ∧ e.code = .ofBytes m'.code

/-- Whether a type gives for a key what its versions say. -/
structure Resolves (t : LiveType) (key : String) : Prop where
  found_iff : (∃ e, t.executable key = .ok e) ↔ t.current.unit.Declares key
  removed_iff : t.executable key = .error (.removed t.name key) ↔
    ¬ t.current.unit.Declares key ∧ ∃ v ∈ t.versions, v.unit.Declares key
  missing_iff : t.executable key = .error (.noSuchMember t.name key) ↔
    ∀ v ∈ t.versions, ¬ v.unit.Declares key
  rewrites : ∀ e, t.executable key = .ok e → ∃ m ∈ t.current.unit.methods, m.key = key ∧
    t.Rewrites m e

lemma executable_eq_ok {e : Executable} :
    t.executable key = .ok e ↔ t.table.find? key = some e := by
  unfold executable
  cases t.table.find? key with
  | some e' => simp
  | none => split_ifs <;> simp

lemma executable_eq_removed : t.executable key = .error (.removed t.name key) ↔
    t.table.find? key = none ∧ t.history.methodKinds.contains key = true := by
  unfold executable
  cases t.table.find? key with
  | some e' => simp
  | none => split_ifs with hknown <;> simp [hknown]

lemma executable_eq_noSuchMember : t.executable key = .error (.noSuchMember t.name key) ↔
    t.table.find? key = none ∧ t.history.methodKinds.contains key ≠ true := by
  unfold executable
  cases t.table.find? key with
  | some e' => simp
  | none => split_ifs with hknown <;> simp [hknown]

/-- A body is published for each method of the version whose bodies are published. -/
lemma Publishes.exists_find? {v : Version} {cx : RedirectContext} {redirected : RedirectedVersion}
    (h : t.Publishes v cx redirected) (hdeclares : v.unit.Declares key) :
    ∃ e, t.table.find? key = some e := by
  obtain ⟨m, hm, rfl⟩ := hdeclares
  obtain ⟨methods, s, hmethods, hexecutor, -⟩ := TypeUnit.redirect_eq_ok h.redirect_eq
  obtain ⟨_, l', _, _, -, -, -, -, hmem⟩ := hmethods.of_source hm
  unfold ExecutorTable.find?
  rw [h.entries_eq]
  have hmem : { m with code := Instruction.encodeAll l' } ∈ redirected.executor.methods := by
    rw [hexecutor]
    exact hmem
  exact AssocMap.exists_find?_ofList (List.mem_map.mpr ⟨_, hmem, rfl⟩)

/-- A published body is that of a method of the version that it was made for. -/
lemma Publishes.method_of_find? {v : Version} {cx : RedirectContext}
    {redirected : RedirectedVersion} (h : t.Publishes v cx redirected) {e : Executable}
    (he : t.table.find? key = some e) :
    ∃ m ∈ v.unit.methods, m.key = key ∧ ∃ m' ∈ redirected.executor.methods, ∃ s s',
      Redirection.method cx v.unit m s = .ok (m', s') ∧
      e = ExecutorTable.executable redirected.executor t.id t.name v.index m' := by
  obtain ⟨m', hm', hkey, rfl⟩ := h.mem_of_find? he
  obtain ⟨methods, s, hmethods, hexecutor, -⟩ := TypeUnit.methods_of_redirect h.redirect_eq
  rw [hexecutor] at hm'
  obtain ⟨m, hm, s₀, s₁, hmethod⟩ := Redirection.exists_method hmethods hm'
  refine ⟨m, hm, ?_, m', hexecutor ▸ hm', s₀, s₁, hmethod, rfl⟩
  rw [← hkey, Redirection.method_eq hmethod]
  rfl

/-- A published body is the redirected form of a method. -/
lemma Publishes.rewrites {v : Version} {cx : RedirectContext} {redirected : RedirectedVersion}
    (h : t.Publishes v cx redirected) (hunit : v.unit = t.current.unit) {e : Executable}
    (he : t.table.find? key = some e) :
    ∃ m ∈ t.current.unit.methods, m.key = key ∧ t.Rewrites m e := by
  obtain ⟨m, hm, hkey, m', -, s₀, s₁, hmethod, rfl⟩ := h.method_of_find? he
  have hsame := Redirection.method_eq hmethod
  rw [hunit] at hm hmethod
  refine ⟨m, hm, hkey, ?_⟩
  constructor
  · show m'.key = m.key
    rw [hsame]
    rfl
  · show m'.signature = m.signature
    rw [hsame]
  · show m'.isStatic = m.isStatic
    rw [hsame]
    rfl
  · show m'.locals = m.locals
    rw [hsame]
  · show m'.throws = m.throws
    rw [hsame]
  · rfl
  · exact ⟨cx, s₀, m', s₁, h.typeId_eq, hmethod, rfl⟩

/-! ### Dispatchers -/

/-- Whether an executable is the dispatcher of a method of the first version. -/
structure Dispatches (t : LiveType) (m : MethodDecl) (d : Executable) : Prop
    extends d.IsDispatcher where
  key_eq : d.key = m.key
  signature_eq : d.signature = m.signature
  isStatic_eq : d.isStatic = m.isStatic
  typeId_eq : d.typeId = t.id

lemma Loaded.methods_eq {config : RegistryConfig} (h : t.Loaded config) :
    ∃ d, t.initial.unit.dispatcher = .ok d ∧ t.loadedUnit.methods = d.methods ∧
      t.loadedUnit.constants = d.constants := by
  obtain ⟨d, hd, hunit⟩ := h.unit_eq
  rw [hunit]
  split
  · exact ⟨d, hd, rfl, rfl⟩
  · exact ⟨d, hd, rfl, rfl⟩

/-- There is a dispatcher for each method of the first version. -/
lemma Loaded.exists_dispatcher {config : RegistryConfig} (h : t.Loaded config)
    (hdeclares : t.initial.unit.Declares key) : ∃ d, t.dispatcher? key = some d := by
  obtain ⟨m, hm, rfl⟩ := hdeclares
  obtain ⟨d, hd, hmethods, -⟩ := h.methods_eq
  obtain ⟨m', hm', hforwards⟩ := (TypeUnit.forwards_of_dispatcher hd).2.1 m hm
  rw [dispatcher?, h.dispatchers_eq]
  rw [← hmethods] at hm'
  exact AssocMap.exists_find?_ofList (List.mem_map.mpr ⟨m', hm', congrArg (·, _) hforwards.key_eq⟩)

/-- Every dispatcher is that of a method of the first version. -/
lemma Loaded.dispatches {config : RegistryConfig} (h : t.Loaded config)
    (hbounded : t.initial.unit.Bounded) {d : Executable} (hd : t.dispatcher? key = some d) :
    ∃ m ∈ t.initial.unit.methods, m.key = key ∧ t.Dispatches m d := by
  obtain ⟨u, hu, hmethods, hconstants⟩ := h.methods_eq
  obtain ⟨hsize, -, hfrom⟩ := TypeUnit.forwards_of_dispatcher hu
  rw [dispatcher?, h.dispatchers_eq] at hd
  obtain ⟨m', hm', hkey, rfl⟩ := ExecutorTable.mem_of_find?_ofUnit hd
  obtain ⟨m, hm, hforwards⟩ := hfrom m' (hmethods ▸ hm')
  rw [← hconstants] at hforwards hsize
  have hfew := hbounded.methods_length
  have hfull : ¬ t.loadedUnit.constants.Overfull := by
    unfold ConstantPool.Overfull
    omega
  obtain ⟨code, rfl⟩ := hforwards.same
  exact ⟨m, hm, hkey, { hforwards.isDispatcher hfull with
    key_eq := rfl, signature_eq := rfl, isStatic_eq := rfl, typeId_eq := rfl }⟩

end LiveType

namespace Registry

variable {r : Registry} {config : RegistryConfig}

/-- A method that the history knows is declared by some version. -/
lemma Reachable.declared_of_known (h : Reachable config r) (hverify : config.verify = true) :
    ∀ t ∈ r.types, ∀ key, t.history.methodKinds.contains key = true →
      ∃ v ∈ t.versions, v.unit.Declares key := by
  have hrecord {history : History} {u : TypeUnit} {key : String}
      (hknown : (history.record u).methodKinds.contains key = true) :
      history.methodKinds.contains key = true ∨ u.Declares key := by
    obtain ⟨isStatic, hfind⟩ := AssocMap.contains_eq_true.mp hknown
    rcases AssocMap.find?_addAll_inv hfind with hold | ⟨m, hm, hkey, -⟩
    · exact .inl (AssocMap.contains_eq_true.mpr ⟨isStatic, hold⟩)
    · exact .inr ⟨m, hm, hkey⟩
  refine h.types_invariant hverify ?_ ?_ ?_
  · intro r u bytes t redirected _ _ hcreated key hknown
    rw [hcreated.history_eq] at hknown
    refine ⟨t.initial, List.mem_cons_self, ?_⟩
    rw [hcreated.initial_eq]
    exact (hrecord hknown).resolve_left Bool.false_ne_true
  · intro t label bytes u _ hold _ _ key hknown
    obtain ⟨v, hv, hdeclares⟩ := hold key hknown
    exact ⟨v, List.mem_append_left _ hv, hdeclares⟩
  · intro r t label bytes u redirected _ hold _ _ key hknown
    rcases hrecord hknown with hknown | hdeclares
    · obtain ⟨v, hv, hdeclares⟩ := hold key hknown
      exact ⟨v, List.mem_append_left _ hv, hdeclares⟩
    · exact ⟨t.nextVersion label bytes u redirected.executor.encode,
        List.mem_append_right t.versions List.mem_cons_self, hdeclares⟩

/-- Every type gives for each key what its versions say, as long as no two versions of it with
different bytes have one digest. -/
theorem Reachable.resolves (h : Reachable config r) (hverify : config.verify = true)
    (hfree : r.CollisionFree) {t : LiveType} (ht : t ∈ r.types) (key : String) : t.Resolves key := by
  have hwell := (h.wellFormed hverify).types t ht
  have hcollides := hfree.not_collides ht
  obtain ⟨v, cx, redirected, hpublishes⟩ := h.publishes hverify t ht
  have hunit := hpublishes.unit_eq hwell hcollides
  have hknows := (h.knows hverify t ht).resolve_left hcollides
  have hrewrites {e : Executable} (he : t.table.find? key = some e) := hpublishes.rewrites hunit he
  have hfound : (∃ e, t.table.find? key = some e) ↔ t.current.unit.Declares key := by
    constructor
    · rintro ⟨e, he⟩
      obtain ⟨m, hm, hkey, -⟩ := hrewrites he
      exact ⟨m, hm, hkey⟩
    · intro hdeclares
      exact hpublishes.exists_find? (hunit ▸ hdeclares)
  have hnone : t.table.find? key = none ↔ ¬ t.current.unit.Declares key := by
    rw [← hfound, ← Option.isSome_iff_exists, Option.not_isSome_iff_eq_none]
  have hknown : t.history.methodKinds.contains key = true ↔ ∃ v ∈ t.versions, v.unit.Declares key := by
    refine ⟨h.declared_of_known hverify t ht key, ?_⟩
    rintro ⟨w, hw, m, hm, rfl⟩
    exact AssocMap.contains_eq_true.mpr ⟨m.isStatic, (hknows w hw).method m hm⟩
  refine ⟨?_, ?_, ?_, fun e he => hrewrites (LiveType.executable_eq_ok.mp he)⟩
  · simp only [LiveType.executable_eq_ok, hfound]
  · rw [LiveType.executable_eq_removed, hnone, hknown]
  · rw [LiveType.executable_eq_noSuchMember, hnone, ne_eq, hknown, not_exists]
    simp only [not_and]
    exact ⟨fun hnever => hnever.2, fun hnever => ⟨hnever _ hwell.current_mem, hnever⟩⟩

end Registry

end LiveTypes
