import LiveTypes.Proofs.Redirection.Version
import LiveTypes.Proofs.Registry.Step
import LiveTypes.Proofs.TypeUnit.Verify
import LiveTypes.Proofs.Version.History
import Mathlib.Data.List.Nodup

/-!
# Well-formed registries

What holds of every type of a registry that verifies units: its versions are numbered in order, each
is what its bytes say, the newest one is published, and the history knows what the versions declare.
Types are found by their name and by their place.
-/

namespace LiveTypes

/-- A verified unit is read from the bytes and passes verification. -/
lemma TypeUnit.admit_eq_ok {bytes : List UInt8} {u : TypeUnit} :
    TypeUnit.admit bytes true = .ok u ↔
      TypeUnit.decode bytes = .ok u ∧ u.verify .source = .ok () := by
  unfold TypeUnit.admit
  simp only [↓reduceIte, Outcome.bind_eq_ok, Outcome.mapError_eq_ok, Outcome.exists_unit,
    Outcome.pure_eq_ok]
  constructor
  · rintro ⟨u', hdecode, hverify, rfl⟩
    exact ⟨hdecode, hverify⟩
  · rintro ⟨hdecode, hverify⟩
    exact ⟨u, hdecode, hverify, rfl⟩

lemma TypeUnit.verified_of_admit {bytes : List UInt8} {u : TypeUnit}
    (h : TypeUnit.admit bytes true = .ok u) : u.Verified :=
  TypeUnit.verified_of_verify (TypeUnit.admit_eq_ok.mp h).2

/-- A version that is what its bytes say. -/
structure Version.Genuine (v : Version) : Prop where
  admitted : TypeUnit.admit v.bytes true = .ok v.unit
  summary_eq : v.summary = v.unit.summary v.bytes

lemma Version.Genuine.verified {v : Version} (h : v.Genuine) : v.unit.Verified :=
  TypeUnit.verified_of_admit h.admitted

/-- A table of the bodies that were redirected for a version of a type. -/
def ExecutorTable.BodiesOf (table : ExecutorTable) (id : TypeId) (name : String)
    (version : Nat) : Prop :=
  ∀ key e, table.find? key = some e →
    e.typeId = id ∧ e.typeName = name ∧ e.version = version ∧ e.unitName = executorName name version

lemma ExecutorTable.mem_of_find?_ofUnit {u : TypeUnit} {id : TypeId} {name label key : String}
    {version : Nat} {e : Executable} (h : (ofUnit u id name version label).find? key = some e) :
    ∃ m ∈ u.methods, m.key = key ∧ e = executable u id name version m := by
  obtain ⟨m, hm, heq⟩ := List.mem_map.mp (AssocMap.mem_of_find?_ofList h)
  obtain ⟨hkey, he⟩ := Prod.mk.inj heq
  exact ⟨m, hm, hkey, he.symm⟩

lemma TypeUnit.name_executor {u : TypeUnit} {cx : RedirectContext} {verify : Bool}
    {redirected : RedirectedVersion} (h : u.redirect cx verify = .ok redirected) :
    redirected.executor.name = executorName u.name cx.version := by
  obtain ⟨_, _, -, hexecutor, -⟩ := methods_of_redirect h
  rw [hexecutor]
  rfl

lemma ExecutorTable.bodiesOf_ofUnit {u : TypeUnit} {id : TypeId} {name label : String}
    {version : Nat} (h : u.name = executorName name version) :
    (ofUnit u id name version label).BodiesOf id name version := by
  intro key e he
  obtain ⟨m, -, -, rfl⟩ := mem_of_find?_ofUnit he
  exact ⟨rfl, rfl, rfl, h⟩

namespace LiveType

variable {t : LiveType}

/-- A type whose versions, history and table belong together. -/
structure WellFormed (t : LiveType) : Prop where
  index_eq : ∀ (k : Nat) (v : Version), t.versions[k]? = some v → v.index = k
  genuine : ∀ v ∈ t.versions, v.Genuine
  named : ∀ v ∈ t.versions, v.unit.name = t.name
  published : t.table.version + 1 = t.versions.length
  layout_eq : t.layout = .ofUnit t.initial.unit
  history_name : t.history.name = t.name
  initial_known : t.history.Knows t.initial.unit
  checked : t.history.check t.current.unit = .ok ()
  declared : ∀ name type, t.fieldType? name = some type →
    ∃ v ∈ t.versions, ∃ f ∈ v.unit.fields, f.name = name ∧ f.type = type
  bodies : ∃ version ≤ t.table.version, t.table.BodiesOf t.id t.name version

@[simp] lemma versions_publish (t : LiveType) (v : Version) (table : ExecutorTable) :
    (t.publish v table).versions = t.versions ++ [v] :=
  rfl

lemma current_publish {v : Version} {table : ExecutorTable}
    (h : table.version = t.versions.length) : (t.publish v table).current = v := by
  show ((t.versions ++ [v])[table.version]?).getD t.initial = v
  simp [h]

lemma getLast_current (h : t.table.version + 1 = t.versions.length) :
    t.versions[t.table.version]? = some t.current := by
  have hlt : t.table.version < t.versions.length := by omega
  rw [current, List.getElem?_eq_getElem hlt]
  rfl

lemma WellFormed.current_mem (h : t.WellFormed) : t.current ∈ t.versions :=
  List.mem_of_getElem? (getLast_current h.published)

lemma WellFormed.current_index (h : t.WellFormed) : t.current.index = t.table.version :=
  h.index_eq _ _ (getLast_current h.published)

lemma WellFormed.index_lt (h : t.WellFormed) {v : Version} (hv : v ∈ t.versions) :
    v.index < t.versions.length := by
  obtain ⟨k, hk⟩ := List.getElem?_of_mem hv
  rw [h.index_eq k v hk]
  exact (List.getElem?_eq_some_iff.mp hk).1

/-- A version is known by its number. -/
lemma WellFormed.eq_of_index (h : t.WellFormed) {v v' : Version} (hv : v ∈ t.versions)
    (hv' : v' ∈ t.versions) (hindex : v.index = v'.index) : v = v' := by
  obtain ⟨k, hk⟩ := List.getElem?_of_mem hv
  obtain ⟨k', hk'⟩ := List.getElem?_of_mem hv'
  rw [h.index_eq k v hk, h.index_eq k' v' hk'] at hindex
  exact Option.some.inj (hk.symm.trans (hindex ▸ hk'))

/-- The version that has the number of the published one is the current version. -/
lemma WellFormed.eq_current_of_index (h : t.WellFormed) {v : Version} (hv : v ∈ t.versions)
    (hindex : v.index = t.table.version) : v = t.current :=
  h.eq_of_index hv h.current_mem (hindex.trans h.current_index.symm)

lemma fieldType?_ofInitial {u : TypeUnit} {name : String} {type : TypeDescriptor}
    (h : (History.ofInitial u).fieldTypes.find? name = some type) :
    ∃ f ∈ u.fields, f.name = name ∧ f.type = type := by
  rcases AssocMap.find?_addAll_inv h with h | h
  · cases h
  · exact h

lemma Created.wellFormed {r : Registry} {u : TypeUnit} {bytes : List UInt8}
    {redirected : RedirectedVersion} (h : t.Created r u bytes redirected)
    (hread : TypeUnit.admit bytes true = .ok u) : t.WellFormed := by
  have hversions : t.versions = [t.initial] := by rw [versions, h.later_eq]
  have hunit : t.initial.unit = u := by rw [h.initial_eq]
  have hpublished : t.table.version = 0 := by rw [h.table_eq]; rfl
  have hcurrent : t.current = t.initial := by simp [current, hversions, hpublished]
  have hgenuine : t.initial.Genuine := by rw [h.initial_eq]; exact ⟨hread, rfl⟩
  have hverified : u.Verified := hunit ▸ hgenuine.verified
  have hknows : t.history.Knows u := by
    rw [h.history_eq]
    exact History.knows_ofInitial hverified.fields_nodup hverified.methods_nodup
  exact {
    index_eq k v hk := by
      rw [hversions] at hk
      cases k with
      | zero =>
        obtain rfl : t.initial = v := by simpa using hk
        rw [h.initial_eq]
      | succ k => simp at hk
    genuine v hv := by
      obtain rfl : v = t.initial := by simpa [hversions] using hv
      exact hgenuine
    named v hv := by
      obtain rfl : v = t.initial := by simpa [hversions] using hv
      rw [hunit, h.name_eq]
    published := by rw [hpublished, hversions]; rfl
    layout_eq := by rw [hunit, h.layout_eq]
    history_name := by rw [h.history_eq, h.name_eq]; rfl
    initial_known := by rw [hunit]; exact hknows
    checked := by rw [hcurrent, hunit]; exact hknows.check
    declared name type htype := by
      rw [fieldType?, h.history_eq] at htype
      exact ⟨t.initial, by simp [hversions], hunit ▸ fieldType?_ofInitial htype⟩
    bodies := by
      refine ⟨0, Nat.zero_le _, ?_⟩
      rw [h.table_eq]
      refine ExecutorTable.bodiesOf_ofUnit ?_
      rw [TypeUnit.name_executor h.redirect_eq, h.name_eq]
      rfl }

/-- A type that publishes one more version, with a history that knows at least as much. -/
lemma WellFormed.publish (ht : t.WellFormed) {v : Version} {table : ExecutorTable} {h : History}
    (hindex : v.index = t.versions.length) (hgenuine : v.Genuine) (hnamed : v.unit.name = t.name)
    (htable : table.version = t.versions.length) (hname : h.name = t.name)
    (hinitial : h.Knows t.initial.unit) (hchecked : h.check v.unit = .ok ())
    (hdeclared : ∀ name type, h.fieldTypes.find? name = some type →
      t.fieldType? name = some type ∨ ∃ f ∈ v.unit.fields, f.name = name ∧ f.type = type)
    (hbodies : ∃ version ≤ table.version, table.BodiesOf t.id t.name version) :
    WellFormed { t.publish v table with history := h } where
  index_eq k w hk := by
    change (t.versions ++ [v])[k]? = some w at hk
    rw [List.getElem?_append, List.getElem?_singleton] at hk
    split_ifs at hk with hlt hzero
    · exact ht.index_eq k w hk
    · obtain rfl := Option.some.inj hk
      omega
  genuine w hw := by
    change w ∈ t.versions ++ [v] at hw
    rcases List.mem_append.mp hw with hw | hw
    · exact ht.genuine w hw
    · exact List.mem_singleton.mp hw ▸ hgenuine
  named w hw := by
    change w ∈ t.versions ++ [v] at hw
    rcases List.mem_append.mp hw with hw | hw
    · exact ht.named w hw
    · exact List.mem_singleton.mp hw ▸ hnamed
  published := by
    show table.version + 1 = (t.versions ++ [v]).length
    simp [htable]
  layout_eq := ht.layout_eq
  history_name := hname
  initial_known := hinitial
  checked := by
    show h.check (t.publish v table).current.unit = .ok ()
    rw [current_publish htable]
    exact hchecked
  declared name type htype := by
    show ∃ w ∈ t.versions ++ [v], _
    rcases hdeclared name type htype with hold | hnew
    · obtain ⟨w, hw, hf⟩ := ht.declared name type hold
      exact ⟨w, List.mem_append_left _ hw, hf⟩
    · exact ⟨v, List.mem_append_right _ List.mem_cons_self, hnew⟩
  bodies := hbodies

lemma Accepts.name_eq {verify : Bool} {label : String} {bytes : List UInt8} {u : TypeUnit}
    (h : t.Accepts verify label bytes u) (ht : t.WellFormed) : u.name = t.name :=
  (History.check_eq_ok.mp h.checked).1.trans ht.history_name

lemma WellFormed.reloadSame (ht : t.WellFormed) {label : String} {bytes : List UInt8}
    {u : TypeUnit} (haccepts : t.Accepts true label bytes u) :
    (t.reloadSame label bytes u).WellFormed := by
  obtain ⟨version, hversion, hbodies⟩ := ht.bodies
  have hpublished := ht.published
  refine ht.publish (h := t.history) rfl ⟨haccepts.admitted, rfl⟩ (haccepts.name_eq ht) rfl
    ht.history_name ht.initial_known haccepts.checked (fun name type h => .inl h)
    ⟨version, ?_, hbodies⟩
  show version ≤ t.versions.length
  omega

lemma WellFormed.reloadNew (ht : t.WellFormed) {label : String} {bytes : List UInt8}
    {u : TypeUnit} {cx : RedirectContext} {verify : Bool} {redirected : RedirectedVersion}
    (haccepts : t.Accepts true label bytes u) (hversion : cx.version = t.versions.length)
    (hredirect : u.redirect cx verify = .ok redirected) :
    (t.reloadNew label bytes u redirected).WellFormed := by
  have hgenuine : Version.Genuine (t.nextVersion label bytes u redirected.executor.encode) :=
    ⟨haccepts.admitted, rfl⟩
  have hverified : u.Verified := hgenuine.verified
  have hname := haccepts.name_eq ht
  have hknows : (t.history.record u).Knows u :=
    History.knows_record haccepts.checked hverified.fields_nodup hverified.methods_nodup
  refine ht.publish (h := t.history.record u) rfl hgenuine hname rfl ht.history_name
    (ht.initial_known.record u) hknows.check (fun name type h => ?_)
    ⟨t.versions.length, Nat.le_refl _, ExecutorTable.bodiesOf_ofUnit ?_⟩
  · exact AssocMap.find?_addAll_inv h
  · rw [TypeUnit.name_executor hredirect, hname, hversion]

end LiveType

namespace Registry

variable {r r' : Registry} {t t' : LiveType} {config : RegistryConfig}

/-- A registry of well-formed types, each with an identity and a name of its own. -/
structure WellFormed (r : Registry) : Prop where
  verifies : r.config.verify = true
  id_eq : ∀ (k : Nat) (t : LiveType), r.types[k]? = some t → t.id = k
  names_nodup : (r.types.map LiveType.name).Nodup
  types : ∀ t ∈ r.types, t.WellFormed

/-! ### Finding types -/

lemma WellFormed.byId?_eq_some (hr : r.WellFormed) {id : TypeId} :
    r.byId? id = some t ↔ t ∈ r.types ∧ t.id = id := by
  constructor
  · intro h
    exact ⟨List.mem_of_getElem? h, hr.id_eq id t h⟩
  · rintro ⟨ht, rfl⟩
    obtain ⟨k, hk⟩ := List.getElem?_of_mem ht
    rw [byId?, hr.id_eq k t hk]
    exact hk

lemma WellFormed.byId?_id (hr : r.WellFormed) (ht : t ∈ r.types) : r.byId? t.id = some t :=
  hr.byId?_eq_some.mpr ⟨ht, rfl⟩

lemma WellFormed.eq_of_id (hr : r.WellFormed) (ht : t ∈ r.types) (ht' : t' ∈ r.types)
    (h : t.id = t'.id) : t = t' := by
  have hfind := hr.byId?_id ht
  rw [h, hr.byId?_id ht'] at hfind
  exact (Option.some.inj hfind).symm

lemma WellFormed.eq_of_name (hr : r.WellFormed) (ht : t ∈ r.types) (ht' : t' ∈ r.types)
    (h : t.name = t'.name) : t = t' :=
  List.inj_on_of_nodup_map hr.names_nodup ht ht' h

lemma mem_of_find? {name : String} (h : r.find? name = some t) : t ∈ r.types :=
  List.mem_of_find?_eq_some h

/-- A type is found by its name when no other type has it. -/
lemma find?_eq_some_of_nodup (hnames : (r.types.map LiveType.name).Nodup) {name : String} :
    r.find? name = some t ↔ t ∈ r.types ∧ t.name = name := by
  constructor
  · intro h
    exact ⟨mem_of_find? h, find?_name h⟩
  · rintro ⟨ht, rfl⟩
    cases hfind : r.find? t.name with
    | none =>
      have hne := List.find?_eq_none.mp hfind t ht
      simp at hne
    | some t' =>
      rw [List.inj_on_of_nodup_map hnames (mem_of_find? hfind) ht (find?_name hfind)]

lemma WellFormed.find?_eq_some (hr : r.WellFormed) {name : String} :
    r.find? name = some t ↔ t ∈ r.types ∧ t.name = name :=
  find?_eq_some_of_nodup hr.names_nodup

lemma WellFormed.find?_name (hr : r.WellFormed) (ht : t ∈ r.types) : r.find? t.name = some t :=
  hr.find?_eq_some.mpr ⟨ht, rfl⟩

/-! ### Well-formed registries stay well-formed -/

lemma WellFormed.mem_replace (hr : r.WellFormed) (ht : t ∈ r.types) (hid : t'.id = t.id)
    {q : LiveType} :
    q ∈ (r.replace t').types ↔ q = t' ∨ q ∈ r.types ∧ q.id ≠ t.id := by
  have hlt : t.id < r.types.length := (List.getElem?_eq_some_iff.mp (hr.byId?_id ht)).1
  simp only [replace, hid]
  constructor
  · intro hq
    obtain ⟨k, hk⟩ := List.getElem?_of_mem hq
    rw [List.getElem?_set] at hk
    split_ifs at hk with hkt
    · exact .inl (Option.some.inj hk).symm
    · exact .inr ⟨List.mem_of_getElem? hk, fun h => hkt (h ▸ hr.id_eq k q hk)⟩
  · rintro (rfl | ⟨hq, hne⟩)
    · exact List.mem_set hlt _
    · have hk := hr.byId?_id hq
      refine List.mem_of_getElem? (i := q.id) ?_
      rw [List.getElem?_set_ne (Ne.symm hne)]
      exact hk

lemma WellFormed.replace (hr : r.WellFormed) (ht : t ∈ r.types) (hid : t'.id = t.id)
    (hname : t'.name = t.name) (ht' : t'.WellFormed) (sites : SiteTable) :
    WellFormed (Registry.replace { r with sites } t') where
  verifies := hr.verifies
  id_eq k q hk := by
    simp only [Registry.replace, hid, List.getElem?_set] at hk
    split_ifs at hk with hkt
    · rw [← Option.some.inj hk, hid, hkt]
    · exact hr.id_eq k q hk
  names_nodup := by
    have hsame : (r.types.set t.id t').map LiveType.name = r.types.map LiveType.name := by
      have hk : r.types[t.id]? = some t := hr.byId?_id ht
      refine List.ext_getElem? fun k => ?_
      rw [List.map_set, List.getElem?_set, hname, List.length_map]
      split_ifs with hkt hlt
      · rw [← hkt, List.getElem?_map, hk]
        rfl
      · rw [← hkt, List.getElem?_eq_none (by simpa using hlt)]
      · rfl
    simp only [Registry.replace, hid, hsame]
    exact hr.names_nodup
  types q hq := by
    rcases (hr.mem_replace ht hid).mp hq with rfl | ⟨hq, -⟩
    · exact ht'
    · exact hr.types q hq

lemma WellFormed.append (hr : r.WellFormed) (hid : t.id = r.size) (hfresh : r.find? t.name = none)
    (ht : t.WellFormed) (sites : SiteTable) :
    WellFormed { r with types := r.types ++ [t], sites } where
  verifies := hr.verifies
  id_eq k q hk := by
    change (r.types ++ [t])[k]? = some q at hk
    rw [List.getElem?_append, List.getElem?_singleton] at hk
    split_ifs at hk with hlt hzero
    · exact hr.id_eq k q hk
    · rw [← Option.some.inj hk, hid]
      show r.types.length = k
      omega
  names_nodup := by
    show ((r.types ++ [t]).map LiveType.name).Nodup
    rw [List.map_append, List.nodup_append]
    refine ⟨hr.names_nodup, by simp, fun name hname name' hname' => ?_⟩
    obtain ⟨q, hq, rfl⟩ := List.mem_map.mp hname
    obtain rfl : name' = t.name := by simpa using hname'
    simpa using List.find?_eq_none.mp hfresh q hq
  types q hq := by
    rcases List.mem_append.mp hq with hq | hq
    · exact hr.types q hq
    · exact List.mem_singleton.mp hq ▸ ht

lemma WellFormed.change (hr : r.WellFormed) (h : Change r r') : r'.WellFormed := by
  have hverify := hr.verifies
  cases h with
  | @registered u bytes t redirected hfresh hread hcreated hfit =>
    rw [hverify] at hread
    exact hr.append hcreated.id_eq (by rw [hcreated.name_eq, hfresh])
      (hcreated.wellFormed hread) _
  | @repeated t label bytes u hfound haccepts hcurrent =>
    rw [hverify] at haccepts
    have ht := mem_of_find? hfound
    refine hr.replace ht ?_ ?_ ((hr.types t ht).reloadSame haccepts) r.sites <;> rfl
  | @renewed t label bytes u redirected hfound haccepts hother hredirect hfit =>
    rw [hverify] at haccepts
    have ht := mem_of_find? hfound
    refine hr.replace ht ?_ ?_ ((hr.types t ht).reloadNew haccepts rfl hredirect) _ <;> rfl

/-- Every registry that verifies units is well-formed. -/
theorem Reachable.wellFormed (h : Reachable config r) (hverify : config.verify = true) :
    r.WellFormed :=
  h.invariant ⟨hverify, by simp [Registry.create], by simp [Registry.create], by simp [Registry.create]⟩
    fun _ hr hchange => hr.change hchange

/-- The same of the types of a registry that verifies units, which are well-formed. -/
theorem Reachable.types_invariant {P : LiveType → Prop} (h : Reachable config r)
    (hverify : config.verify = true)
    (created : ∀ {r u bytes t redirected}, r.config = config → TypeUnit.admit bytes true = .ok u →
      t.Created r u bytes redirected → P t)
    (repeated : ∀ {t label bytes u}, t.WellFormed → P t → t.Accepts true label bytes u →
      t.isCurrent bytes = true → P (t.reloadSame label bytes u))
    (renewed : ∀ {r t label bytes u redirected}, t.WellFormed → P t →
      t.Accepts true label bytes u →
      u.redirect ⟨t.id, t.versions.length, t.layout, t.loadedMethods, r⟩ true = .ok redirected →
      P (t.reloadNew label bytes u redirected)) : ∀ t ∈ r.types, P t := by
  suffices hall : ∀ t ∈ r.types, t.WellFormed ∧ P t from fun t ht => (hall t ht).2
  refine h.forall_types ?_ ?_ ?_
  · intro r u bytes t redirected hconfig hread hcreated
    rw [hverify] at hread
    exact ⟨hcreated.wellFormed hread, created hconfig hread hcreated⟩
  · rintro t label bytes u ⟨ht, hP⟩ haccepts hcurrent
    rw [hverify] at haccepts
    exact ⟨ht.reloadSame haccepts, repeated ht hP haccepts hcurrent⟩
  · rintro r t label bytes u redirected ⟨ht, hP⟩ haccepts hredirect
    rw [hverify] at haccepts hredirect
    exact ⟨ht.reloadNew haccepts rfl hredirect, renewed ht hP haccepts hredirect⟩

end Registry

end LiveTypes
