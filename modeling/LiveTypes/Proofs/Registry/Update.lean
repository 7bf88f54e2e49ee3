import LiveTypes.Proofs.Redirection.Version
import LiveTypes.Proofs.Registry.Request
import LiveTypes.Proofs.Registry.Sites

/-!
# Updates

An operation makes its changes one after the other: it binds each site, adds to the history, appends
the version and publishes its table. An update is such a sequence, and what it changed before it fails
stays changed. In a reachable registry no operation fails once it has changed anything, and each comes to
what the whole operation comes to (`perform_eq`, `performAll_eq`).
-/

namespace LiveTypes

namespace Registry

/-- The binding of a site, with the shape that its host has now. The host of a site of the type's own is
the version that is being made. -/
def refresh (r : Registry) (declaring : TypeId) (name : String) (b : SiteBinding) :
    Except RejectReason SiteBinding :=
  if b.hostId = declaring then .ok b
  else
    match (r.byId? b.hostId).bind LiveType.currentShape? with
    | none => .error (.malformedUnit s!"{b.host} is not a closure host")
    | some (version, shape) =>
      if version = b.hostVersion then .ok b
      else if shape.captured.length ≠ b.passed ∨ shape.capturesThis ≠ b.shape.capturesThis then
        .error (.malformedUnit
          s!"{name} passes {b.passed} values but {b.host} now captures {shape.captured.length}")
      else .ok { b with hostVersion := version, shape }

end Registry

/-- An action on a registry. What it changed before a failure stays changed. -/
abbrev Update (ε α : Type) := EStateM ε Registry α

namespace Update

variable {ε α β : Type}

/-- Fail or go on as a pure computation says. -/
def lift (x : Except ε α) : Update ε α :=
  match x with
  | .ok a => pure a
  | .error e => throw e

/-- Apply a binding. That a site refuses it is a failure. -/
def bindSite (b : SiteBinding) : Update RejectReason Unit := do
  lift ((← get).sites.check b)
  modify fun r => { r with sites := r.sites.bind b }

/-- Bind the sites that are bound to a type to the shape of its new version, if it hosts a closure. -/
def rebindHost (t : LiveType) (u : TypeUnit) : Update RejectReason Unit := do
  if u.isClosureHost then
    let sites := (← get).sites.boundTo t.name
    (sites.map (SiteTable.hostBinding t.name t.id t.versions.length u.hostShape)).forM bindSite

def modifyType (id : TypeId) (f : LiveType → LiveType) : Update RejectReason Unit :=
  modify fun r => { r with types := r.types.modify id f }

/-- Add the members of a version to the history of a type. -/
def record (id : TypeId) (u : TypeUnit) : Update RejectReason Unit :=
  modifyType id fun t => { t with history := t.history.record u }

def addVersion (id : TypeId) (v : Version) : Update RejectReason Unit :=
  modifyType id fun t => { t with later := t.later ++ [v] }

def publish (id : TypeId) (table : ExecutorTable) : Update RejectReason Unit :=
  modifyType id fun t => { t with table }

/-- Give a type a new version, change by change. -/
def reload (t : LiveType) (label : String) (bytes : List UInt8) : Update RejectReason Unit := do
  let r ← get
  let u ← lift (t.candidate r.config.verify label bytes)
  if t.isCurrent bytes then
    addVersion t.id (t.nextVersion label bytes u t.current.executorBytes)
    publish t.id (t.table.republish t.versions.length label)
  else
    let cx : RedirectContext := ⟨t.id, t.versions.length, t.layout, t.loadedMethods, r⟩
    let redirected ← lift (u.redirect cx r.config.verify)
    let bindings ← lift (redirected.bindings.mapM (r.refresh t.id t.name))
    lift (r.checkSites t u bindings)
    bindings.forM bindSite
    rebindHost t u
    record t.id u
    addVersion t.id (t.nextVersion label bytes u redirected.executor.encode)
    publish t.id (.ofUnit redirected.executor t.id t.name t.versions.length label)

/-- Register a type, change by change. -/
def register (name : String) (bytes : List UInt8) : Update RejectReason Unit := do
  let r ← get
  let admitted := TypeUnit.admit bytes r.config.verify
  let u ← lift admitted
  if u.name ≠ name then throw (.nameMismatch name u.name)
  let (t, bindings) ← lift (LiveType.create r r.size u bytes)
  let bindings ← lift (bindings.mapM (r.refresh r.size name))
  lift (bindings.forM r.sites.check)
  modify fun r => { r with types := r.types ++ [t] }
  bindings.forM bindSite

/-- What an operation does, change by change. -/
def perform : Registry.Operation → Update RegistryError Unit
  | .register name bytes => do
    let r ← get
    if !r.includes name then throw (.notIncluded name)
    else if (r.find? name).isSome then throw (.duplicate name)
    else (register name bytes).adaptExcept (RegistryError.ofReason name)
  | .reload name label bytes => do
    match (← get).find? name with
    | none => throw (.unknownType name)
    | some t => (reload t label bytes).adaptExcept fun reason => .reload ⟨t.name, label, reason⟩

/-- What a batch does, unit by unit and change by change. -/
def performAll (p : NamePattern) (label : String) (units : List (String × List UInt8)) :
    Update RegistryError Unit :=
  units.forM fun (name, bytes) => do
    lift (Registry.requireIn p name)
    perform ((← get).batchOperation label name bytes)

/-- What comes of an update that is accepted or refused as a whole. -/
def whole (r : Registry) : Except ε Registry → EStateM.Result ε Registry Unit
  | .ok r' => .ok () r'
  | .error e => .error e r

/-! ### Single changes -/

variable {r r' : Registry} {t : LiveType} {u : TypeUnit} {bindings : List SiteBinding}

lemma bind_of_ok {x : Update ε α} {f : α → Update ε β} {a : α} (h : x r = .ok a r') :
    (x >>= f) r = f a r' := by
  show EStateM.bind x f r = _
  unfold EStateM.bind
  rw [h]

lemma bind_of_error {x : Update ε α} {f : α → Update ε β} {e : ε} (h : x r = .error e r') :
    (x >>= f) r = .error e r' := by
  show EStateM.bind x f r = _
  unfold EStateM.bind
  rw [h]

lemma lift_bind_of_ok {x : Except ε α} {f : α → Update ε β} {a : α} (h : x = .ok a) :
    (lift x >>= f) r = f a r := by
  rw [h]
  rfl

lemma modifyType_of (f : LiveType → LiveType) (ht : r.byId? t.id = some t) (hid : (f t).id = t.id) :
    modifyType t.id f r = .ok () (r.replace (f t)) := by
  have htypes : r.types.modify t.id f = r.types.set t.id (f t) := by
    rw [List.modify_eq_set_getElem?, show r.types[t.id]? = some t from ht]
    rfl
  show EStateM.Result.ok () { r with types := r.types.modify t.id f } = _
  rw [htypes, Registry.replace, hid]

lemma bindSite_of_ok {b : SiteBinding} (h : r.sites.check b = .ok ()) :
    bindSite b r = .ok () { r with sites := r.sites.bind b } := by
  have hget : (get : Update RejectReason Registry) r = .ok r r := rfl
  rw [bindSite, bind_of_ok hget, lift_bind_of_ok h]
  rfl

/-- Bindings that were checked all are applied, as long as those of one site agree. -/
lemma forM_bindSite (agree : ∀ b ∈ bindings, r.sites.check b = .ok ())
    (same : ∀ b ∈ bindings, ∀ b' ∈ bindings, b.id = b'.id →
      b.shape.capturesThis = b'.shape.capturesThis) :
    bindings.forM bindSite r = .ok () { r with sites := Registry.bindAll r.sites bindings } := by
  induction bindings generalizing r with
  | nil => rfl
  | cons b rest ih =>
    have hfirst := bindSite_of_ok (agree b List.mem_cons_self)
    refine (bind_of_ok hfirst).trans (ih ?_ ?_)
    · exact Registry.check_bind agree same
    · intro b₁ h₁ b₂ h₂
      exact same b₁ (List.mem_cons_of_mem _ h₁) b₂ (List.mem_cons_of_mem _ h₂)

/-- The sites that a new version hosts take its shape. -/
lemma rebindHost_of_checked {cx : RedirectContext} (hname : u.name = t.name)
    (hasked : ∀ b ∈ bindings, b.Asked cx u) (hnodup : (bindings.map SiteBinding.id).Nodup)
    (hchecked : r.checkSites t u bindings = .ok ()) :
    rebindHost t u { r with sites := Registry.bindAll r.sites bindings } =
      .ok () { r with sites := r.bindSites t u bindings } := by
  unfold rebindHost
  split_ifs with hclosure
  · rw [Registry.bindSites_of_host hclosure]
    exact forM_bindSite (r := { r with sites := Registry.bindAll r.sites bindings })
      (Registry.check_hostBindings hname hasked hnodup hchecked hclosure)
      Registry.same_hostBindings
  · rw [Registry.bindSites, if_neg hclosure]
    rfl

/-- No host changes while a version of another type is made. -/
lemma refresh_of_asked {cx : RedirectContext} {b : SiteBinding} (hr : r.WellFormed)
    (hcx : cx.registry = r) (hb : b.Asked cx u) (name : String) :
    r.refresh cx.typeId name b = .ok b := by
  unfold Registry.refresh
  split_ifs with hown
  · rfl
  rcases hb.host with ⟨-, -, hid, -, -⟩ | ⟨-, q, hq, hid, hshape⟩
  · exact absurd hid hown
  · have hbyId : r.byId? b.hostId = some q := hid ▸ hr.byId?_id (Registry.mem_of_find? (hcx ▸ hq))
    rw [hbyId, Option.bind_some, hshape]
    exact if_pos rfl

lemma replace_self (ht : r.byId? t.id = some t) : r.replace t = r := by
  obtain ⟨hlt, hget⟩ := List.getElem?_eq_some_iff.mp ht
  have hset := List.set_getElem_self hlt
  rw [hget] at hset
  rw [Registry.replace, hset]

lemma modifyType_replace {q : LiveType} (f : LiveType → LiveType) (ht : r.byId? t.id = some t)
    (hq : q.id = t.id) (hf : (f q).id = t.id) :
    modifyType t.id f (r.replace q) = .ok () (r.replace (f q)) := by
  have hfound : (r.replace q).byId? q.id = some q := by
    obtain ⟨hlt, -⟩ := List.getElem?_eq_some_iff.mp ht
    exact List.getElem?_set_self (hq ▸ hlt)
  rw [← hq, modifyType_of f hfound (hf.trans hq.symm)]
  simp only [Registry.replace, hq, hf, List.set_set]

/-- Appending a version and publishing its table are the last changes. -/
lemma addVersion_publish {q : LiveType} (ht : r.byId? t.id = some t) (hq : q.id = t.id)
    (v : Version) (table : ExecutorTable) :
    (do addVersion t.id v; publish t.id table : Update RejectReason Unit) (r.replace q) =
      .ok () (r.replace (q.publish v table)) := by
  have hadded : addVersion t.id v (r.replace q) =
      .ok () (r.replace { q with later := q.later ++ [v] }) := modifyType_replace _ ht hq hq
  rw [bind_of_ok hadded]
  exact modifyType_replace _ ht hq hq

/-- A reload that fails has changed nothing, and one that succeeds has made every change. -/
theorem reload_eq (hr : r.WellFormed) (ht : t ∈ r.types) (label : String) (bytes : List UInt8) :
    reload t label bytes r = whole r (r.tryReload t label bytes) := by
  have hget : (get : Update RejectReason Registry) r = .ok r r := rfl
  rw [reload, bind_of_ok hget, Registry.tryReload]
  have hbyId := hr.byId?_id ht
  cases hcandidate : t.candidate r.config.verify label bytes with
  | error e => rfl
  | ok u =>
    rw [lift_bind_of_ok rfl, Outcome.ok_bind]
    split_ifs with hcurrent
    · have hpublished := addVersion_publish (q := t) hbyId rfl
        (t.nextVersion label bytes u t.current.executorBytes)
        (t.table.republish t.versions.length label)
      rwa [replace_self hbyId] at hpublished
    dsimp only
    cases hredirect : u.redirect ⟨t.id, t.versions.length, t.layout, t.loadedMethods, r⟩
        r.config.verify with
    | error e => rfl
    | ok redirected =>
      have haccepts := LiveType.candidate_eq_ok.mp hcandidate
      rw [hr.verifies] at haccepts hredirect
      have hu := TypeUnit.verified_of_admit haccepts.admitted
      obtain ⟨hasked, hnodup⟩ := TypeUnit.bindings_of_redirect hu hredirect
      have hrefresh : redirected.bindings.mapM (r.refresh t.id t.name) = .ok redirected.bindings :=
        Outcome.mapM_eq_self fun b hb => refresh_of_asked hr rfl (hasked b hb) t.name
      rw [lift_bind_of_ok rfl, Outcome.ok_bind, lift_bind_of_ok hrefresh]
      cases hchecked : r.checkSites t u redirected.bindings with
      | error e => rfl
      | ok =>
        have hbound := rebindHost_of_checked (haccepts.name_eq (hr.types t ht)) hasked hnodup hchecked
        have hagree := (Registry.checkSites_eq_ok hchecked).1
        rw [lift_bind_of_ok rfl,
          bind_of_ok (forM_bindSite hagree (Registry.same_of_nodup hnodup)), bind_of_ok hbound]
        have hrecorded : record t.id u { r with sites := r.bindSites t u redirected.bindings } =
            .ok () (Registry.replace { r with sites := r.bindSites t u redirected.bindings }
              { t with history := t.history.record u }) := modifyType_of _ hbyId rfl
        rw [bind_of_ok hrecorded]
        exact addVersion_publish (r := { r with sites := r.bindSites t u redirected.bindings })
          (q := { t with history := t.history.record u }) hbyId rfl _ _

/-- A registration that fails has changed nothing, and one that succeeds has made every change. -/
theorem register_eq (hr : r.WellFormed) (name : String) (bytes : List UInt8) :
    register name bytes r = whole r ((r.tryRegister name bytes).map Prod.snd) := by
  have hget : (get : Update RejectReason Registry) r = .ok r r := rfl
  rw [register, bind_of_ok hget, Registry.tryRegister]
  dsimp only
  cases hread : TypeUnit.admit bytes r.config.verify with
  | error e => rfl
  | ok u =>
    rw [lift_bind_of_ok rfl, Outcome.ok_bind]
    split_ifs with hname
    · rfl
    cases hcreate : LiveType.create r r.size u bytes with
    | error e => rfl
    | ok created =>
      obtain ⟨t, bindings⟩ := created
      obtain ⟨redirected, hcreated, rfl⟩ := LiveType.created_of_create hcreate
      have hredirect := hcreated.redirect_eq
      rw [hr.verifies] at hread hredirect
      have hu := TypeUnit.verified_of_admit hread
      obtain ⟨hasked, hnodup⟩ := TypeUnit.bindings_of_redirect hu hredirect
      have hrefresh : redirected.bindings.mapM (r.refresh r.size name) = .ok redirected.bindings :=
        Outcome.mapM_eq_self fun b hb => refresh_of_asked hr rfl (hasked b hb) name
      rw [lift_bind_of_ok rfl, Outcome.ok_bind, lift_bind_of_ok hrefresh]
      cases hchecked : redirected.bindings.forM r.sites.check with
      | error e => rfl
      | ok =>
        rw [lift_bind_of_ok rfl]
        exact forM_bindSite (r := { r with types := r.types ++ [t] })
          (Outcome.forM_eq_ok.mp hchecked) (Registry.same_of_nodup hnodup)

/-- An operation that fails has changed nothing, and one that succeeds has made every change. -/
theorem perform_eq (hr : r.WellFormed) (op : Registry.Operation) :
    perform op r = whole r (r.apply op) := by
  have hget : (get : Update RegistryError Registry) r = .ok r r := rfl
  cases op with
  | register name bytes =>
    rw [perform, bind_of_ok hget, Registry.apply, Registry.register]
    split_ifs with hincluded hfound
    · rfl
    · rfl
    · rw [EStateM.adaptExcept, register_eq hr]
      cases r.tryRegister name bytes <;> rfl
  | reload name label bytes =>
    rw [perform, bind_of_ok hget, Registry.apply, Registry.reload]
    cases hfind : r.find? name with
    | none => rfl
    | some t =>
      show EStateM.adaptExcept _ (reload t label bytes) r = _
      rw [EStateM.adaptExcept, reload_eq hr (Registry.mem_of_find? hfind)]
      dsimp only
      rw [Registry.reloadType]
      cases r.tryReload t label bytes <;> rfl

/-- A batch that fails has made every change of the units before, and nothing else. -/
theorem performAll_eq (hr : r.WellFormed) (p : NamePattern) (label : String)
    (units : List (String × List UInt8)) : performAll p label units r =
      match r.reloadAll p label units with
      | (.ok _, r') => .ok () r'
      | (.error e, r') => .error e r' := by
  induction units generalizing r with
  | nil => rfl
  | cons unit rest ih =>
    obtain ⟨name, bytes⟩ := unit
    have hunit : (do
        lift (Registry.requireIn p name)
        perform ((← get).batchOperation label name bytes) : Update RegistryError Unit) r =
          whole r (r.applyIn p label name bytes) := by
      have hget : (get : Update RegistryError Registry) r = .ok r r := rfl
      rw [Registry.applyIn_eq, Registry.requireIn]
      split_ifs with hselects
      · rw [lift_bind_of_ok rfl, bind_of_ok hget, perform_eq hr]
      · rfl
    rw [Registry.reloadAll]
    cases happlied : r.applyIn p label name bytes with
    | error e =>
      rw [happlied] at hunit
      exact bind_of_error hunit
    | ok r' =>
      rw [happlied] at hunit
      have hstep := Registry.step_of_apply (Registry.applyIn_eq_ok.mp happlied).2
      exact (bind_of_ok hunit).trans (ih (hr.change hstep.change))

end Update

end LiveTypes
