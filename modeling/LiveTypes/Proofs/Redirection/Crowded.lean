import LiveTypes.Proofs.Redirection.Verify
import LiveTypes.Registry.Register

/-!
# Units with a full pool

A unit may have as many strings as there are indices, less one. The key of its first closure gets the
last index, and the indices of the others start over from 0: their instructions name constants of the
unit itself (`Crowded.redirect_eq`).
-/

namespace LiveTypes

/-- A static method that only creates a closure, of a host without captured variables. -/
def creator (name : String) (op : Opcode) (index : UInt32) (flags : UInt8) : MethodDecl where
  signature := ⟨name, ⟨[], .void⟩⟩
  flags := staticMethod
  throws := []
  locals := 0
  code := Instruction.encodeAll [⟨0, op, .closure index 0 flags⟩, ⟨7, .retVoid, .none⟩]

lemma decodeAll_creator {name : String} {op : Opcode} {index : UInt32} {flags : UInt8}
    (hop : op = .makeClosure ∨ op = .makeCaptured) :
    Instruction.decodeAll (creator name op index flags).code =
      .ok [⟨0, op, .closure index 0 flags⟩, ⟨7, .retVoid, .none⟩] := by
  refine @Instruction.decodeAll_encodeAll _ 8 ?_
  rcases hop with rfl | rfl <;> exact ⟨rfl, rfl, rfl, rfl, rfl⟩

/-- The site of the closure takes the place of its host. -/
lemma Redirection.method_creator {cx : RedirectContext} {u : TypeUnit} {s : RedirectState}
    (name hostName : String) {index index' : UInt32} {flags : UInt8} {id version : Nat}
    {constants : ConstantPool} (hname : s.constants.string? index = some hostName)
    (hhost : host cx u (creator name .makeClosure index flags) hostName =
      .ok (id, version, ⟨[], capturesThis flags⟩))
    (hindex : s.constants.intern (name ++ "()V#0") = (index', constants)) :
    method cx u (creator name .makeClosure index flags) s =
      .ok (creator name .makeCaptured index' flags,
        s.addSite constants ⟨⟨cx.typeId, name ++ "()V", 0⟩, hostName, id, version,
          ⟨[], capturesThis flags⟩⟩) := by
  have hmethod : (creator name .makeClosure index flags).key = name ++ "()V" := rfl
  have hsite : SiteId.key ⟨cx.typeId, name ++ "()V", 0⟩ = name ++ "()V#0" := by
    rw [SiteId.key, String.append_assoc, String.append_assoc]
    exact congrArg (name ++ ·) (by decide : "()V" ++ ("#" ++ toString 0) = "()V#0")
  refine method_eq_ok.mpr ⟨_, [⟨0, .makeCaptured, .closure index' 0 flags⟩, ⟨7, .retVoid, .none⟩],
    decodeAll_creator (.inl rfl), instructions_cons_eq_ok.mpr ⟨_, _, _, ?_, rfl, rfl⟩, rfl⟩
  show closureCreation cx u _ 0 _ index 0 flags s = _
  simp only [closureCreation, Outcome.bind_eq_ok, Outcome.guard_eq_ok]
  refine ⟨hostName, ?_, _, hhost, by simp, by simp, ?_⟩
  · rw [stringAt, hname]
  · rw [hmethod, hsite, hindex]
    rfl

/-- A closure host with an enclosing instance. -/
def encloser : TypeUnit where
  formatFlags := 0
  name := "a.G"
  superName := none
  access := Access.isPublic ||| Access.closureHost
  constants := .empty
  fields := [⟨"outer", .object "a.G", enclosingField⟩]
  methods := []
  attributes := []

/-- A closure host whose code creates four closures, with more constants behind those that it uses. -/
def crowded (rest : List String) : TypeUnit where
  formatFlags := 0
  name := "a.H"
  superName := none
  access := Access.isPublic ||| Access.closureHost
  constants := ⟨("k()V#0" :: "a.G" :: "a.H" :: rest).toArray, [], []⟩
  fields := []
  methods := [creator "k" .makeClosure 1 1, creator "n" .makeClosure 2 0,
    creator "m" .makeClosure 2 0, creator "z" .makeClosure 2 0]
  attributes := []

namespace Crowded

/-- The state of redirecting with the given keys and bindings. -/
def state (rest keys : List String) (bindings : List SiteBinding) : RedirectState :=
  ⟨⟨("k()V#0" :: "a.G" :: "a.H" :: rest ++ keys).toArray, [], []⟩, bindings.toArray,
    ⟨0, 0, 0, bindings.length⟩⟩

def foreign (cx : RedirectContext) (g : LiveType) (version : Nat) : SiteBinding :=
  ⟨⟨cx.typeId, "k()V", 0⟩, "a.G", g.id, version, ⟨[], true⟩⟩

def own (cx : RedirectContext) (name : String) : SiteBinding :=
  ⟨⟨cx.typeId, name ++ "()V", 0⟩, "a.H", cx.typeId, cx.version, ⟨[], false⟩⟩

/-- The methods as they are redirected when the unit has all strings that there are indices for but
one. -/
def redirectedMethods : List MethodDecl :=
  [creator "k" .makeCaptured 0 1, creator "n" .makeCaptured 0xFFFFFFFF 0,
    creator "m" .makeCaptured 0 0, creator "z" .makeCaptured 1 0]

def redirected (cx : RedirectContext) (rest : List String) (g : LiveType) (version : Nat) :
    RedirectedVersion where
  executor := (crowded rest).executor cx.version
    (state rest ["n()V#0", "m()V#0", "z()V#0"] []).constants redirectedMethods
  bindings := [foreign cx g version, own cx "n", own cx "m", own cx "z"]
  stats := ⟨0, 0, 0, 4⟩

variable {cx : RedirectContext} {rest : List String} {g : LiveType} {version : Nat}

/-- The first constants are those that the unit uses. -/
lemma string?_redirected (cx : RedirectContext) (rest : List String) (g : LiveType) (version : Nat) :
    (redirected cx rest g version).executor.constants.string? 0 = some "k()V#0" ∧
      (redirected cx rest g version).executor.constants.string? 1 = some "a.G" :=
  ⟨rfl, rfl⟩

/-- The second constant is the key of no site. -/
lemma ofKey?_name (id : TypeId) : SiteId.ofKey? id "a.G" = none := by
  have hnone : Text.splitLast '#' "a.G".toList = none := by
    decide
  rw [SiteId.ofKey?, hnone]

/-- What a unit is checked for does not depend on the constants behind those that it uses. -/
lemma verify_eq_ok (rest : List String) : (crowded rest).verify .source = .ok () := by
  have hempty : (crowded []).verify .source = .ok () := by
    decide +kernel
  obtain ⟨hfields, hkeys, hbodies⟩ := TypeUnit.verify_eq_ok.mp hempty
  refine TypeUnit.verify_eq_ok.mpr ⟨hfields, hkeys, fun m hm => ?_⟩
  obtain ⟨body, hbody, hallowed⟩ := hbodies m hm
  exact ⟨body, hbody.mono ⟨rest, rfl⟩, hallowed⟩

/-- The closure of the other host has a key that the unit has among its constants. -/
lemma method_foreign (hg : cx.registry.find? "a.G" = some g)
    (hshape : g.currentShape? = some (version, ⟨[], true⟩)) :
    Redirection.method cx (crowded rest) (creator "k" .makeClosure 1 1) (state rest [] []) =
      .ok (creator "k" .makeCaptured 0 1, state rest [] [foreign cx g version]) := by
  have hhost (m : MethodDecl) : Redirection.host cx (crowded rest) m "a.G" =
      .ok (g.id, version, ⟨[], true⟩) := by
    have howner : Redirection.owner cx (crowded rest) "a.G" = .ok (.registered g) := by
      rw [Redirection.owner, if_neg (by simp [crowded]), hg]
    simp only [Redirection.host, howner, Outcome.ok_bind, hshape]
    rfl
  have hintern : (state rest [] []).constants.intern "k()V#0" =
      (0, (state rest [] []).constants) := by
    simp [ConstantPool.intern, state, List.idxOf?_cons]
  rw [Redirection.method_creator "k" "a.G" rfl (hhost _) hintern]
  rfl

section

variable (hsize : rest.length + 4 = UInt32.size) (hblank : ∀ s ∈ rest, s = "")
include hsize hblank

lemma intern_state {key : String} {keys : List String} {bindings : List SiteBinding}
    (hkey : key ∉ "k()V#0" :: "a.G" :: "a.H" :: "" :: keys) :
    (state rest keys bindings).constants.intern key =
      (UInt32.ofNat (UInt32.size - 1 + keys.length), (state rest (keys ++ [key]) []).constants) := by
  have hnew : key ∉ "k()V#0" :: "a.G" :: "a.H" :: rest ++ keys := by
    have hrest : key ∉ rest := fun h => hkey (by simp [hblank key h])
    simp only [List.mem_cons, List.mem_append, not_or] at hkey ⊢
    exact ⟨⟨hkey.1, hkey.2.1, hkey.2.2.1, hrest⟩, hkey.2.2.2.2⟩
  have hlength : ("k()V#0" :: "a.G" :: "a.H" :: rest ++ keys).length =
      UInt32.size - 1 + keys.length := by
    simp only [List.length_append, List.length_cons]
    omega
  rw [ConstantPool.intern_of_not_mem (by exact hnew), ConstantPool.addString]
  show (UInt32.ofNat ("k()V#0" :: "a.G" :: "a.H" :: rest ++ keys).toArray.size, _) = _
  rw [List.size_toArray, hlength]
  simp [state]

lemma method_own (cx : RedirectContext) (name : String) (keys : List String)
    (bindings : List SiteBinding)
    (hkey : name ++ "()V#0" ∉ "k()V#0" :: "a.G" :: "a.H" :: "" :: keys) :
    Redirection.method cx (crowded rest) (creator name .makeClosure 2 0) (state rest keys bindings) =
      .ok (creator name .makeCaptured (UInt32.ofNat (UInt32.size - 1 + keys.length)) 0,
        state rest (keys ++ [name ++ "()V#0"]) (bindings ++ [own cx name])) := by
  have hhost (m : MethodDecl) : Redirection.host cx (crowded rest) m "a.H" =
      .ok (cx.typeId, cx.version, ⟨[], false⟩) := by
    have howner : Redirection.owner cx (crowded rest) "a.H" = .ok .own := if_pos rfl
    have hclosure : (crowded rest).isClosureHost = true :=
      show hasFlag (Access.isPublic ||| Access.closureHost) Access.closureHost = true by decide
    simp only [Redirection.host, howner, Outcome.ok_bind, hclosure]
    rfl
  rw [Redirection.method_creator name "a.H" rfl (hhost _) (intern_state hsize hblank hkey)]
  simp [state, RedirectState.addSite]
  rfl

/-- The third closure gets the index of the constant that is the key of the first, and the fourth that
of a name. -/
theorem redirect_eq (hg : cx.registry.find? "a.G" = some g)
    (hshape : g.currentShape? = some (version, ⟨[], true⟩)) (verify : Bool) :
    (crowded rest).redirect cx verify = .ok (redirected cx rest g version) := by
  have hstart : RedirectState.start (crowded rest).constants = state rest [] [] := by
    simp [RedirectState.start, crowded, state]
  have hmethods : Redirection.methods cx (crowded rest) (.start (crowded rest).constants)
      (crowded rest).methods = .ok (redirectedMethods, state rest ["n()V#0", "m()V#0", "z()V#0"]
        [foreign cx g version, own cx "n", own cx "m", own cx "z"]) := by
    rw [hstart]
    refine Redirection.methods_cons_eq_ok.mpr ⟨_, _, _, method_foreign hg hshape,
      Redirection.methods_cons_eq_ok.mpr ⟨_, _, _, method_own hsize hblank cx "n" [] _ (by simp),
      Redirection.methods_cons_eq_ok.mpr ⟨_, _, _, method_own hsize hblank cx "m" _ _ (by simp),
      Redirection.methods_cons_eq_ok.mpr ⟨_, _, _, method_own hsize hblank cx "z" _ _ (by simp),
        rfl, rfl⟩, rfl⟩, rfl⟩, rfl⟩
  have hverified := TypeUnit.verified_of_verify (verify_eq_ok rest)
  exact hverified.redirect_of_methods hmethods verify

end

/-- There are so many constants when all others are blank. -/
lemma replicate_blank : (List.replicate (UInt32.size - 4) "").length + 4 = UInt32.size ∧
    ∀ s ∈ List.replicate (UInt32.size - 4) "", s = "" := by
  refine ⟨?_, fun s => List.eq_of_mem_replicate⟩
  rw [List.length_replicate]
  rfl

/-- The other host as it is registered first. -/
structure Host (g : LiveType) (q : Registry) : Prop where
  registered : (Registry.create .default).register "a.G" encloser.encode = .ok (g, q)
  found : q.find? "a.G" = some g
  shape : g.currentShape? = some (0, ⟨[], true⟩)
  allows : Access.allows (executorName "a.H" 0) g.name g.loadedUnit.access = true
  types_eq : q.types = [g]
  sites_eq : q.sites = .empty
  config_eq : q.config = .default

lemma exists_host : ∃ g q, Host g q := by
  have hfacts : ((Registry.create .default).register "a.G" encloser.encode).toOption.any (fun o =>
      o.2.find? "a.G" = some o.1 ∧ o.1.currentShape? = some (0, ⟨[], true⟩) ∧
        Access.allows (executorName "a.H" 0) o.1.name o.1.loadedUnit.access = true ∧
        o.2.types = [o.1] ∧ o.2.sites = .empty ∧ o.2.config = .default) = true := by
    decide +kernel
  obtain ⟨⟨g, q⟩, hregistered, hfacts⟩ := (Option.any_eq_true _ _).mp hfacts
  obtain ⟨hfound, hshape, hallows, htypes, hsites, hconfig⟩ := of_decide_eq_true hfacts
  exact ⟨g, q, Outcome.toOption_eq_some.mp hregistered, hfound, hshape, hallows, htypes, hsites,
    hconfig⟩

end Crowded

end LiveTypes
