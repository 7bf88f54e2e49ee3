import LiveTypes.Proofs.Machine.OwnField
import LiveTypes.Proofs.World.Link
import LiveTypes.Proofs.World.Typed

/-!
# Accesses to own fields in a world

Wherever a call runs a body that a type publishes, the accesses of the body to fields of the type are
safe in two ways. What such a read pushes conforms to the type that the version of the body declares, as
long as it is not read of a closure whose site does not serve the code (`TypedReachable.reads_conform`).
And an access whose field is where the code looks for it is only stopped by a full stack
(`Reachable.own_access_executes`).
-/

namespace LiveTypes.World

variable {w : World} {config : RegistryConfig} {limit : Nat} {call : Invocation}
  {p : Machine.Point} {t : LiveType} {v : Version} {f : FieldDecl} {write : Bool}
  {receiver : Value} {below : Array Value}

/-- Whether a call comes to a point of a body that a type publishes, where the version of the body
accesses a field of the type. -/
structure AccessesOwn (w : World) (limit : Nat) (call : Invocation) (p : Machine.Point)
    (t : LiveType) (v : Version) (write : Bool) (f : FieldDecl) : Prop where
  belongs : call.Belongs w.heap
  visits : call.Visits ⟨w.registry, limit⟩ w.heap p
  registered : t ∈ w.registry.types
  published : t.table.find? p.body.key = some p.body
  mem : v ∈ t.versions
  version_eq : v.index = p.body.version
  accesses : v.unit.Accesses write p.body.key p.offset f

/-- The point of such an access is sound, and there the body reaches the field. -/
lemma AccessesOwn.sound (h : w.AccessesOwn limit call p t v write f) (hw : w.Sound) :
    p.Sound ⟨w.registry, limit⟩ :=
  call.sound_of_visits hw.code hw.heap h.belongs h.visits

lemma AccessesOwn.exists_instruction (h : w.AccessesOwn limit call p t v write f)
    (hreachable : Reachable config w) (hverify : config.verify = true) :
    ∃ i, t.ReachesOwn v.unit p.body write p.offset f i :=
  hreachable.registry.reaches_own hverify h.registered h.published h.mem h.version_eq h.accesses

/-- Whether a call comes, in a number of steps, to a point of a body that the type of the given name
publishes for its current version, and the point is as asked for. -/
def arrives (w : World) (call : Invocation) (steps : Nat) (u : TypeUnit)
    (test : LiveType → Machine.Point → Bool) : Bool :=
  ((call.start? ⟨w.registry, 256⟩ w.heap).bind (Machine.Point.after? ⟨w.registry, 256⟩ steps)).any
    fun p => (w.registry.find? u.name).any fun t =>
      t.current.unit = u ∧ t.table.find? p.body.key = some p.body ∧
        t.current.index = p.body.version ∧ test t p

lemma exists_of_arrives (h : Reachable config w) (hverify : config.verify = true)
    (hcall : call.Belongs w.heap) {steps : Nat} {u : TypeUnit}
    {test : LiveType → Machine.Point → Bool} (harrives : w.arrives call steps u test = true)
    (haccess : ∀ t p, test t p = true → u.Accesses write p.body.key p.offset f) :
    ∃ t p, w.AccessesOwn 256 call p t t.current write f ∧ t.current.unit = u ∧ t.name = u.name ∧
      test t p = true := by
  obtain ⟨p, hp, hfacts⟩ := (Option.any_eq_true _ _).mp harrives
  obtain ⟨p₀, hstart, hafter⟩ := Option.bind_eq_some_iff.mp hp
  obtain ⟨t, ht, hfacts⟩ := (Option.any_eq_true _ _).mp hfacts
  obtain ⟨rfl, hpublished, hversion, htest⟩ := of_decide_eq_true hfacts
  have hmem := Registry.mem_of_find? ht
  refine ⟨t, p, ⟨hcall, ?_, hmem, hpublished, ?_, hversion, haccess t p htest⟩, rfl,
    Registry.find?_name ht, htest⟩
  · exact Invocation.visits_of_start? hstart (Machine.Point.visits_of_after? hafter)
  · exact ((h.registry.wellFormed hverify).types t hmem).current_mem

/-- Code that reads a field of the value of a local variable, where the two first texts of a unit are
its name and the one of the field. -/
def readingLocal (slot : UInt16) : List Instruction :=
  [⟨0, .loadLocal, .localSlot slot⟩, ⟨3, .getField, .pair 0 1⟩, ⟨12, .ret, .none⟩]

lemma tiles_readingLocal (slot : UInt16) : Instruction.Tiles 0 (readingLocal slot) 13 :=
  ⟨rfl, rfl, rfl, rfl, rfl, rfl, rfl⟩

lemma accesses_readingLocal {u : TypeUnit} {m : MethodDecl} {slot : UInt16} {key : String}
    (hm : m ∈ u.methods) (hkey : m.key = key)
    (hcode : m.code = Instruction.encodeAll (readingLocal slot)) (hf : u.field? f.name = some f)
    (howner : u.constants.string? 0 = some u.name) (hname : u.constants.string? 1 = some f.name) :
    u.Accesses false key 3 f := by
  have hinstructions : m.instructions = readingLocal slot :=
    MethodDecl.instructions_eq (hcode ▸ Instruction.decodeAll_encodeAll (tiles_readingLocal slot))
  refine ⟨hf, m, hm, hkey, 0, 1, ?_, howner, hname⟩
  rw [hinstructions]
  exact List.mem_cons_of_mem _ List.mem_cons_self

/-! ### What is read -/

/-- What a read of an own field pushes conforms to the type that the version of the body declares for
the field. The one exception is a captured variable that is read of a closure whose site neither has a
map for just that version, nor is hosted by the type in a version with bodies of its own. -/
theorem TypedReachable.reads_conform (h : TypedReachable config w) (hverify : config.verify = true)
    (hread : w.AccessesOwn limit call p t v false f) {i : Instruction} {flow : Flow}
    {s : MachineState} (hfetch : Machine.fetch p.body p.offset = .ok i)
    (hop : i.opcode ≠ .getEnclosing)
    (hstep : Machine.step ⟨w.registry, limit⟩ p.body i p.state = .ok flow s) :
    ∃ value, s.stack.slots.back? = some value ∧ (value.conforms f.type = true ∨
      i.opcode = .getCaptured ∧ ∃ o c site, p.state.stack.slots.back? = some (.closure o) ∧
        p.state.heap.closure? o = some c ∧ w.registry.sites.find? c.site = some site ∧
        ¬ w.registry.Serves site t p.body.version) := by
  have hreachable : Reachable config w := TypedReachable.reachable h
  have hw := hreachable.sound hverify
  have hsurvives := Heap.Typed.survives hreachable.registry hverify limit
  -- every step of the host leaves the heap typed, and so does the code that runs up to the point
  have htyped : w.heap.Typed w.registry :=
    TypedReachable.invariant h hverify (P := fun w => w.heap.Typed w.registry) (Heap.typed_empty _)
      fun hreachable hw htyped hstep => hstep.typed hreachable hverify hw htyped
  have hthere : p.state.heap.Typed w.registry :=
    call.survives_of_visits hw.code hw.heap hread.belongs hsurvives htyped hread.visits
  obtain ⟨j, hown⟩ := hread.exists_instruction hreachable hverify
  obtain rfl := Except.ok.inj (hown.fetched.symm.trans hfetch)
  exact Machine.conforms_of_read hreachable.registry hverify (hread.sound hw).state hthere
    hread.registered hread.mem hread.version_eq hown hop hstep

/-- A host of closures over one variable, which it reads of a closure of its own, and of one that it is
passed as a closure of another host. -/
def capturer (name : String) (type : TypeDescriptor) : TypeUnit where
  formatFlags := 0
  name := name
  superName := none
  access := Access.isPublic ||| Access.closureHost
  constants := ⟨#[name, "x"], [], []⟩
  fields := [⟨"x", type, capturedField⟩]
  methods := [
    ⟨⟨"get", ⟨[], type⟩⟩, 0, [], 1, Instruction.encodeAll (readingLocal 0)⟩,
    ⟨⟨"peek", ⟨[.object "a.B"], type⟩⟩, 0, [], 2, Instruction.encodeAll (readingLocal 1)⟩]
  attributes := []

/-- A type that makes a closure of one host over an integer, and one of another over a text. -/
def captureMaker : TypeUnit where
  formatFlags := 0
  name := "a.M"
  superName := none
  access := Access.isPublic
  constants := ⟨#["a.A", "a.B", "s"], [], []⟩
  fields := []
  methods := [⟨⟨"make", ⟨[], .void⟩⟩, staticMethod, [], 0, Instruction.encodeAll
    [⟨0, .constI32, .i32 7⟩, ⟨5, .makeClosure, .closure 0 1 0⟩, ⟨12, .pop, .none⟩,
      ⟨13, .constStr, .index 2⟩, ⟨18, .makeClosure, .closure 1 1 0⟩, ⟨25, .pop, .none⟩,
      ⟨26, .retVoid, .none⟩]⟩]
  attributes := []

/-- The two hosts and the type that makes their closures are registered. -/
def capturers : List Registry.Operation :=
  [.register "a.A" (capturer "a.A" .i32).encode, .register "a.B" (capturer "a.B" .str).encode,
    .register "a.M" captureMaker.encode]

/-- Whether the instruction at a point reads a value of a closure. -/
def readsOf (w : World) (value : Value) (p : Machine.Point) : Bool :=
  match p.performed? ⟨w.registry, 256⟩ with
  | some (i, _, s) => i.opcode = .getCaptured ∧ s.stack.slots.back? = some value
  | none => false

lemma exists_of_readsOf {value : Value} (h : w.readsOf value p = true) :
    ∃ i flow s, Machine.fetch p.body p.offset = .ok i ∧ i.opcode = .getCaptured ∧
      Machine.step ⟨w.registry, 256⟩ p.body i p.state = .ok flow s ∧
      s.stack.slots.back? = some value := by
  unfold readsOf at h
  split at h
  · next i flow s hperformed =>
    obtain ⟨hi, hstep⟩ := Machine.Point.performed?_eq_some.mp hperformed
    obtain ⟨hop, hback⟩ := of_decide_eq_true h
    exact ⟨i, flow, s, hi, hop, hstep, hback⟩
  · cases h

lemma accesses_capturer {key : String} (h : key = "get()I" ∨ key = "peek(La.B;)I") :
    (capturer "a.A" .i32).Accesses false key 3 ⟨"x", .i32, capturedField⟩ := by
  rcases h with rfl | rfl
  · exact accesses_readingLocal List.mem_cons_self (by decide) rfl rfl rfl rfl
  · exact accesses_readingLocal (List.mem_cons_of_mem _ List.mem_cons_self) (by decide) rfl rfl rfl rfl

/-- The closure of the first host. -/
def sevenHolder : Closure := ⟨⟨2, "make()V", 0⟩, none, [.i32 7]⟩

/-- Whether the closure that a read at a point is about is one whose site serves the code there. -/
def readsServed (w : World) (t : LiveType) (p : Machine.Point) : Bool :=
  p.state.stack.slots.back? = some (.closure 0) ∧ p.state.heap.closure? 0 = some sevenHolder ∧
    (w.registry.sites.find? sevenHolder.site).any fun site =>
      (site.mappingAt? t.id p.body.version).any fun m => m.hostVersion = p.body.version

/-- The first host reads its variable of its own closure. -/
def ownRead : Invocation := .closure 0 sevenHolder "get()I" []

/-- The first host reads its variable of the closure of the other host. -/
def foreignRead : Invocation := .closure 0 sevenHolder "peek(La.B;)I" [.closure 1]

set_option maxRecDepth 100000 in
/-- A world with a closure of each host, where both reads give a value. -/
lemma exists_capturers :
    ∃ w, (Registry.create .default).replay capturers = some w.registry ∧
      TypedReachable .default w ∧ ownRead.Belongs w.heap ∧ foreignRead.Belongs w.heap ∧
      w.arrives ownRead 1 (capturer "a.A" .i32) (fun t p =>
        p.body.key = "get()I" ∧ p.offset = 3 ∧ w.readsOf (.i32 7) p ∧ w.readsServed t p) = true ∧
      w.arrives foreignRead 1 (capturer "a.A" .i32) (fun _ p =>
        p.body.key = "peek(La.B;)I" ∧ p.offset = 3 ∧ w.readsOf (.str "s") p) = true := by
  have hfacts : ((Registry.create .default).replay capturers).any (fun r =>
      ((Invocation.static "a.M" "make()V" []).run ⟨r, 256⟩ 20 .empty).any fun o =>
        o.2.closure? 0 = some sevenHolder ∧ (o.2.closure? 1).isSome ∧
          arrives ⟨r, o.2⟩ ownRead 1 (capturer "a.A" .i32) (fun t p =>
            p.body.key = "get()I" ∧ p.offset = 3 ∧ readsOf ⟨r, o.2⟩ (.i32 7) p ∧
              readsServed ⟨r, o.2⟩ t p) ∧
          arrives ⟨r, o.2⟩ foreignRead 1 (capturer "a.A" .i32) (fun _ p =>
            p.body.key = "peek(La.B;)I" ∧ p.offset = 3 ∧ readsOf ⟨r, o.2⟩ (.str "s") p)) = true := by
    decide +kernel
  obtain ⟨r, hr, hfacts⟩ := (Option.any_eq_true _ _).mp hfacts
  obtain ⟨o, ho, hfacts⟩ := (Option.any_eq_true _ _).mp hfacts
  obtain ⟨hclosure, hother, hown, hforeign⟩ := of_decide_eq_true hfacts
  have hregistered : TypedReachable .default ⟨r, .empty⟩ :=
    TypedReachable.leads .refl (Registry.leads_of_replay hr)
  have hbelongs : (Invocation.static "a.M" "make()V" []).Belongs .empty := nofun
  have hholds : ∀ v ∈ [Value.closure 1], o.2.Holds v :=
    List.forall_mem_singleton.mpr (Option.isSome_iff_exists.mp hother)
  exact ⟨_, hr, hregistered.tail (.call hbelongs ho), ⟨hclosure, nofun⟩, ⟨hclosure, hholds⟩, hown,
    hforeign⟩

/-- A variable that is read of a closure of its own host. -/
theorem reads_conform_own :
    ∃ w p t i flow s value,
      (Registry.create .default).replay capturers = some w.registry ∧ TypedReachable .default w ∧
      w.AccessesOwn 256 ownRead p t t.current false ⟨"x", .i32, capturedField⟩ ∧
      Machine.fetch p.body p.offset = .ok i ∧ i.opcode = .getCaptured ∧
      Machine.step ⟨w.registry, 256⟩ p.body i p.state = .ok flow s ∧
      s.stack.slots.back? = some value ∧ value.conforms .i32 = true := by
  obtain ⟨w, hr, hw, hbelongs, -, harrives, -⟩ := exists_capturers
  obtain ⟨t, p, hread, -, -, hfacts⟩ := exists_of_arrives (TypedReachable.reachable hw) rfl
    hbelongs harrives fun t p h => by
      obtain ⟨hkey, hoffset, -⟩ := of_decide_eq_true h
      rw [hkey, hoffset]
      exact accesses_capturer (.inl rfl)
  obtain ⟨-, -, hreads, hserved⟩ := of_decide_eq_true hfacts
  obtain ⟨hback, hheld, hsite⟩ := of_decide_eq_true hserved
  obtain ⟨site, hsite, hmapped⟩ := (Option.any_eq_true _ _).mp hsite
  obtain ⟨m, hm, hversion⟩ := (Option.any_eq_true _ _).mp hmapped
  obtain ⟨i, flow, s, hfetch, hop, hstep, -⟩ := exists_of_readsOf hreads
  obtain ⟨value, hvalue, hconforms⟩ :=
    TypedReachable.reads_conform hw rfl hread hfetch (by simp [hop]) hstep
  refine ⟨w, p, t, i, flow, s, value, hr, hw, hread, hfetch, hop, hstep, hvalue, ?_⟩
  rcases hconforms with hconforms | ⟨-, o, c, site', hback', hheld', hsite', hserves⟩
  · exact hconforms
  · -- the closure is the one whose site serves the code
    obtain rfl := Value.closure.inj (Option.some.inj (hback.symm.trans hback'))
    obtain rfl := Option.some.inj (hheld.symm.trans hheld')
    obtain rfl := Option.some.inj (hsite.symm.trans hsite')
    exact absurd (.inl ⟨m, hm, of_decide_eq_true hversion⟩) hserves

/-- An integer variable of the one host that is read of a closure of the other, and gives a text. -/
theorem not_reads_conform_foreign :
    ∃ w p t i flow s,
      (Registry.create .default).replay capturers = some w.registry ∧ TypedReachable .default w ∧
      w.AccessesOwn 256 foreignRead p t t.current false ⟨"x", .i32, capturedField⟩ ∧
      Machine.fetch p.body p.offset = .ok i ∧ i.opcode = .getCaptured ∧
      Machine.step ⟨w.registry, 256⟩ p.body i p.state = .ok flow s ∧
      s.stack.slots.back? = some (.str "s") ∧ (Value.str "s").conforms .i32 = false := by
  obtain ⟨w, hr, hw, -, hbelongs, -, harrives⟩ := exists_capturers
  obtain ⟨t, p, hread, -, -, hfacts⟩ := exists_of_arrives (TypedReachable.reachable hw) rfl
    hbelongs harrives fun t p h => by
      obtain ⟨hkey, hoffset, -⟩ := of_decide_eq_true h
      rw [hkey, hoffset]
      exact accesses_capturer (.inr rfl)
  obtain ⟨-, -, hreads⟩ := of_decide_eq_true hfacts
  obtain ⟨i, flow, s, hfetch, hop, hstep, hback⟩ := exists_of_readsOf hreads
  exact ⟨w, p, t, i, flow, s, hr, hw, hread, hfetch, hop, hstep, hback, rfl⟩

/-! ### Running -/

/-- An own access runs just when its field is where the code looks for it in the receiver: then only a
full stack stops it, and otherwise it fails. Where the flags of the field are the ones for the receiver,
a body with the number of the current version finds it there. -/
theorem Reachable.own_access_executes (h : Reachable config w) (hverify : config.verify = true)
    (haccess : w.AccessesOwn limit call p t v write f)
    (hreceives : Machine.Receives w.registry p.state.heap t receiver)
    (hpoised : Machine.Poised f p.state receiver below write) :
    ∃ i, Machine.fetch p.body p.offset = .ok i ∧
      (Machine.FoundIn w.registry p.state.heap p.body v.unit f receiver →
        Machine.Executes ⟨w.registry, limit⟩ p.body i p.state) ∧
      (¬ Machine.FoundIn w.registry p.state.heap p.body v.unit f receiver →
        ∃ cause s, Machine.step ⟨w.registry, limit⟩ p.body i p.state = .error cause s ∧
          cause.IsMisplaced) ∧
      (w.registry.CollisionFree → p.body.version = t.table.version → Machine.SuitedTo f receiver →
        Machine.FoundIn w.registry p.state.heap p.body v.unit f receiver) := by
  have hw := h.sound hverify
  have hp := haccess.sound hw
  obtain ⟨i, hown⟩ := haccess.exists_instruction h hverify
  have hu := ((hw.registry.types t haccess.registered).genuine v haccess.mem).verified
  refine ⟨i, hown.fetched, ?_, ?_, ?_⟩
  · exact Machine.executes_of_foundIn hw.registry hp.state haccess.registered hu hown hreceives hpoised
  · intro hnot
    exact Machine.fails_of_not_foundIn hown hreceives hpoised hnot
  · intro hfree hcurrent hsuited
    exact Machine.foundIn_of_suitedTo h.registry hverify hfree haccess.registered haccess.mem
      haccess.version_eq hcurrent hown.typeId_eq haccess.accesses.field_eq hreceives hsuited

/-- A type of instances with a method that reads its field, which has the given flags. -/
def holding (flags : UInt32) : TypeUnit where
  formatFlags := 0
  name := "a.T"
  superName := none
  access := Access.isPublic
  constants := ⟨#["a.T", "n"], [], []⟩
  fields := [⟨"n", .i32, flags⟩]
  methods := [⟨⟨"get", ⟨[], .i32⟩⟩, 0, [], 1, Instruction.encodeAll (readingLocal 0)⟩]
  attributes := []

lemma accesses_holding (flags : UInt32) :
    (holding flags).Accesses false "get()I" 3 ⟨"n", .i32, flags⟩ :=
  accesses_readingLocal List.mem_cons_self (by decide) rfl rfl rfl rfl

/-- Whether an instance lies on top of the stack. -/
def overInstance (p : Machine.Point) : Bool :=
  p.state.stack.slots = p.state.stack.slots.pop.push (.object 0 "a.T") ∧
    p.state.stack.floor ≤ p.state.stack.slots.pop.size ∧
    (p.state.heap.instance? 0).any fun i => i.typeName = "a.T"

lemma poised_of_overInstance {r : Registry} (h : overInstance p = true) (hname : t.name = "a.T") :
    Machine.Receives r p.state.heap t (.object 0 "a.T") ∧
      Machine.Poised f p.state (.object 0 "a.T") p.state.stack.slots.pop false := by
  obtain ⟨hslots, hfloor, hinstance⟩ := of_decide_eq_true h
  obtain ⟨i, hi, htype⟩ := (Option.any_eq_true _ _).mp hinstance
  have hholds : p.state.heap.Holds (.object 0 t.name) :=
    ⟨i, hi, (of_decide_eq_true htype).trans hname.symm⟩
  exact ⟨hname ▸ .object hholds, .read hslots hfloor⟩

/-- The call of the method on the first instance. -/
def getsField : Invocation := .method 0 "a.T" "get()I" []

def holdings (flags : UInt32) : List Registry.Operation :=
  [.register "a.T" (holding flags).encode]

/-- A world with an instance, and the access of its method to the field. -/
lemma exists_holding (flags : UInt32) {test : World → Machine.Point → Bool}
    (h : ((Registry.create .default).replay (holdings flags)).any (fun r =>
      ((Machine.mk r 256).makeInstance "a.T" .empty).toOption.any fun o =>
        (o.2.instance? 0).any (fun i => i.typeName = "a.T") &&
          arrives ⟨r, o.2⟩ getsField 3 (holding flags) fun _ p =>
            p.body.key = "get()I" ∧ p.offset = 3 ∧ overInstance p ∧ test ⟨r, o.2⟩ p) = true) :
    ∃ w p t, (Registry.create .default).replay (holdings flags) = some w.registry ∧
      Reachable .default w ∧ w.AccessesOwn 256 getsField p t t.current false ⟨"n", .i32, flags⟩ ∧
      t.current.unit = holding flags ∧ t.name = "a.T" ∧ overInstance p = true ∧
      test w p = true := by
  obtain ⟨r, hr, h⟩ := (Option.any_eq_true _ _).mp h
  obtain ⟨⟨value, heap⟩, hmake, h⟩ := (Option.any_eq_true _ _).mp h
  obtain ⟨hinstance, harrives⟩ := Bool.and_eq_true_iff.mp h
  obtain ⟨i, hi, htype⟩ := (Option.any_eq_true _ _).mp hinstance
  have hw : Reachable .default ⟨r, heap⟩ :=
    (reachable_of_leads (Registry.leads_of_replay hr)).tail
      (.make (Outcome.toOption_eq_some.mp hmake))
  have hbelongs : getsField.Belongs heap := ⟨⟨i, hi, of_decide_eq_true htype⟩, nofun⟩
  obtain ⟨t, p, hown, hunit, hname, hfacts⟩ := exists_of_arrives hw rfl hbelongs harrives
    fun t p h => by
      obtain ⟨hkey, hoffset, -⟩ := of_decide_eq_true h
      rw [hkey, hoffset]
      exact accesses_holding flags
  obtain ⟨-, -, hover, htest⟩ := of_decide_eq_true hfacts
  exact ⟨_, p, t, hr, hw, hown, hunit, hname, hover, htest⟩

set_option maxRecDepth 100000 in
/-- A plain field that is read of an instance. -/
theorem own_access_executes_plain :
    ∃ w p t i, (Registry.create .default).replay (holdings 0) = some w.registry ∧
      Reachable .default w ∧ w.AccessesOwn 256 getsField p t t.current false ⟨"n", .i32, 0⟩ ∧
      Machine.Receives w.registry p.state.heap t (.object 0 "a.T") ∧
      Machine.Poised ⟨"n", .i32, 0⟩ p.state (.object 0 "a.T") p.state.stack.slots.pop false ∧
      Machine.fetch p.body p.offset = .ok i ∧
      Machine.Executes ⟨w.registry, 256⟩ p.body i p.state := by
  obtain ⟨w, p, t, hr, hw, hown, -, hname, hover, -⟩ :=
    @exists_holding 0 (fun _ _ => true) (by decide +kernel)
  obtain ⟨hreceives, hpoised⟩ := poised_of_overInstance hover hname
  obtain ⟨i, hfetch, hexecutes, -⟩ :=
    Reachable.own_access_executes hw rfl hown hreceives hpoised
  exact ⟨w, p, t, i, hr, hw, hown, hreceives, hpoised, hfetch, hexecutes (.plain rfl)⟩

/-- Whether the instruction at a point wants a closure and finds an instance. -/
def wantsClosure (w : World) (p : Machine.Point) : Bool :=
  match Machine.fetch p.body p.offset with
  | .ok i =>
    match Machine.step ⟨w.registry, 256⟩ p.body i p.state with
    | .error cause _ => cause = .typeError (.expected "closure" "object")
    | .ok _ _ => false
  | .error _ => false

lemma exists_of_wantsClosure (h : w.wantsClosure p = true) :
    ∃ i s, Machine.fetch p.body p.offset = .ok i ∧
      Machine.step ⟨w.registry, 256⟩ p.body i p.state =
        .error (.typeError (.expected "closure" "object")) s := by
  unfold wantsClosure at h
  split at h
  · next i hfetch =>
    split at h
    · next cause s hstep =>
      obtain rfl := of_decide_eq_true h
      exact ⟨i, s, hfetch, hstep⟩
    · cases h
  · cases h

set_option maxRecDepth 100000 in
/-- A field with the flag of a captured variable, in a type that hosts no closures, is in no instance:
the current version of the type cannot read it. -/
theorem not_own_access_executes_flagged :
    ∃ w p t i s, (Registry.create .default).replay (holdings capturedField) = some w.registry ∧
      Reachable .default w ∧
      w.AccessesOwn 256 getsField p t t.current false ⟨"n", .i32, capturedField⟩ ∧
      t.current.unit.isClosureHost = false ∧ p.body.version = t.table.version ∧
      Machine.Receives w.registry p.state.heap t (.object 0 "a.T") ∧
      Machine.Poised ⟨"n", .i32, capturedField⟩ p.state (.object 0 "a.T")
        p.state.stack.slots.pop false ∧
      Machine.fetch p.body p.offset = .ok i ∧
      Machine.step ⟨w.registry, 256⟩ p.body i p.state =
        .error (.typeError (.expected "closure" "object")) s := by
  obtain ⟨w, p, t, hr, hw, hown, hunit, hname, hover, hwants⟩ :=
    @exists_holding capturedField wantsClosure (by decide +kernel)
  obtain ⟨i, s, hfetch, hfails⟩ := exists_of_wantsClosure hwants
  obtain ⟨hreceives, hpoised⟩ := poised_of_overInstance hover hname
  have hwell := (hw.registry.wellFormed rfl).types t hown.registered
  exact ⟨w, p, t, i, s, hr, hw, hown, hunit ▸ by decide,
    hown.version_eq.symm.trans hwell.current_index, hreceives, hpoised, hfetch, hfails⟩

end LiveTypes.World
