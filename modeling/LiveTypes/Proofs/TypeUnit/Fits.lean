import LiveTypes.Proofs.TypeUnit.Canonical
import Mathlib.Algebra.Order.BigOperators.Group.List
import Mathlib.Algebra.Order.Group.Nat

/-!
# Units that fit their counts

Every text, blob and table of a unit is written behind a count of four bytes. A unit that is made from
one that was read has types that can be read back, so its bytes are read back as soon as they have room
for all its counts (`TypeUnit.Fits.read_back`). A unit of fewer than `2 ^ 32` bytes is one of these
(`TypeUnit.fits_of_length`).
-/

namespace LiveTypes

open Decoder

/-! ### Types that can be read back -/

/-- A signature whose types can be read back. -/
structure Signature.Readable (s : Signature) : Prop where
  params : ∀ t ∈ s.descriptor.params, t.Passable
  result : s.descriptor.result.WellNamed

/-- A unit with a name, whose types can be read back. -/
structure TypeUnit.Readable (u : TypeUnit) : Prop where
  nonempty : u.name ≠ ""
  fields : ∀ f ∈ u.fields, f.type.WellNamed ∧ f.type ≠ .void
  methods : ∀ m ∈ u.methods, m.signature.Readable

lemma FieldDecl.readable_of_read {f : FieldDecl} {c c' : Cursor} (h : FieldDecl.read c = .ok f c') :
    f.type.WellNamed ∧ f.type ≠ .void := by
  simp only [FieldDecl.read, bind_eq_ok, pure_eq_ok, ofDescriptor_eq_ok] at h
  obtain ⟨name, _, -, text, _, -, type, _, ⟨htype, -⟩, flags, _, -, rfl, -⟩ := h
  obtain ⟨hnamed, hvoid, -⟩ := TypeDescriptor.parse_eq_ok_iff.mp htype
  exact ⟨hnamed, hvoid⟩

lemma MethodDecl.readable_of_read {m : MethodDecl} {c c' : Cursor}
    (h : MethodDecl.read c = .ok m c') : m.signature.Readable := by
  simp only [MethodDecl.read, bind_eq_ok, pure_eq_ok, ofDescriptor_eq_ok] at h
  obtain ⟨name, _, -, text, _, -, signature, _, ⟨hsignature, -⟩, flags, _, -, throws, _, -, locals, _,
    -, code, _, -, rfl, -⟩ := h
  obtain ⟨-, hparams, hresult, -⟩ := Signature.ofParts_eq_ok_iff.mp hsignature
  exact ⟨hparams, hresult⟩

lemma TypeUnit.nonempty_of_decode {data : List UInt8} {u : TypeUnit} (h : decode data = .ok u) :
    u.name ≠ "" := by
  unfold decode at h
  split at h
  · cases h
  · next u₁ c hread =>
    split at h
    · obtain rfl := Except.ok.inj h
      obtain ⟨flags, c₁, -, hbody⟩ := bind_eq_ok.mp hread
      obtain ⟨name, c₂, -, hbody⟩ := bind_eq_ok.mp hbody
      obtain ⟨hname, hbody⟩ := guard_eq_ok.mp hbody
      simp only [bind_eq_ok, pure_eq_ok] at hbody
      obtain ⟨_, _, -, _, _, -, _, _, -, _, _, -, _, _, -, _, _, -, rfl, -⟩ := hbody
      simpa using hname
    · cases h

/-- A unit that was read can be read back. -/
theorem TypeUnit.readable_of_decode {data : List UInt8} {u : TypeUnit} (h : decode data = .ok u) :
    u.Readable := by
  obtain ⟨⟨_, _, hfields⟩, _, _, hmethods⟩ := tables_of_decode h
  refine ⟨nonempty_of_decode h, fun f hf => ?_, fun m hm => ?_⟩
  · obtain ⟨_, _, hread⟩ := (table_eq_ok hfields).2 f hf
    exact FieldDecl.readable_of_read hread
  · obtain ⟨_, _, hread⟩ := (table_eq_ok hmethods).2 m hm
    exact MethodDecl.readable_of_read hread

/-! ### The counts of a unit -/

/-- The counts that a text is written with. -/
def textCounts (s : String) : List Nat := [(textBytes s).length]

/-- The counts that a table is written with. -/
def tableCounts {α : Type} (counts : α → List Nat) (l : List α) : List Nat :=
  l.length :: l.flatMap counts

/-- The counts that a pool is written with; numbers have none of their own. -/
def ConstantPool.counts (p : ConstantPool) : List Nat :=
  tableCounts textCounts p.strings.toList ++ tableCounts (fun _ => []) p.integers ++
    tableCounts (fun _ => []) p.floats

def FieldDecl.counts (f : FieldDecl) : List Nat := textCounts f.name ++ textCounts f.type.text

def MethodDecl.counts (m : MethodDecl) : List Nat :=
  textCounts m.signature.name ++ textCounts m.signature.descriptor.text ++
    tableCounts textCounts m.throws ++ [m.code.length]

def Attribute.counts (a : Attribute) : List Nat := textCounts a.name ++ [a.data.length]

namespace TypeUnit

/-- The counts that a unit is written with. -/
def counts (u : TypeUnit) : List Nat :=
  textCounts u.name ++ u.superName.toList.flatMap textCounts ++ u.constants.counts ++
    tableCounts FieldDecl.counts u.fields ++ tableCounts MethodDecl.counts u.methods ++
    tableCounts Attribute.counts u.attributes

/-- Whether each count of a unit can be written in four bytes. -/
def Fits (u : TypeUnit) : Prop := ∀ n ∈ u.counts, n < UInt32.size

instance : DecidablePred Fits := fun u =>
  inferInstanceAs (Decidable (∀ n ∈ u.counts, n < UInt32.size))

end TypeUnit

/-- A table fits when its length and the counts of its entries do. -/
lemma forall_mem_tableCounts {α : Type} {counts : α → List Nat} {l : List α} {P : Nat → Prop} :
    (∀ n ∈ tableCounts counts l, P n) ↔ P l.length ∧ ∀ a ∈ l, ∀ n ∈ counts a, P n := by
  rw [tableCounts, List.forall_mem_cons, List.forall_mem_flatMap]

lemma short_iff {s : String} : (∀ n ∈ textCounts s, n < UInt32.size) ↔ Short s :=
  List.forall_mem_singleton

variable {u : TypeUnit}

lemma TypeUnit.Fits.expressible (h : u.Fits) (hreadable : u.Readable) : u.Expressible := by
  simp only [Fits, counts, ConstantPool.counts, FieldDecl.counts, MethodDecl.counts,
    Attribute.counts, List.forall_mem_append, List.forall_mem_flatMap, List.forall_mem_singleton,
    forall_mem_tableCounts, short_iff, Option.mem_toList] at h
  obtain ⟨⟨⟨⟨⟨hname, hsuper⟩, ⟨⟨hstrings, htexts⟩, hintegers, -⟩, hfloats, -⟩, hfields, hfield⟩,
    hmethods, hmethod⟩, hattributes, hattribute⟩ := h
  refine {
    nonempty := hreadable.nonempty
    name := hname
    superName := hsuper
    constants := ⟨hstrings, htexts, hintegers, hfloats⟩
    fields_length := hfields
    fields := hfield
    methods_length := hmethods
    methods := fun m hm => ?_
    attributes_length := hattributes
    attributes := hattribute
    fieldTypes := hreadable.fields
    paramTypes := fun m hm => (hreadable.methods m hm).params
    resultTypes := fun m hm => (hreadable.methods m hm).result }
  obtain ⟨⟨⟨hname, hdescriptor⟩, hlength, hthrows⟩, hcode⟩ := hmethod m hm
  exact ⟨hname, hdescriptor, hlength, hthrows, hcode⟩

/-- A unit that fits its counts and can be read back is read back. -/
theorem TypeUnit.Fits.read_back (h : u.Fits) (hreadable : u.Readable) :
    decode u.encode = .ok u :=
  decode_encode (h.expressible hreadable).encodable

/-! ### Short units fit -/

/-- Whether no count is greater than the number of bytes. -/
def Within (counts : List Nat) (bytes : List UInt8) : Prop := ∀ n ∈ counts, n ≤ bytes.length

namespace Within

variable {α : Type} {counts counts' : List Nat} {bytes bytes' : List UInt8}

lemma nil : Within [] bytes := nofun

lemma append (h : Within counts bytes) (h' : Within counts' bytes') :
    Within (counts ++ counts') (bytes ++ bytes') := by
  intro n hn
  rw [List.length_append]
  rcases List.mem_append.mp hn with hn | hn
  · exact (h n hn).trans (Nat.le_add_right _ _)
  · exact (h' n hn).trans (Nat.le_add_left _ _)

/-- Bytes without counts may follow. -/
lemma append_right (h : Within counts bytes) : Within counts (bytes ++ bytes') :=
  fun n hn => (h n hn).trans (by simp)

lemma blob (bytes : List UInt8) : Within [bytes.length] (encodeBlob bytes) := by
  simp [Within, encodeBlob]

lemma text (s : String) : Within (textCounts s) (encodeText s) := blob (textBytes s)

/-- A table has a byte for each of its entries, and the bytes of each entry. -/
lemma table {counts : α → List Nat} {encode : α → List UInt8} {l : List α}
    (hpos : ∀ a ∈ l, 0 < (encode a).length) (h : ∀ a ∈ l, Within (counts a) (encode a)) :
    Within (tableCounts counts l) (encodeTable encode l) := by
  have hlength : (l.flatMap encode).length = (l.map fun a => (encode a).length).sum :=
    List.length_flatMap
  rw [Within, forall_mem_tableCounts, encodeTable, List.length_append, hlength]
  refine ⟨?_, fun a ha n hn => ?_⟩
  · have hsum := List.length_le_sum_of_one_le (l.map fun a => (encode a).length) (by
      simpa [Nat.one_le_iff_ne_zero, Nat.pos_iff_ne_zero] using hpos)
    rw [List.length_map] at hsum
    omega
  · have hsum := List.le_sum_of_mem (List.mem_map_of_mem (f := fun a => (encode a).length) ha)
    have := h a ha n hn
    omega

end Within

lemma encodeText_pos (s : String) : 0 < (encodeText s).length := by
  simp [encodeText, encodeBlob]

lemma ConstantPool.within (p : ConstantPool) : Within p.counts p.encode := by
  have hencode : p.encode = encodeTable encodeText p.strings.toList ++
      encodeTable encodeI64 p.integers ++ encodeTable (fun d => encodeU64 d.bits) p.floats := by
    simp [encode, encodeTable]
  rw [hencode]
  refine ((Within.table (fun s _ => encodeText_pos s) fun s _ => .text s).append ?_).append ?_
  · exact .table (by simp) fun _ _ => .nil
  · exact .table (by simp) fun _ _ => .nil

lemma FieldDecl.within (f : FieldDecl) : Within f.counts f.encode :=
  ((Within.text f.name).append (.text f.type.text)).append_right

lemma MethodDecl.within (m : MethodDecl) : Within m.counts m.encode := by
  refine Within.append (.append_right (.append (.append_right (.append (.text _) (.text _))) ?_))
    (.blob m.code)
  exact .table (fun s _ => encodeText_pos s) fun s _ => .text s

lemma Attribute.within (a : Attribute) : Within a.counts a.encode :=
  (Within.text a.name).append (.blob a.data)

lemma TypeUnit.within_body (u : TypeUnit) : Within u.counts u.encodeBody := by
  have hsuper : Within (u.superName.toList.flatMap textCounts) (encodeSuper u.superName) := by
    cases u.superName with
    | none => exact .nil
    | some s =>
      have hpresence : Within [] [1] := .nil
      exact hpresence.append (.text s)
  refine ((((((Within.text u.name).append hsuper).append_right).append u.constants.within).append
    ?_).append ?_).append ?_
  · exact .table (fun f _ => by simp [FieldDecl.encode]) fun f _ => f.within
  · exact .table (fun m _ => by simp [MethodDecl.encode]) fun m _ => m.within
  · exact .table (fun a _ => by simp [Attribute.encode, encodeText_pos]) fun a _ => a.within

/-- A unit with fewer bytes than a count can tell fits its counts. -/
theorem TypeUnit.fits_of_length (h : u.encode.length < UInt32.size) : u.Fits := by
  intro n hn
  refine Nat.lt_of_le_of_lt ((u.within_body n hn).trans ?_) h
  rw [encode, List.length_append]
  exact Nat.le_add_left _ _

end LiveTypes
