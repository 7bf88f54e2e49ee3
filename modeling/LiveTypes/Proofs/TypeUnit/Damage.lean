import LiveTypes.Proofs.Bytes.Checksum
import LiveTypes.Proofs.TypeUnit.Framing

/-!
# Damaged units are refused

Bytes that are read as a unit have the checksum of their body in the header, and no unit is read from a
part of the body. So bytes that differ from them in up to four consecutive places of the body are refused
for their checksum (`TypeUnit.decode_burst`). When the checksum is computed anew, bytes that were cut off
are refused because they end, and bytes that were prolonged because some are left over
(`TypeUnit.decode_cut_or_prolonged`).
-/

namespace LiveTypes

open Decoder

namespace TypeUnit

variable {u u' : TypeUnit} {data data' body : List UInt8} {flags stored : UInt32}

/-! ### Header and body -/

lemma frames_magic : Frames UnitError.IsEnd (inUnit (bytes 4)) UnitFormat.magic UnitFormat.magic :=
  (framed_bytes 4).inUnit.frames (reads_bytes UnitFormat.magic).inUnit

lemma frames_u32 (v : UInt32) : Frames UnitError.IsEnd (inUnit u32) (encodeU32 v) v :=
  framed_u32.inUnit.frames (reads_u32 v).inUnit

lemma starves_readHeader (flags stored : UInt32) :
    Starves UnitError.IsEnd readHeader (headerWith flags stored) := by
  refine frames_magic.starves.bind frames_magic.reads ?_
  rw [if_neg (not_not.mpr rfl)]
  refine (frames_u32 _).starves.bind (frames_u32 _).reads ?_
  rw [if_neg (not_not.mpr rfl)]
  refine (frames_u32 flags).starves.bind (frames_u32 flags).reads ?_
  rw [← List.append_nil (encodeU32 stored)]
  exact (frames_u32 stored).starves.bind (frames_u32 stored).reads starves_nil

/-- What bytes with a header are read as: the checksum decides first, then the body. -/
lemma decode_headerWith (flags stored : UInt32) (body : List UInt8) :
    decode (headerWith flags stored ++ body) =
      if stored ≠ checksum body then .error (.checksumMismatch stored (checksum body))
      else match readBody flags ⟨16, body⟩ with
        | .error e _ => .error e
        | .ok u c => if c.atEnd then .ok u else .error (.trailingBytes c.rest.length) := by
  have hheader := readHeader_headerWith flags stored body
  unfold decode
  split_ifs at hheader ⊢
  · exact bind_of_error hheader ▸ rfl
  · exact bind_of_ok hheader ▸ rfl

/-- Bytes that are read as a unit are a header with the checksum of their body, and a body that is all
needed. -/
lemma framed_of_decode (h : decode data = .ok u) : ∃ flags body,
    data = headerWith flags (checksum body) ++ body ∧
      Frames UnitError.IsEnd (readBody flags) body u := by
  unfold decode at h
  split at h
  · cases h
  · next u₁ c hread =>
    split at h
    · next hend =>
      obtain rfl := Except.ok.inj h
      obtain ⟨flags, c₁, hheader, hbody⟩ := bind_eq_ok.mp hread
      obtain ⟨body, hrest, hframes⟩ := framed_readBody flags _ _ _ hbody
      have hend : c.rest = [] := by simpa [Cursor.atEnd] using hend
      have hdata := readHeader_eq_ok hheader
      rw [hrest, hend, List.append_nil, encodeHeader_eq] at hdata
      exact ⟨flags, body, hdata, hframes⟩
    · cases h

/-! ### Bursts -/

def storedChecksum (data : List UInt8) : UInt32 := UInt32.ofNat (numberOf ((data.drop 12).take 4))

lemma storedChecksum_headerWith : storedChecksum (headerWith flags stored ++ body) = stored := by
  have hstored : ((headerWith flags stored ++ body).drop 12).take 4 = encodeU32 stored := by
    rw [headerWith_append, List.drop_left' (by simp [UnitFormat.magic]), List.take_left' (by simp)]
  rw [storedChecksum, hstored, encodeU32, numberOf_bytesOf stored.toNat_lt, UInt32.ofNat_toNat]

/-- A list in three parts, the middle one a window. -/
lemma take_append_window (l : List UInt8) (start width : Nat) :
    l.take start ++ (l.drop start).take width ++ l.drop (start + width) = l := by
  rw [List.append_assoc, ← List.drop_drop, List.take_append_drop, List.take_append_drop]

/-- Byte strings that differ within a window only have the same bytes before it and after it. -/
lemma parts_eq_of_window {start width : Nat}
    (h : ∀ i, data'[i]? ≠ data[i]? → start ≤ i ∧ i < start + width) :
    data'.take start = data.take start ∧ data'.drop (start + width) = data.drop (start + width) := by
  have hsame (i : Nat) (hi : i < start ∨ start + width ≤ i) : data'[i]? = data[i]? := by
    by_contra hne
    have := h i hne
    omega
  constructor
  · apply List.ext_getElem?
    intro i
    rw [List.getElem?_take, List.getElem?_take]
    split_ifs with hi
    · exact hsame i (.inl hi)
    · rfl
  · apply List.ext_getElem?
    intro i
    rw [List.getElem?_drop, List.getElem?_drop]
    exact hsame _ (.inr (Nat.le_add_right _ _))

/-- A body in three parts, the middle one a window. -/
lemma drop_header_window {start width : Nat} (hstart : 16 ≤ start) (hlength : 16 ≤ data.length) :
    data.drop 16 = (data.take start).drop 16 ++ (data.drop start).take width ++
      data.drop (start + width) := by
  have hfront : 16 ≤ (data.take start).length := by
    rw [List.length_take]
    omega
  conv_lhs => rw [← take_append_window data start width]
  rw [List.append_assoc, List.append_assoc, List.drop_append_of_le_length hfront]

/-- Bytes that differ from those of a unit in the body, and within four consecutive bytes only, are
refused: the header holds a checksum which is not theirs. -/
theorem decode_burst (h : decode data = .ok u) (hlength : data'.length = data.length)
    (hne : data' ≠ data)
    (hburst : ∃ start, 16 ≤ start ∧ ∀ i, data'[i]? ≠ data[i]? → start ≤ i ∧ i < start + 4) :
    decode data' =
        .error (.checksumMismatch (storedChecksum data) (checksum (data'.drop 16))) ∧
      checksum (data'.drop 16) ≠ storedChecksum data := by
  obtain ⟨flags, body, hdata, -⟩ := framed_of_decode h
  obtain ⟨start, hstart, hwindow⟩ := hburst
  obtain ⟨hfront, hback⟩ := parts_eq_of_window hwindow
  have hlong : 16 ≤ data.length := by simp [hdata]
  have hbody : data.drop 16 = body := by rw [hdata, List.drop_left' (length_headerWith _ _)]
  have hstored : storedChecksum data = checksum body := by rw [hdata, storedChecksum_headerWith]
  have hheader : data'.take 16 = headerWith flags (checksum body) := by
    have hsame : data'.take 16 = data.take 16 := by
      simpa [List.take_take, hstart] using congrArg (List.take 16) hfront
    rw [hsame, hdata, List.take_left' (length_headerWith _ _)]
  have hchecksum : checksum (data'.drop 16) ≠ checksum body := by
    rw [← hbody, drop_header_window hstart hlong, drop_header_window hstart (hlength ▸ hlong), hfront,
      hback]
    refine checksum_burst_ne (by simp [hlength]) (List.length_take_le _ _) (fun heq => hne ?_) _ _
    rw [← take_append_window data' start 4, ← take_append_window data start 4, hfront, hback, heq]
  rw [hstored]
  refine ⟨?_, hchecksum⟩
  conv_lhs => rw [← List.take_append_drop 16 data', hheader, decode_headerWith]
  rw [if_pos hchecksum.symm]

set_option maxRecDepth 100000 in
/-- A unit with two damaged bytes in a window of four. -/
theorem decode_burst_bracketed :
    let data := bracketed.encode
    let data' := (data.set 30 0).set 33 0xFF
    decode data = .ok bracketed ∧ data' ≠ data ∧
      ∃ actual, actual ≠ storedChecksum data ∧
        decode data' = .error (.checksumMismatch (storedChecksum data) actual) := by
  intro data data'
  have hdecode : decode data = .ok bracketed := by decide +kernel
  have hne : data' ≠ data := by decide +kernel
  have hburst : ∀ i, data'[i]? ≠ data[i]? → 30 ≤ i ∧ i < 30 + 4 := by
    intro i hi
    by_contra hout
    exact hi (by rw [List.getElem?_set_ne (by omega), List.getElem?_set_ne (by omega)])
  obtain ⟨hrefused, hactual⟩ := decode_burst hdecode (by simp [data']) hne ⟨30, by decide, hburst⟩
  exact ⟨hdecode, hne, _, hactual, hrefused⟩

/-! ### Cut off and prolonged -/

/-- Bytes with the checksum computed anew, if they reach past its place, that is, hold the whole header.
Bytes that end before cannot be read as far as that. -/
def resealed (data : List UInt8) : List UInt8 :=
  if data.length < 16 then data
  else data.take 12 ++ encodeU32 (checksum (data.drop 16)) ++ data.drop 16

lemma resealed_of_lt (h : data.length < 16) : resealed data = data := if_pos h

lemma resealed_headerWith (flags stored : UInt32) (body : List UInt8) :
    resealed (headerWith flags stored ++ body) = headerWith flags (checksum body) ++ body := by
  have hlong : ¬ (headerWith flags stored ++ body).length < 16 := by simp
  have htake : (headerWith flags stored ++ body).take 12 =
      UnitFormat.magic ++ encodeU32 UnitFormat.version ++ encodeU32 flags := by
    rw [headerWith_append, List.take_left' (by simp [UnitFormat.magic])]
  rw [resealed, if_neg hlong, List.drop_left' (length_headerWith _ _), htake]
  simp [headerWith]

/-- What bytes with the right checksum are read as is decided by the body. -/
lemma decode_sealed (flags : UInt32) (body : List UInt8) :
    decode (headerWith flags (checksum body) ++ body) =
      match readBody flags ⟨16, body⟩ with
      | .error e _ => .error e
      | .ok u c => if c.atEnd then .ok u else .error (.trailingBytes c.rest.length) := by
  rw [decode_headerWith, if_neg (not_not.mpr rfl)]

/-- The flags of the header only go into the unit. -/
lemma readBody_flags {flags' : UInt32} {c c' : Cursor} (h : readBody flags c = .ok u c') :
    readBody flags' c = .ok { u with formatFlags := flags' } c' := by
  obtain ⟨name, c₁, hname, h⟩ := bind_eq_ok.mp h
  obtain ⟨hne, h⟩ := guard_eq_ok.mp h
  refine bind_eq_ok.mpr ⟨name, c₁, hname, guard_eq_ok.mpr ⟨hne, ?_⟩⟩
  simp only [bind_eq_ok, pure_eq_ok] at h ⊢
  obtain ⟨superName, c₂, hsuper, access, c₃, haccess, constants, c₄, hconstants, fields, c₅, hfields,
    methods, c₆, hmethods, attributes, c₇, hattributes, rfl, rfl⟩ := h
  exact ⟨superName, _, hsuper, access, _, haccess, constants, _, hconstants, fields, _, hfields,
    methods, _, hmethods, attributes, _, hattributes, rfl, rfl⟩

/-- Less than the bytes of a unit ends early. -/
lemma decode_cut (h : decode data = .ok u) {n : Nat} (hn : n < data.length) :
    ∃ p, decode (resealed (data.take n)) = .error (.decode (.unexpectedEnd p)) := by
  obtain ⟨flags, body, rfl, hframes⟩ := framed_of_decode h
  have hlength := length_headerWith flags (checksum body)
  by_cases hheader : n < 16
  · -- the header itself is cut off
    obtain ⟨e, c, herror, hend⟩ :=
      (starves_readHeader flags (checksum body)).take (hlength.symm ▸ hheader) 0
    obtain ⟨p, rfl⟩ := UnitError.isEnd_iff.mp hend
    have hshort : ((headerWith flags (checksum body)).take n).length < 16 := by
      rw [List.length_take]
      omega
    rw [List.take_append_of_le_length (by omega), resealed_of_lt hshort, decode, Cursor.start,
      bind_of_error herror]
    exact ⟨p, rfl⟩
  · obtain ⟨k, rfl⟩ : ∃ k, n = 16 + k := ⟨n - 16, by omega⟩
    have hk : k < body.length := by
      rw [List.length_append] at hn
      omega
    obtain ⟨e, c, herror, hend⟩ := hframes.starves.take hk 16
    obtain ⟨p, rfl⟩ := UnitError.isEnd_iff.mp hend
    rw [← hlength, List.take_length_add_append, resealed_headerWith, decode_sealed, herror]
    exact ⟨p, rfl⟩

/-- More than the bytes of a unit leaves some over. -/
lemma decode_prolonged (h : decode data = .ok u) {extra : List UInt8} (hne : extra ≠ []) :
    decode (resealed (data ++ extra)) = .error (.trailingBytes extra.length) := by
  obtain ⟨flags, body, rfl, hframes⟩ := framed_of_decode h
  rw [List.append_assoc, resealed_headerWith, decode_sealed, hframes.reads]
  simp [Cursor.atEnd, hne]

/-- Bytes of a unit that are cut off anywhere end early, and bytes that are prolonged leave some over, once
the header has the checksum of what is there. So the body of a unit is not a part of the beginning of
another. -/
theorem decode_cut_or_prolonged (h : decode data = .ok u) :
    (∀ n < data.length,
      ∃ p, decode (resealed (data.take n)) = .error (.decode (.unexpectedEnd p))) ∧
    (∀ extra, extra ≠ [] →
      decode (resealed (data ++ extra)) = .error (.trailingBytes extra.length)) ∧
    ∀ data' u', decode data' = .ok u' → data.drop 16 <+: data'.drop 16 →
      data.drop 16 = data'.drop 16 := by
  refine ⟨fun n hn => decode_cut h hn, fun extra hne => decode_prolonged h hne, ?_⟩
  rintro data' u' h' ⟨rest, hrest⟩
  obtain ⟨flags, body, rfl, hframes⟩ := framed_of_decode h
  obtain ⟨flags', body', rfl, hframes'⟩ := framed_of_decode h'
  rw [List.drop_left' (length_headerWith _ _), List.drop_left' (length_headerWith _ _)] at hrest ⊢
  have hread : readBody flags' ⟨16, body ++ []⟩ = .ok _ _ := readBody_flags (hframes.reads 16 [])
  rw [List.append_nil] at hread
  by_contra hne
  obtain ⟨e, c, herror, -⟩ := hframes'.starves 16 body rest hrest.symm fun hnil => hne (by
    rw [← hrest, hnil, List.append_nil])
  cases hread.symm.trans herror

set_option maxRecDepth 100000 in
/-- A unit that is cut off in its constants, and prolonged by two bytes, and that has the same body under
other flags. -/
theorem decode_cut_or_prolonged_bracketed :
    let data := bracketed.encode
    let data' := { bracketed with formatFlags := 0 }.encode
    decode data = .ok bracketed ∧ 50 < data.length ∧
      (∃ p, decode (resealed (data.take 50)) = .error (.decode (.unexpectedEnd p))) ∧
      decode (resealed (data ++ [0, 1])) = .error (.trailingBytes 2) ∧
      decode data' = .ok { bracketed with formatFlags := 0 } ∧ data ≠ data' ∧
      data.drop 16 = data'.drop 16 := by
  intro data data'
  have hdecode : decode data = .ok bracketed := by decide +kernel
  have hdecode' : decode data' = .ok { bracketed with formatFlags := 0 } := by decide +kernel
  have hlong : 50 < data.length := by decide +kernel
  obtain ⟨hcut, hprolonged, hbody⟩ := decode_cut_or_prolonged hdecode
  exact ⟨hdecode, hlong, hcut 50 hlong, hprolonged [0, 1] (by decide), hdecode', by decide +kernel,
    hbody data' _ hdecode' (by decide +kernel)⟩

end TypeUnit

end LiveTypes
