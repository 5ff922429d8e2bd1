import Gateway.Form
import Gateway.Proofs.Http.Forwarding
import Gateway.Proofs.Text.Utf8

/-!
# Gateway.Proofs.Form.RoundTrip — parameters written and read

Parameters that are written are read as they were, whatever characters their names and values hold:
what a name or a value is written as holds neither an ampersand nor an equals sign, and reading undoes
what writing does to each byte. What is written is ASCII, and no part of a url ends in it.

The proof goes by the size of what is written. A byte is a closed question, and there are only 256 of
them, so the lemmas about bytes are decided. A name or a value is a list of bytes, each of which is read
off before the next. A parameter is cut at its one equals sign, and the parameters at the ampersands, as
`splitAt_intercalate` says of pieces without separators in general.

The list of parameters is read as it was, with names that come twice and with empty names and values. A
parameter with neither still has its equals sign (`encodeParam_ne_nil`), for otherwise it would be passed
over as an empty piece. Only the empty list is written as nothing.
-/

set_option autoImplicit false

namespace Gateway

theorem splitAt_intercalate {α : Type} [DecidableEq α] {sep : α} {pieces : List (List α)}
    (hne : pieces ≠ []) (h : ∀ piece ∈ pieces, sep ∉ piece) :
    splitAt sep ([sep].intercalate pieces) = pieces := by
  induction pieces with
  | nil => exact absurd rfl hne
  | cons piece pieces ih =>
    have hpiece := splitAt_of_notMem (h piece List.mem_cons_self)
    cases pieces with
    | nil => rw [List.intercalate_singleton, hpiece]
    | cons next pieces =>
      rw [List.intercalate_cons_cons, List.append_assoc, List.singleton_append, splitAt_append, hpiece,
        ih (List.cons_ne_nil _ _) fun p hp => h p (List.mem_cons_of_mem piece hp),
        List.singleton_append]

namespace Form

/-! ## One byte -/

/-- An ASCII byte that ends neither a name nor a parameter nor a query. -/
def IsInner (x : UInt8) : Prop := x.toNat < 0x80 ∧ x ≠ 0x23 ∧ x ≠ 0x26 ∧ x ≠ 0x3D

instance : DecidablePred IsInner := fun x =>
  inferInstanceAs (Decidable (x.toNat < 0x80 ∧ x ≠ 0x23 ∧ x ≠ 0x26 ∧ x ≠ 0x3D))

theorem of_isPlain : ∀ b : UInt8, isPlain b = true → IsInner b ∧ b ≠ 0x2B ∧ b ≠ 0x25 := by
  decide +kernel

theorem isInner_hexByte : ∀ n < 16, IsInner (hexByte n) ∧ hexByte n ≠ 0x2B := by
  decide

theorem hexValue?_hexByte : ∀ n < 16, hexValue? (hexByte n) = some n := by
  decide

theorem isInner_of_mem_encodeByte {b x : UInt8} (h : x ∈ encodeByte b) : IsInner x := by
  have hb : b.toNat < 256 := b.toNat_lt
  unfold encodeByte at h
  split at h
  · next hplain =>
    rw [List.mem_singleton.1 h]
    exact (of_isPlain b hplain).1
  split at h
  · rw [List.mem_singleton.1 h]
    decide
  · simp only [List.mem_cons, List.not_mem_nil, or_false] at h
    rcases h with rfl | rfl | rfl
    · decide
    · exact (isInner_hexByte _ (by omega)).1
    · exact (isInner_hexByte _ (by omega)).1

theorem percentDecode_cons {b : UInt8} (h : b ≠ 0x25) (rest : Bytes) :
    percentDecode (b :: rest) = b :: percentDecode rest := by
  conv_lhs => unfold percentDecode
  exact if_neg h

theorem percentDecode_escape (b : UInt8) (rest : Bytes) :
    percentDecode (0x25 :: hexByte (b.toNat / 16) :: hexByte (b.toNat % 16) :: rest) =
      b :: percentDecode rest := by
  have hb : b.toNat < 256 := b.toNat_lt
  have hdigits : b.toNat / 16 * 16 + b.toNat % 16 = b.toNat := Nat.div_add_mod' _ _
  rw [percentDecode, if_pos rfl]
  simp only [hexValue?_hexByte _ (by omega : b.toNat / 16 < 16),
    hexValue?_hexByte _ (by omega : b.toNat % 16 < 16), hdigits, UInt8.ofNat_toNat]

/-- Reading undoes what writing does to a byte. -/
theorem decodeBytes_encodeByte (b : UInt8) (rest : Bytes) :
    decodeBytes (encodeByte b ++ rest) = b :: decodeBytes rest := by
  have hb : b.toNat < 256 := b.toNat_lt
  unfold encodeByte
  split
  · next hplain =>
    obtain ⟨-, hplus, hpercent⟩ := of_isPlain b hplain
    rw [List.singleton_append, decodeBytes, List.map_cons, if_neg hplus, percentDecode_cons hpercent,
      decodeBytes]
  split
  · next hspace =>
    rw [List.singleton_append, decodeBytes, List.map_cons, if_pos rfl, percentDecode_cons (by decide),
      hspace, decodeBytes]
  -- an escape is read back as its byte, and none of its bytes is a plus
  · have hhigh := (isInner_hexByte (b.toNat / 16) (by omega)).2
    have hlow := (isInner_hexByte (b.toNat % 16) (by omega)).2
    rw [List.cons_append, List.cons_append, List.singleton_append, decodeBytes, List.map_cons,
      List.map_cons, List.map_cons, if_neg (by decide), if_neg hhigh, if_neg hlow,
      percentDecode_escape, decodeBytes]

theorem decodeBytes_nil : decodeBytes [] = [] := by
  rw [decodeBytes, List.map_nil, percentDecode]

/-! ## One parameter -/

theorem decodeBytes_encodeText (s : String) : decodeBytes (encodeText s) = Utf8.encode s := by
  rw [encodeText]
  generalize Utf8.encode s = bs
  induction bs with
  | nil => exact decodeBytes_nil
  | cons b bs ih => rw [List.flatMap_cons, decodeBytes_encodeByte, ih]

theorem isInner_of_mem_encodeText {s : String} {x : UInt8} (h : x ∈ encodeText s) : IsInner x := by
  obtain ⟨b, -, hx⟩ := List.mem_flatMap.1 h
  exact isInner_of_mem_encodeByte hx

/-- A written parameter holds an equals sign besides what its name and its value are written as. -/
theorem of_mem_encodeParam {p : Param} {x : UInt8} (h : x ∈ encodeParam p) :
    x.toNat < 0x80 ∧ x ≠ 0x23 ∧ x ≠ 0x26 := by
  rw [encodeParam, List.mem_append, List.mem_cons] at h
  rcases h with h | rfl | h
  · obtain ⟨hlt, hhash, hamp, -⟩ := isInner_of_mem_encodeText h
    exact ⟨hlt, hhash, hamp⟩
  · decide
  · obtain ⟨hlt, hhash, hamp, -⟩ := isInner_of_mem_encodeText h
    exact ⟨hlt, hhash, hamp⟩

theorem cutAt_encodeParam (p : Param) :
    cutAt 0x3D (encodeParam p) = (encodeText p.1, some (encodeText p.2)) :=
  cutAt_append (fun h => (isInner_of_mem_encodeText h).2.2.2 rfl) _

theorem decodeParamBytes_encodeParam (p : Param) :
    decodeParamBytes (encodeParam p) = (Utf8.encode p.1, Utf8.encode p.2) := by
  rw [decodeParamBytes, cutAt_encodeParam]
  dsimp only
  rw [decodeBytes_encodeText, Option.getD_some, decodeBytes_encodeText]

theorem encodeParam_ne_nil (p : Param) : encodeParam p ≠ [] := by
  rw [encodeParam]
  exact List.append_ne_nil_of_right_ne_nil _ (List.cons_ne_nil _ _)

/-! ## All parameters -/

/-- The pieces between the ampersands, as far as they are parameters. -/
theorem splitAt_encodeBytes (ps : List Param) :
    (splitAt 0x26 (encodeBytes ps)).filter (!·.isEmpty) = ps.map encodeParam := by
  cases ps with
  | nil => rfl
  | cons p ps =>
    rw [encodeBytes, splitAt_intercalate (by simp), List.filter_eq_self]
    · intro piece hpiece
      obtain ⟨q, -, rfl⟩ := List.mem_map.1 hpiece
      simpa using encodeParam_ne_nil q
    · intro piece hpiece
      obtain ⟨q, -, rfl⟩ := List.mem_map.1 hpiece
      exact fun h => (of_mem_encodeParam h).2.2 rfl

/-- Reading undoes writing, down to the bytes. -/
theorem decodePairs_encodeBytes (ps : List Param) :
    decodePairs (encodeBytes ps) = ps.map fun p => (Utf8.encode p.1, Utf8.encode p.2) := by
  rw [decodePairs, splitAt_encodeBytes, List.map_map]
  exact List.map_congr_left fun p _ => decodeParamBytes_encodeParam p

theorem of_mem_encodeBytes {ps : List Param} {x : UInt8} (h : x ∈ encodeBytes ps) :
    x.toNat < 0x80 ∧ x ≠ 0x23 := by
  induction ps with
  | nil => cases h
  | cons p ps ih =>
    cases ps with
    | nil =>
      rw [encodeBytes, List.map_singleton, List.intercalate_singleton] at h
      exact ⟨(of_mem_encodeParam h).1, (of_mem_encodeParam h).2.1⟩
    | cons q ps =>
      rw [encodeBytes, List.map_cons, List.map_cons, List.intercalate_cons_cons, List.append_assoc,
        List.mem_append, List.singleton_append, List.mem_cons] at h
      rcases h with h | rfl | h
      · exact ⟨(of_mem_encodeParam h).1, (of_mem_encodeParam h).2.1⟩
      · decide
      · exact ih h

/-- What is written is ASCII. -/
theorem utf8_encode (ps : List Param) : Utf8.encode (encode ps) = encodeBytes ps :=
  Utf8.repair_of_ascii fun _ hb => (of_mem_encodeBytes hb).1

/-- Reading undoes writing. -/
theorem decode_encode (ps : List Param) : decode (encode ps) = ps := by
  rw [decode, utf8_encode, decodePairs_encodeBytes, List.map_map]
  refine (List.map_congr_left fun p _ => ?_).trans (List.map_id ps)
  exact Prod.ext (Utf8.decodeLossy_encode p.1) (Utf8.decodeLossy_encode p.2)

theorem hash_notMem_encode (ps : List Param) : '#' ∉ (encode ps).toList := by
  intro h
  have hbyte : 0x23 ∈ Utf8.encode (encode ps) :=
    List.mem_flatMap.2 ⟨'#', h, by decide⟩
  rw [utf8_encode] at hbyte
  exact (of_mem_encodeBytes hbyte).2 rfl

theorem encode_eq_empty_iff {ps : List Param} : encode ps = "" ↔ ps = [] := by
  constructor
  · intro h
    have hps := decode_encode ps
    rw [h] at hps
    exact hps.symm
  · rintro rfl
    simp [encode, encodeBytes, Utf8.decodeLossy, Utf8.units]

end Form

end Gateway
