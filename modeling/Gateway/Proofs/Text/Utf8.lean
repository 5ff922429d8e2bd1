import Gateway.Text.Utf8
import Mathlib

/-!
# Gateway.Proofs.Text.Utf8 — text as bytes and back

What is written as UTF-8 is read as it was. Bytes that are not UTF-8 are not read as they are: they
are *repaired*, which is to say that they are read as text, with U+FFFD for each piece of junk, and
that text is what they count as from then on. So repair changes exactly the bytes that no text is
written as, and since no ASCII character is ever junk or part of a longer character, it does so
between such characters, piece by piece.

Reading bytes as text happens wherever a body or a query is edited, and it cannot fail. It is worth
stating what this costs: `repair_eq_self_iff` says that bytes are their own repair just if they are what
some text is written as, so whoever sends other bytes through an edit gets others back.

The characters of one to four bytes are followed apart (`unit_two`, `unit_three`, `unit_four`), each with
its own bounds for the second byte. These bounds are what excludes characters that are written longer
than need be, and surrogates; without them reading would not undo writing in the other direction, and
`repair` would leave bytes alone that no text is written as. The facts about single bytes are decided,
and everything about longer texts follows by induction.
-/

set_option autoImplicit false

namespace Gateway

namespace Utf8

/-! ## One character -/

/-- The bytes that begin a character of two bytes. -/
theorem lead_two : ∀ b : UInt8, 0xC2 ≤ b.toNat ∧ b.toNat < 0xE0 →
    lead b = some (1, 0x80, 0xBF) := by
  decide +kernel

/-- The bytes that begin a character of three bytes. The second byte of what begins with `E0` is not
small, since fewer bytes would do, and of what begins with `ED` not large, which makes a surrogate. -/
theorem lead_three : ∀ b : UInt8, 0xE0 ≤ b.toNat ∧ b.toNat < 0xF0 →
    lead b = some (2, if b.toNat = 0xE0 then 0xA0 else 0x80,
      if b.toNat = 0xED then 0x9F else 0xBF) := by
  decide +kernel

/-- The bytes that begin a character of four bytes. -/
theorem lead_four : ∀ b : UInt8, 0xF0 ≤ b.toNat ∧ b.toNat < 0xF5 →
    lead b = some (3, if b.toNat = 0xF0 then 0x90 else 0x80,
      if b.toNat = 0xF4 then 0x8F else 0xBF) := by
  decide +kernel

theorem units_cons (b : UInt8) (bs : Bytes) :
    units (b :: bs) = (unit b bs).1 :: units (unit b bs).2 := by
  rw [units]

theorem unit_ascii {b : UInt8} (hb : b.toNat < 0x80) (rest : Bytes) :
    unit b rest = (some (Char.ofNat b.toNat), rest) :=
  if_pos (UInt8.lt_iff_toNat_lt.2 hb)

/-- A continuation byte carries six bits of a number. -/
theorem toNat_tail (n : Nat) : (UInt8.ofNat (n % 64 + 128)).toNat = n % 64 + 128 := by
  rw [UInt8.toNat_ofNat']
  omega

theorem continuation_tail (n code k : Nat) (rest : Bytes) :
    continuation (n + 1) code (UInt8.ofNat (k % 64 + 128) :: rest) =
      continuation n (code * 64 + k % 64) rest := by
  have hbits : (k % 64 + 128) % 64 = k % 64 := by omega
  rw [continuation, if_pos, toNat_tail, hbits]
  rw [UInt8.le_iff_toNat_le, UInt8.le_iff_toNat_le, toNat_tail]
  simp
  omega

/-- A first byte with a second one in its bounds, and what the bytes behind them come to. -/
theorem unit_of_lead {b low high : UInt8} {n k code : Nat} {bs rest : Bytes}
    (hlead : lead b = some (n + 1, low, high)) (hb : 0x80 ≤ b.toNat)
    (hlow : low.toNat ≤ k % 64 + 128) (hhigh : k % 64 + 128 ≤ high.toNat)
    (hbs : continuation n (payload (n + 1) b * 64 + k % 64) bs = (some code, rest)) :
    unit b (UInt8.ofNat (k % 64 + 128) :: bs) = (some (Char.ofNat code), rest) := by
  have hnot : ¬ b < 0x80 := by
    rw [UInt8.lt_iff_toNat_lt]
    exact Nat.not_lt.2 hb
  have hbounds : low ≤ UInt8.ofNat (k % 64 + 128) ∧ UInt8.ofNat (k % 64 + 128) ≤ high := by
    rw [UInt8.le_iff_toNat_le, UInt8.le_iff_toNat_le, toNat_tail]
    exact ⟨hlow, hhigh⟩
  have hbits : (k % 64 + 128) % 64 = k % 64 := by omega
  simp only [unit, if_neg hnot, hlead, if_pos hbounds, Nat.add_sub_cancel, toNat_tail, hbits, hbs,
    Option.map_some]

/-- A character that is written in two bytes. -/
theorem unit_two {v : Nat} (hlow : 0x80 ≤ v) (hhigh : v < 0x800) (rest : Bytes) :
    unit (UInt8.ofNat (v / 64 % 32 + 192)) (UInt8.ofNat (v % 64 + 128) :: rest) =
      (some (Char.ofNat v), rest) := by
  have hb : (UInt8.ofNat (v / 64 % 32 + 192)).toNat = v / 64 % 32 + 192 := by
    rw [UInt8.toNat_ofNat']
    omega
  have hcode : payload 1 (UInt8.ofNat (v / 64 % 32 + 192)) * 64 + v % 64 = v := by
    rw [payload, hb]
    simp
    omega
  exact unit_of_lead (lead_two _ (by omega)) (by omega) (by simp) (by simp; omega)
    (by rw [continuation, hcode])

/-- A character that is written in three bytes, which no surrogate is. -/
theorem unit_three {v : Nat} (hlow : 0x800 ≤ v) (hhigh : v < 0x10000)
    (hvalid : v < 0xD800 ∨ 0xDFFF < v) (rest : Bytes) :
    unit (UInt8.ofNat (v / 4096 % 16 + 224))
        (UInt8.ofNat (v / 64 % 64 + 128) :: UInt8.ofNat (v % 64 + 128) :: rest) =
      (some (Char.ofNat v), rest) := by
  have hb : (UInt8.ofNat (v / 4096 % 16 + 224)).toNat = v / 4096 % 16 + 224 := by
    rw [UInt8.toNat_ofNat']
    omega
  have hcode : (payload 2 (UInt8.ofNat (v / 4096 % 16 + 224)) * 64 + v / 64 % 64) * 64 + v % 64
      = v := by
    rw [payload, hb]
    simp
    omega
  exact unit_of_lead (lead_three _ (by omega)) (by omega) (by split <;> simp; omega)
    (by split <;> simp <;> omega) (by rw [continuation_tail, continuation, hcode])

/-- A character that is written in four bytes. -/
theorem unit_four {v : Nat} (hlow : 0x10000 ≤ v) (hhigh : v < 0x110000) (rest : Bytes) :
    unit (UInt8.ofNat (v / 262144 % 8 + 240))
        (UInt8.ofNat (v / 4096 % 64 + 128) :: UInt8.ofNat (v / 64 % 64 + 128) ::
          UInt8.ofNat (v % 64 + 128) :: rest) =
      (some (Char.ofNat v), rest) := by
  have hb : (UInt8.ofNat (v / 262144 % 8 + 240)).toNat = v / 262144 % 8 + 240 := by
    rw [UInt8.toNat_ofNat']
    omega
  have hcode : ((payload 3 (UInt8.ofNat (v / 262144 % 8 + 240)) * 64 + v / 4096 % 64) * 64
      + v / 64 % 64) * 64 + v % 64 = v := by
    rw [payload, hb]
    simp
    omega
  exact unit_of_lead (lead_four _ (by omega)) (by omega) (by split <;> simp; omega)
    (by split <;> simp <;> omega)
    (by rw [continuation_tail, continuation_tail, continuation, hcode])

/-- A written character is read, whatever follows it. -/
theorem units_encodeChar (c : Char) (rest : Bytes) :
    units (String.utf8EncodeChar c ++ rest) = some c :: units rest := by
  have hchar : Char.ofNat c.val.toNat = c := Char.ofNat_toNat c
  have hvalid : c.val.toNat < 0xD800 ∨ 0xDFFF < c.val.toNat ∧ c.val.toNat < 0x110000 := c.valid
  unfold String.utf8EncodeChar
  generalize c.val.toNat = v at hchar hvalid
  dsimp only
  -- by the number of bytes
  split
  · next hone =>
    have hb : (UInt8.ofNat v).toNat = v := by
      rw [UInt8.toNat_ofNat']
      omega
    rw [List.singleton_append, units_cons, unit_ascii (by omega), hb, hchar]
  split
  · next hone htwo =>
    rw [List.cons_append, List.cons_append, List.nil_append, units_cons,
      unit_two (by omega) (by omega), hchar]
  split
  · next hone htwo hthree =>
    rw [List.cons_append, List.cons_append, List.cons_append, List.nil_append, units_cons,
      unit_three (by omega) (by omega) (by omega), hchar]
  · next hone htwo hthree =>
    rw [List.cons_append, List.cons_append, List.cons_append, List.cons_append, List.nil_append,
      units_cons, unit_four (by omega) (by omega), hchar]

/-! ## Text and junk -/

theorem units_flatMap_encodeChar (cs : List Char) :
    units (cs.flatMap String.utf8EncodeChar) = cs.map some := by
  induction cs with
  | nil => simp [units]
  | cons c cs ih => rw [List.flatMap_cons, units_encodeChar, ih, List.map_cons]

/-- What is written is read as it was. -/
@[simp] theorem decodeLossy_encode (s : String) : decodeLossy (encode s) = s := by
  rw [decodeLossy, encode, units_flatMap_encodeChar, List.map_map]
  simp

/-- The bytes are what some text is written as. -/
def IsText (bs : Bytes) : Prop := ∃ s, encode s = bs

/-- The bytes of the text that bytes are read as, with U+FFFD for each piece of junk. -/
def repair (bs : Bytes) : Bytes := encode (decodeLossy bs)

@[simp] theorem repair_encode (s : String) : repair (encode s) = encode s := by
  rw [repair, decodeLossy_encode]

/-- Repair leaves text alone, and nothing else. -/
theorem repair_eq_self_iff {bs : Bytes} : repair bs = bs ↔ IsText bs := by
  constructor
  · intro h
    exact ⟨_, h⟩
  · rintro ⟨s, rfl⟩
    exact repair_encode s

theorem repair_eq_flatMap (bs : Bytes) :
    repair bs = (units bs).flatMap fun u => String.utf8EncodeChar (u.getD '\uFFFD') := by
  rw [repair, encode, decodeLossy, String.toList_ofList, List.flatMap_map]

@[simp] theorem repair_nil : repair [] = [] := by
  simp [repair_eq_flatMap, units]

theorem repair_cons (b : UInt8) (bs : Bytes) :
    repair (b :: bs) =
      String.utf8EncodeChar ((unit b bs).1.getD '\uFFFD') ++ repair (unit b bs).2 := by
  rw [repair_eq_flatMap, units_cons, List.flatMap_cons, ← repair_eq_flatMap]

theorem repair_eq_nil_iff {bs : Bytes} : repair bs = [] ↔ bs = [] := by
  cases bs with
  | nil => simp
  | cons b bs =>
    have hlength := String.length_utf8EncodeChar ((unit b bs).1.getD '\uFFFD')
    have hpos := Char.utf8Size_pos ((unit b bs).1.getD '\uFFFD')
    rw [repair_cons, List.append_eq_nil_iff, ← List.length_eq_zero_iff, hlength]
    exact ⟨fun h => absurd h.1 (Nat.ne_of_gt hpos), nofun⟩

/-! ## ASCII characters -/

theorem encodeChar_ascii : ∀ b : UInt8, b.toNat < 0x80 →
    String.utf8EncodeChar (Char.ofNat b.toNat) = [b] := by
  decide +kernel

/-- The bytes of a longer character are none of them ASCII. -/
theorem le_of_mem_encodeChar {c : Char} (hc : 0x80 ≤ c.toNat) {b : UInt8}
    (hb : b ∈ String.utf8EncodeChar c) : 0x80 ≤ b.toNat := by
  have hne : ¬ c.val.toNat ≤ 127 := Nat.not_le.2 hc
  -- the first byte and the following ones are of different forms, but all have the highest bit
  have hle : ∀ k n low, k < n → n + low ≤ 256 → 0x80 ≤ low → 0x80 ≤ (UInt8.ofNat (k + low)).toNat := by
    intro k n low hk hn hlow
    rw [UInt8.toNat_ofNat']
    omega
  simp only [String.utf8EncodeChar, if_neg hne] at hb
  split at hb
  · simp only [List.mem_cons, List.not_mem_nil, or_false] at hb
    rcases hb with rfl | rfl
    · exact hle _ 32 192 (Nat.mod_lt _ (by decide)) (by decide) (by decide)
    · exact hle _ 64 128 (Nat.mod_lt _ (by decide)) (by decide) (by decide)
  split at hb
  · simp only [List.mem_cons, List.not_mem_nil, or_false] at hb
    rcases hb with rfl | rfl | rfl
    · exact hle _ 16 224 (Nat.mod_lt _ (by decide)) (by decide) (by decide)
    · exact hle _ 64 128 (Nat.mod_lt _ (by decide)) (by decide) (by decide)
    · exact hle _ 64 128 (Nat.mod_lt _ (by decide)) (by decide) (by decide)
  · simp only [List.mem_cons, List.not_mem_nil, or_false] at hb
    rcases hb with rfl | rfl | rfl | rfl
    · exact hle _ 8 240 (Nat.mod_lt _ (by decide)) (by decide) (by decide)
    · exact hle _ 64 128 (Nat.mod_lt _ (by decide)) (by decide) (by decide)
    · exact hle _ 64 128 (Nat.mod_lt _ (by decide)) (by decide) (by decide)
    · exact hle _ 64 128 (Nat.mod_lt _ (by decide)) (by decide) (by decide)

theorem continuation_suffix (n code : Nat) (bs : Bytes) : (continuation n code bs).2 <:+ bs := by
  fun_induction continuation n code bs with
  | case1 code bs => exact List.suffix_rfl
  | case2 n code => exact List.suffix_rfl
  | case3 n code b bs hb ih => exact ih.trans (List.suffix_cons b bs)
  | case4 n code b bs hb => exact List.suffix_rfl

theorem unit_suffix (b : UInt8) (bs : Bytes) : (unit b bs).2 <:+ bs := by
  unfold unit
  split
  · exact List.suffix_rfl
  · split
    · split
      · exact (continuation_suffix ..).trans (List.suffix_cons ..)
      · exact List.suffix_rfl
    · exact List.suffix_rfl

/-- Each further byte adds six bits to what was read before. -/
theorem continuation_bounds {n code code' : Nat} {bs rest : Bytes}
    (h : continuation n code bs = (some code', rest)) :
    code * 64 ^ n ≤ code' ∧ code' < (code + 1) * 64 ^ n := by
  fun_induction continuation n code bs with
  | case1 code bs =>
    cases h
    omega
  | case2 n code => cases h
  | case3 n code b bs hb ih =>
    obtain ⟨hle, hlt⟩ := ih h
    have hsix : b.toNat % 64 < 64 := Nat.mod_lt _ (by decide)
    have hlower := Nat.mul_le_mul_right (64 ^ n) (show code * 64 ≤ code * 64 + b.toNat % 64 by omega)
    have hupper := Nat.mul_le_mul_right (64 ^ n)
      (show code * 64 + b.toNat % 64 + 1 ≤ (code + 1) * 64 by omega)
    rw [pow_succ', ← Nat.mul_assoc, ← Nat.mul_assoc]
    exact ⟨hlower.trans hle, hlt.trans_le hupper⟩
  | case4 n code b bs hb => cases h

theorem lead_bounds : ∀ b : UInt8, (lead b).isSome = true → 0xC2 ≤ b.toNat ∧ b.toNat < 0xF5 := by
  decide +kernel

theorem low_of_lead : ∀ b : UInt8, ∀ bounds ∈ lead b, 0x80 ≤ bounds.2.1.toNat := by
  decide +kernel

/-- What a first byte and a second one in its bounds lead to is a character, and not an ASCII one. -/
theorem isValidChar_of_lead {b low high : UInt8} {n second code : Nat}
    (hlead : lead b = some (n, low, high)) (hlow : low.toNat ≤ second) (hhigh : second ≤ high.toNat)
    (hle : (payload n b * 64 + second % 64) * 64 ^ (n - 1) ≤ code)
    (hlt : code < (payload n b * 64 + second % 64 + 1) * 64 ^ (n - 1)) :
    code.isValidChar ∧ 0x80 ≤ code := by
  obtain ⟨hfirst, hlast⟩ := lead_bounds b (by rw [hlead]; rfl)
  -- the bounds of the second byte keep out surrogates and what could be written in fewer bytes
  rcases Nat.lt_or_ge b.toNat 0xE0 with htwo | hthree
  · rw [lead_two b ⟨hfirst, htwo⟩] at hlead
    cases hlead
    simp [payload, Nat.isValidChar] at hle hlt hlow hhigh ⊢
    omega
  rcases Nat.lt_or_ge b.toNat 0xF0 with hthree' | hfour
  · rw [lead_three b ⟨hthree, hthree'⟩] at hlead
    cases hlead
    simp [payload, Nat.isValidChar] at hle hlt ⊢
    split at hlow <;> split at hhigh <;> simp at hlow hhigh <;> omega
  · rw [lead_four b ⟨hfour, hlast⟩] at hlead
    cases hlead
    simp [payload, Nat.isValidChar] at hle hlt ⊢
    split at hlow <;> split at hhigh <;> simp at hlow hhigh <;> omega

/-- No ASCII character is written in more than one byte. -/
theorem le_of_unit {b : UInt8} {bs rest : Bytes} {c : Char} (hb : 0x80 ≤ b.toNat)
    (h : unit b bs = (some c, rest)) : 0x80 ≤ c.toNat := by
  have hnot : ¬ b < 0x80 := by
    rw [UInt8.lt_iff_toNat_lt]
    exact Nat.not_lt.2 hb
  unfold unit at h
  rw [if_neg hnot] at h
  split at h
  · next n low high second bs hlead =>
    split at h
    · next hbounds =>
      rw [UInt8.le_iff_toNat_le, UInt8.le_iff_toNat_le] at hbounds
      generalize hread : continuation (n - 1) _ bs = read at h
      obtain ⟨code, rest⟩ := read
      cases code with
      | none => cases h
      | some code =>
        cases h
        obtain ⟨hle, hlt⟩ := continuation_bounds hread
        obtain ⟨hvalid, hlong⟩ := isValidChar_of_lead hlead hbounds.1 hbounds.2 hle hlt
        rw [Char.toNat_ofNat, if_pos hvalid]
        exact hlong
    · cases h
  · cases h

/-- Repair brings in no ASCII character. -/
theorem mem_of_mem_repair {x : UInt8} (hx : x.toNat < 0x80) {bs : Bytes} (h : x ∈ repair bs) :
    x ∈ bs := by
  induction bs using units.induct with
  | case1 => rwa [repair_nil] at h
  | case2 b bs ih =>
    rw [repair_cons, List.mem_append] at h
    rcases h with h | h
    · rcases Nat.lt_or_ge b.toNat 0x80 with hb | hb
      · rw [unit_ascii hb, Option.getD_some, encodeChar_ascii b hb, List.mem_singleton] at h
        rw [h]
        exact List.mem_cons_self
      · -- the character is a longer one, or it stands for junk
        refine absurd (le_of_mem_encodeChar ?_ h) (Nat.not_le.2 hx)
        cases hunit : (unit b bs).1 with
        | none => exact (by decide : 0x80 ≤ '\uFFFD'.toNat)
        | some c => exact le_of_unit hb (Prod.ext hunit rfl)
    · exact List.mem_cons_of_mem _ ((unit_suffix b bs).subset (ih h))

section

variable {x : UInt8} (hx : x.toNat < 0x80) (rest : Bytes)

include hx

theorem continuation_append_ascii (n code : Nat) (bs : Bytes) :
    continuation n code (bs ++ x :: rest) =
      ((continuation n code bs).1, (continuation n code bs).2 ++ x :: rest) := by
  fun_induction continuation n code bs with
  | case1 code bs => rfl
  | case2 n code =>
    have hnot : ¬ (0x80 ≤ x ∧ x ≤ 0xBF) := by
      rw [UInt8.le_iff_toNat_le]
      exact fun h => Nat.not_le.2 hx h.1
    rw [List.nil_append, continuation, if_neg hnot]
  | case3 n code b bs hb ih => rw [List.cons_append, continuation, if_pos hb, ih]
  | case4 n code b bs hb => rw [List.cons_append, continuation, if_neg hb]

theorem unit_append_ascii (b : UInt8) (bs : Bytes) :
    unit b (bs ++ x :: rest) = ((unit b bs).1, (unit b bs).2 ++ x :: rest) := by
  unfold unit
  split
  · rfl
  cases hlead : lead b with
  | none => rfl
  | some bounds =>
    obtain ⟨n, low, high⟩ := bounds
    cases bs with
    | nil =>
      -- an ASCII byte ends a character that has begun, as the end of the text does
      have hnot : ¬ (low ≤ x ∧ x ≤ high) := by
        rw [UInt8.le_iff_toNat_le]
        exact fun h => Nat.not_le.2 hx ((low_of_lead b _ hlead).trans h.1)
      rw [List.nil_append]
      dsimp only
      rw [if_neg hnot]
    | cons c bs =>
      rw [List.cons_append]
      dsimp only
      split
      · rw [continuation_append_ascii hx]
      · rfl

/-- A character in front of which the bytes are cut is not part of a longer one. -/
theorem units_append_ascii (bs : Bytes) :
    units (bs ++ x :: rest) = units bs ++ some (Char.ofNat x.toNat) :: units rest := by
  induction bs using units.induct with
  | case1 => simp [units_cons, unit_ascii hx, units]
  | case2 b bs ih =>
    rw [List.cons_append, units_cons, unit_append_ascii hx, ih, units_cons, List.cons_append]

/-- Repair goes piece by piece between ASCII characters. -/
theorem repair_append_ascii (bs : Bytes) :
    repair (bs ++ x :: rest) = repair bs ++ x :: repair rest := by
  rw [repair_eq_flatMap, units_append_ascii hx, List.flatMap_append, List.flatMap_cons,
    ← repair_eq_flatMap, ← repair_eq_flatMap, Option.getD_some, encodeChar_ascii x hx,
    List.singleton_append]

end

/-- ASCII bytes are text. -/
theorem repair_of_ascii {bs : Bytes} (h : ∀ b ∈ bs, b.toNat < 0x80) : repair bs = bs := by
  induction bs with
  | nil => exact repair_nil
  | cons b bs ih =>
    rw [repair_cons, unit_ascii (h b List.mem_cons_self), Option.getD_some,
      encodeChar_ascii b (h b List.mem_cons_self), ih fun c hc => h c (List.mem_cons_of_mem b hc),
      List.singleton_append]

end Utf8

end Gateway
