import AzureLinuxAgent.Python.Str
import Mathlib.Algebra.BigOperators.Ring
import Mathlib.Tactic.Ring
import Mathlib.Tactic.Linarith

/-!
# Integers packed in byte strings (`textutil.unpack`)

`unpack(buf, offset, value_range)` folds the bytes `buf[offset + i]`, for `i` in `value_range`,
with `result = (result << 8) | byte`; the big-endian and little-endian readers pass the index
range upwards and downwards. `int_to_ip4_addr` prints a 32-bit value as a dotted quad by
shifting and masking.

The main result, `unpack_positional`, says that the shift-or fold is positional arithmetic
in base 256 (each byte is below 256, so the `|` never carries) and that printing a big-endian
word as an address gives back its four bytes in wire order.

`compare_bytes(a, b, start, length)` walks the same kind of index range and stops at the first
difference; `compareBytes_spec` says when it returns `True`, Python's negative offsets included,
and that inside both strings it is the equality of two slices.
-/

namespace AzureLinuxAgent

namespace TextUtil

open Python

/-- `str_to_ord(a)`: an element of a `bytes` value is already its integer. -/
def strToOrd (a : UInt8) : Nat := a.toNat

/-- `str_to_ord(a)` of a one-character string: `ord(a)`, its code point. -/
def strToOrdChar (a : Char) : Nat := a.toNat

/-- `unpack(buf, offset, value_range)`. -/
def unpack (buf : List UInt8) (offset : Int) (valueRange : List Int) : Except PyError Nat :=
  valueRange.foldlM (fun result i => do
    let b ← getItem buf (offset + i)
    pure ((result <<< 8) ||| strToOrd b)) 0

/-- `unpack_little_endian(buf, offset, length)`. -/
def unpackLittleEndian (buf : List UInt8) (offset length : Int) : Except PyError Nat :=
  unpack buf offset (rangeDown (length - 1) (-1))

/-- `unpack_big_endian(buf, offset, length)`. -/
def unpackBigEndian (buf : List UInt8) (offset length : Int) : Except PyError Nat :=
  unpack buf offset (range 0 length)

/-- The loop of `compare_bytes` over the offsets left: the first difference returns `False`. -/
def compareBytesLoop (a b : List UInt8) : List Int → Except PyError Bool
  | [] => .ok true
  | offset :: rest => do
    let x ← getItem a offset
    let y ← getItem b offset
    if strToOrd x ≠ strToOrd y then pure false else compareBytesLoop a b rest

/-- `compare_bytes(a, b, start, length)`. -/
def compareBytes (a b : List UInt8) (start length : Int) : Except PyError Bool :=
  compareBytesLoop a b (range start (start + length))

/-- `int_to_ip4_addr(a)`: `"%u.%u.%u.%u" % ((a >> 24) & 0xFF, ...)`; on a Python integer,
`& 0xFF` is the remainder modulo 256. -/
def intToIp4Addr (a : Int) : String :=
  let octet (k : Nat) : String := toString ((a >>> k) % 256)
  octet 24 ++ "." ++ octet 16 ++ "." ++ octet 8 ++ "." ++ octet 0

/-! ## The fold is positional arithmetic -/

section

variable (buf : List UInt8)

/-- The byte at position `i`, as a number. -/
def byteAt (i : Nat) : Nat := (buf.getD i 0).toNat

lemma byteAt_lt (i : Nat) : byteAt buf i < 256 := (buf.getD i 0).toNat_lt_size

/-- Shifting left by a byte and or-ing in a byte is multiplying by 256 and adding. -/
lemma shift_or_byte (r : Nat) (b : UInt8) : (r <<< 8) ||| strToOrd b = r * 256 + b.toNat := by
  rw [Nat.shiftLeft_eq, Nat.mul_comm, strToOrd, ← Nat.mul_add_lt_is_or b.toNat_lt_size]

/-- `unpack` over indices given as natural numbers inside the buffer is the base-256 fold of
the bytes. -/
lemma unpack_map_natCast (o : Nat) (l : List Nat) (h : ∀ i ∈ l, o + i < buf.length) :
    unpack buf o (l.map Int.ofNat) = .ok (l.foldl (fun r i => r * 256 + byteAt buf (o + i)) 0) := by
  rw [unpack, List.foldlM_map]
  refine foldlM_ok l 0 fun r i hi => ?_
  have hb := h i hi
  have hget : getItem buf ((o : Int) + Int.ofNat i) = .ok buf[o + i] := getItem_natCast buf hb
  rw [hget]
  show Except.ok ((r <<< 8) ||| strToOrd buf[o + i]) = _
  rw [shift_or_byte, byteAt, List.getD_eq_getElem?_getD, List.getElem?_eq_getElem hb]
  rfl

lemma range_zero_natCast (n : Nat) : range 0 n = (List.range n).map Int.ofNat := by
  simp only [range, sub_zero, Int.toNat_natCast, zero_add]
  rfl

end

/-- The big-endian value: `sum over k < n of buf[o+k] * 256^(n-1-k)`. -/
def bigEndianValue (buf : List UInt8) (o n : Nat) : Nat :=
  ∑ k ∈ Finset.range n, byteAt buf (o + k) * 256 ^ (n - 1 - k)

/-- The little-endian value: `sum over k < n of buf[o+k] * 256^k`. -/
def littleEndianValue (buf : List UInt8) (o n : Nat) : Nat :=
  ∑ k ∈ Finset.range n, byteAt buf (o + k) * 256 ^ k

lemma bigEndianValue_succ (buf : List UInt8) (o n : Nat) :
    bigEndianValue buf o (n + 1) = bigEndianValue buf o n * 256 + byteAt buf (o + n) := by
  rw [bigEndianValue, bigEndianValue, Finset.sum_range_succ, Finset.sum_mul]
  congr 1
  · apply Finset.sum_congr rfl
    intro k hk
    have : n + 1 - 1 - k = (n - 1 - k) + 1 := by simp at hk; omega
    rw [this, pow_succ, mul_assoc]
  · simp

lemma littleEndianValue_succ (buf : List UInt8) (o n : Nat) :
    littleEndianValue buf o (n + 1) = byteAt buf o + 256 * littleEndianValue buf (o + 1) n := by
  rw [littleEndianValue, littleEndianValue, Finset.sum_range_succ', Finset.mul_sum, add_comm]
  congr 1
  · simp
  · apply Finset.sum_congr rfl
    intro k _
    rw [pow_succ, show o + (k + 1) = o + 1 + k by omega]
    ring

lemma bigEndianValue_lt (buf : List UInt8) (o n : Nat) : bigEndianValue buf o n < 256 ^ n := by
  induction n with
  | zero => simp [bigEndianValue]
  | succ n ih =>
    rw [bigEndianValue_succ, pow_succ]
    have := byteAt_lt buf (o + n)
    nlinarith

lemma littleEndianValue_lt (buf : List UInt8) (o n : Nat) : littleEndianValue buf o n < 256 ^ n := by
  induction n generalizing o with
  | zero => simp [littleEndianValue]
  | succ n ih =>
    rw [littleEndianValue_succ, pow_succ]
    have := byteAt_lt buf o
    have := ih (o + 1)
    nlinarith

/-- `unpack_big_endian` reads the big-endian value. -/
lemma unpackBigEndian_eq (buf : List UInt8) (o n : Nat) (h : o + n ≤ buf.length) :
    unpackBigEndian buf o n = .ok (bigEndianValue buf o n) := by
  rw [unpackBigEndian, range_zero_natCast, unpack_map_natCast buf o _ (by simp; omega)]
  congr 1
  induction n with
  | zero => rfl
  | succ n ih => rw [List.range_succ, List.foldl_append, ih (by omega), bigEndianValue_succ]; rfl

/-- `unpack_little_endian` reads the little-endian value. -/
lemma unpackLittleEndian_eq (buf : List UInt8) (o n : Nat) (h : o + n ≤ buf.length) :
    unpackLittleEndian buf o n = .ok (littleEndianValue buf o n) := by
  rw [unpackLittleEndian, rangeDown_natCast, unpack_map_natCast buf o _ (by simp; omega),
    List.foldl_reverse]
  congr 1
  clear h
  induction n generalizing o with
  | zero => rfl
  | succ n ih =>
    have shift : (fun i r => r * 256 + byteAt buf (o + Nat.succ i)) =
        fun i r => r * 256 + byteAt buf (o + 1 + i) := by
      funext i r; rw [show o + Nat.succ i = o + 1 + i by omega]
    rw [List.range_succ_eq_map, List.foldr_cons, List.foldr_map, littleEndianValue_succ, shift,
      ih]
    rw [Nat.add_comm, Nat.mul_comm]; rfl

/-- Printing a four-byte big-endian word as an address gives its bytes in order. -/
lemma intToIp4Addr_bigEndianValue (buf : List UInt8) (o : Nat) :
    intToIp4Addr (bigEndianValue buf o 4) =
      toString (byteAt buf o) ++ "." ++ toString (byteAt buf (o + 1)) ++ "." ++
        toString (byteAt buf (o + 2)) ++ "." ++ toString (byteAt buf (o + 3)) := by
  have h0 := byteAt_lt buf o
  have h1 := byteAt_lt buf (o + 1)
  have h2 := byteAt_lt buf (o + 2)
  have h3 := byteAt_lt buf (o + 3)
  have hv : bigEndianValue buf o 4 =
      byteAt buf o * 2 ^ 24 + byteAt buf (o + 1) * 2 ^ 16 + byteAt buf (o + 2) * 2 ^ 8 +
        byteAt buf (o + 3) := by
    simp [bigEndianValue, Finset.sum_range_succ]
  have octet : ∀ k : Nat, ((bigEndianValue buf o 4 : Int) >>> k) % 256 =
      ((bigEndianValue buf o 4 / 2 ^ k % 256 : Nat) : Int) := by
    intro k; rw [Int.shiftRight_eq_div_pow]; push_cast; rfl
  have e24 : bigEndianValue buf o 4 / 2 ^ 24 % 256 = byteAt buf o := by omega
  have e16 : bigEndianValue buf o 4 / 2 ^ 16 % 256 = byteAt buf (o + 1) := by omega
  have e8 : bigEndianValue buf o 4 / 2 ^ 8 % 256 = byteAt buf (o + 2) := by omega
  have e0 : bigEndianValue buf o 4 / 2 ^ 0 % 256 = byteAt buf (o + 3) := by omega
  simp only [intToIp4Addr, octet, e24, e16, e8, e0]
  rfl

/-- The dotted quad `buf[o].buf[o+1].buf[o+2].buf[o+3]`. -/
def dottedQuad (buf : List UInt8) (o : Nat) : String :=
  toString (byteAt buf o) ++ "." ++ toString (byteAt buf (o + 1)) ++ "." ++
    toString (byteAt buf (o + 2)) ++ "." ++ toString (byteAt buf (o + 3))

/-- Inside the buffer both readers compute positional base-256 values, which stay below
`256 ^ n`, and a big-endian word printed by `int_to_ip4_addr` lists its four bytes in order. -/
theorem unpack_positional (buf : List UInt8) (o n : Nat) (h : o + n ≤ buf.length) :
    unpackBigEndian buf o n = .ok (bigEndianValue buf o n) ∧
      unpackLittleEndian buf o n = .ok (littleEndianValue buf o n) ∧
      bigEndianValue buf o n < 256 ^ n ∧ littleEndianValue buf o n < 256 ^ n ∧
      (n = 4 → (fun a : Nat => intToIp4Addr a) <$> unpackBigEndian buf o n =
        .ok (dottedQuad buf o)) := by
  refine ⟨unpackBigEndian_eq buf o n h, unpackLittleEndian_eq buf o n h, bigEndianValue_lt buf o n,
    littleEndianValue_lt buf o n, fun hn => ?_⟩
  subst hn
  rw [unpackBigEndian_eq buf o 4 h]
  exact congrArg Except.ok (intToIp4Addr_bigEndianValue buf o)

theorem unpack_positional_address :
    0 + 4 ≤ ([192, 168, 0, 1] : List UInt8).length ∧
      (fun a : Nat => intToIp4Addr a) <$> unpackBigEndian [192, 168, 0, 1] 0 4 = .ok "192.168.0.1" :=
  ⟨by decide, (unpack_positional [192, 168, 0, 1] 0 4 (by decide)).2.2.2.2 rfl⟩

/-! ## Comparing bytes -/

/-- The loop returns `True` exactly when both strings have an equal byte at every offset; an
offset out of range in either raises before that. -/
lemma compareBytesLoop_eq_ok_true (a b : List UInt8) (offsets : List Int) :
    compareBytesLoop a b offsets = .ok true ↔
      ∀ o ∈ offsets, ∃ x, getItem a o = .ok x ∧ getItem b o = .ok x := by
  induction offsets with
  | nil => simp [compareBytesLoop]
  | cons o rest ih =>
    rw [List.forall_mem_cons, ← ih]
    cases ha : getItem a o with
    | error e => simp [compareBytesLoop, ha]
    | ok x =>
      cases hb : getItem b o with
      | error e => simp [compareBytesLoop, ha, hb]
      | ok y =>
        by_cases hxy : x = y
        · subst hxy
          simp [compareBytesLoop, ha, hb]
        · have : strToOrd x ≠ strToOrd y := fun h => hxy (UInt8.toNat.inj h)
          simp [compareBytesLoop, ha, hb, this, hxy, Ne.symm hxy]

/-- At offsets that index both strings the loop returns a value. -/
lemma compareBytesLoop_isOk (a b : List UInt8) (offsets : List Int)
    (h : ∀ o ∈ offsets, (∃ x, getItem a o = .ok x) ∧ ∃ y, getItem b o = .ok y) :
    ∃ r, compareBytesLoop a b offsets = .ok r := by
  induction offsets with
  | nil => exact ⟨true, rfl⟩
  | cons o rest ih =>
    obtain ⟨⟨x, hx⟩, ⟨y, hy⟩⟩ := h o (List.mem_cons_self o rest)
    obtain ⟨r, hr⟩ := ih fun o' ho' => h o' (List.mem_cons_of_mem o ho')
    by_cases hxy : strToOrd x ≠ strToOrd y
    · exact ⟨false, by simp [compareBytesLoop, hx, hy, hxy]⟩
    · exact ⟨r, by simp [compareBytesLoop, hx, hy, hxy, hr]⟩

/-- `range(s, s + n)` for natural `s` and `n`: the offsets `s + k` for `k < n`. -/
lemma range_natCast_add (s n : Nat) :
    range (s : Int) (s + n) = (List.range n).map fun k : Nat => ((s + k : Nat) : Int) := by
  simp [range]

/-- Inside both strings, equal bytes at the offsets `range(s, s + n)` are equal slices. -/
lemma forall_range_getItem_iff (a b : List UInt8) {s n : Nat} (ha : s + n ≤ a.length)
    (hb : s + n ≤ b.length) :
    (∀ o ∈ range (s : Int) (s + n), ∃ x, getItem a o = .ok x ∧ getItem b o = .ok x) ↔
      (a.drop s).take n = (b.drop s).take n := by
  rw [range_natCast_add, List.forall_mem_map]
  simp only [List.mem_range]
  constructor
  · intro h
    apply List.ext_getElem (by simp; omega)
    intro k hk1 _
    have hk : k < n := by simp at hk1; omega
    have hka : s + k < a.length := by omega
    have hkb : s + k < b.length := by omega
    obtain ⟨x, hx, hy⟩ := h k hk
    rw [getItem_natCast a hka] at hx
    rw [getItem_natCast b hkb] at hy
    simpa only [List.getElem_take, List.getElem_drop] using
      (Except.ok.inj hx).trans (Except.ok.inj hy).symm
  · intro h k hk
    have hka : s + k < a.length := by omega
    have hkb : s + k < b.length := by omega
    refine ⟨a[s + k], getItem_natCast a hka, ?_⟩
    have hk' := congrArg (fun l => l[k]?) h
    simp only [List.getElem?_take, hk, if_true, List.getElem?_drop, List.getElem?_eq_getElem hka,
      List.getElem?_eq_getElem hkb] at hk'
    rw [getItem_natCast b hkb, Option.some.inj hk']

/-- `compare_bytes(a, b, start, length)` returns `True` exactly when every offset of
`range(start, start + length)` reads the same byte in both strings, Python's negative offsets
included; inside both strings it never raises, and it tests the slices `a[s:s + n]` and
`b[s:s + n]` for equality. -/
theorem compareBytes_spec (a b : List UInt8) (start length : Int) :
    (compareBytes a b start length = .ok true ↔
      ∀ o ∈ range start (start + length), ∃ x, getItem a o = .ok x ∧ getItem b o = .ok x) ∧
    ∀ s n : Nat, s + n ≤ a.length → s + n ≤ b.length →
      compareBytes a b s n = .ok (decide ((a.drop s).take n = (b.drop s).take n)) := by
  refine ⟨compareBytesLoop_eq_ok_true a b _, fun s n ha hb => ?_⟩
  obtain ⟨r, hr⟩ := compareBytesLoop_isOk a b (range s (s + n)) fun o ho => by
    rw [range_natCast_add] at ho
    obtain ⟨k, hk, rfl⟩ := List.mem_map.1 ho
    rw [List.mem_range] at hk
    exact ⟨⟨_, getItem_natCast a (show s + k < a.length by omega)⟩,
      ⟨_, getItem_natCast b (show s + k < b.length by omega)⟩⟩
  rw [compareBytes, hr]
  refine congrArg Except.ok (Bool.eq_iff_iff.2 ?_)
  rw [decide_eq_true_iff, ← forall_range_getItem_iff a b ha hb, ← compareBytesLoop_eq_ok_true, hr]
  exact ⟨fun h => h ▸ rfl, Except.ok.inj⟩

/-- Two strings that differ in their first byte compare equal on the two bytes after it. -/
theorem compareBytes_spec_middle :
    (1 + 2 ≤ ([1, 2, 3] : List UInt8).length ∧ 1 + 2 ≤ ([9, 2, 3] : List UInt8).length) ∧
      compareBytes [1, 2, 3] [9, 2, 3] 1 2 = .ok true :=
  ⟨⟨by decide, by decide⟩, ((compareBytes_spec [1, 2, 3] [9, 2, 3] 1 2).2 1 2 (by decide) (by decide)).trans
    (by decide)⟩

/-- Negative offsets count from the end, and an offset past either string raises. -/
example : compareBytes [1, 2, 3] [9, 2, 3] (-2) 2 = .ok true ∧
    compareBytes [1, 2] [1, 2, 3] 0 3 = .error .indexError := by
  decide

end TextUtil

end AzureLinuxAgent
