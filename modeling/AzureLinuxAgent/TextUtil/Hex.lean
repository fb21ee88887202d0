import AzureLinuxAgent.TextUtil.Unpack
import Mathlib.Data.Nat.Digits

/-!
# Hexadecimal text of byte strings

`hex_dump3` writes `'%02X'` for every byte of a slice and `hex_dump2` applies it to a whole
buffer; `hexstr_to_bytearray` reads the text back two digits at a time with `int(..., 16)` and
packs each value with `struct.pack("B", ...)`.

`hex_round_trip` states that the two are inverse over the whole format: decoding an encoding
gives the bytes back, and encoding the decoding of an even-length string of hexadecimal digits
gives the string in upper case. Both rest on `formatHex02_lt`, the fact that `'%02X'` writes
exactly two digits for every byte, and on `hexLoop_cons`, which peels the first two
digits off the decoder's index loop.

`hexstrToBytearray_reads_pairs` reads the decoder on any text: it never looks past the last
full pair, so the last character of an odd-length text is dropped without an error, and every
result has one byte a pair.
-/

namespace AzureLinuxAgent

namespace TextUtil

open Python

/-- `hex_dump3(buf, offset, length)`: `'%02X'` of every byte of `buf[offset:offset + length]`,
joined. -/
def hexDump3 (buf : List UInt8) (offset length : Int) : String :=
  ⟨(slice buf offset (offset + length)).flatMap fun c => (formatHex02 (strToOrd c)).data⟩

/-- `hex_dump2(buf)`. -/
def hexDump2 (buf : List UInt8) : String := hexDump3 buf 0 buf.length

/-- `struct.pack("B", v)`: one unsigned byte, or `struct.error` out of range. -/
def structPackB (v : Int) : Except PyError UInt8 :=
  if 0 ≤ v ∧ v < 256 then .ok v.toNat.toUInt8 else .error .structError

/-- One pass of the loop of `hexstr_to_bytearray`: append the byte that the digits at `2c` and
`2c + 1` stand for. -/
def hexstrStep (a : List Char) (b : List UInt8) (c : Int) : Except PyError (List UInt8) := do
  let v ← intBase16 ⟨slice a (c * 2) (c * 2 + 2)⟩
  let byte ← structPackB v
  pure (b ++ [byte])

/-- `hexstr_to_bytearray(a)`. -/
def hexstrToBytearray (a : String) : Except PyError (List UInt8) :=
  (range 0 (a.length / 2 : Nat)).foldlM (hexstrStep a.data) []

/-! ## Two digits a byte -/

/-- The upper-case digit of a value below 16. -/
def hexUpper (d : Nat) : Char := (Nat.digitChar d).toUpper

/-- `'%02X'` writes exactly two digits for every byte. -/
lemma formatHex02_lt {n : Nat} (h : n < 256) :
    (formatHex02 n).data = [hexUpper (n / 16), hexUpper (n % 16)] := by
  rcases Nat.lt_or_ge n 16 with hn | hn
  · have : Nat.toDigits 16 n = [Nat.digitChar n] := by
      simp [Nat.toDigits, Nat.toDigitsCore, Nat.div_eq_of_lt hn, Nat.mod_eq_of_lt hn]
    simp [formatHex02, formatHex, this, hexUpper, Nat.div_eq_of_lt hn, Nat.mod_eq_of_lt hn]
    rfl
  · obtain ⟨m, rfl⟩ : ∃ m, n = m + 1 := ⟨n - 1, by omega⟩
    have h1 : (m + 1) / 16 / 16 = 0 := by omega
    have h2 : (m + 1) / 16 ≠ 0 := by omega
    have : Nat.toDigits 16 (m + 1) = [Nat.digitChar ((m + 1) / 16), Nat.digitChar ((m + 1) % 16)] := by
      simp [Nat.toDigits, Nat.toDigitsCore, h1, h2, Nat.mod_eq_of_lt (show (m + 1) / 16 < 16 by omega)]
    simp [formatHex02, formatHex, this, hexUpper]

/-- Every upper-case digit reads back as its value. -/
lemma hexDigitValue_hexUpper {d : Nat} (h : d < 16) : hexDigitValue (hexUpper d) = some d := by
  rcases d with _ | _ | _ | _ | _ | _ | _ | _ | _ | _ | _ | _ | _ | _ | _ | _ | d
  all_goals first | rfl | omega

/-- A character is a hexadecimal digit, in either case. -/
def isHexDigit (c : Char) : Bool := (hexDigitValue c).isSome

/-- The value of a digit, `0` for any other character. -/
def hexValue (c : Char) : Nat := (hexDigitValue c).getD 0

lemma hexValue_lt (c : Char) : hexValue c < 16 := by
  unfold hexValue hexDigitValue
  split_ifs with h1 h2 h3
  · have : c.toNat ≤ 57 := h1.2
    simp; omega
  · have : c.toNat ≤ 102 := h2.2
    simp; omega
  · have : c.toNat ≤ 70 := h3.2
    simp; omega
  · simp

/-- A digit is one of the three ASCII ranges. -/
lemma toNat_of_isHexDigit {c : Char} (h : isHexDigit c = true) :
    (48 ≤ c.toNat ∧ c.toNat ≤ 57) ∨ (97 ≤ c.toNat ∧ c.toNat ≤ 102) ∨
      (65 ≤ c.toNat ∧ c.toNat ≤ 70) := by
  unfold isHexDigit hexDigitValue at h
  split_ifs at h with h1 h2 h3
  · exact .inl ⟨h1.1, h1.2⟩
  · exact .inr (.inl ⟨h2.1, h2.2⟩)
  · exact .inr (.inr ⟨h3.1, h3.2⟩)
  · simp at h

lemma toNat_lt_of_isHexDigit {c : Char} (h : isHexDigit c = true) : c.toNat < 128 := by
  rcases toNat_of_isHexDigit h with h | h | h <;> omega

/-- The upper-case digit of a digit's value is the digit in upper case. -/
lemma hexUpper_hexValue {c : Char} (h : isHexDigit c = true) :
    hexUpper (hexValue c) = c.toUpper := by
  have ascii : ∀ n < 128, isHexDigit (Char.ofNat n) = true →
      hexUpper (hexValue (Char.ofNat n)) = (Char.ofNat n).toUpper := by decide
  have hlt := toNat_lt_of_isHexDigit h
  rw [← Char.ofNat_toNat c] at h ⊢
  exact ascii _ hlt h

lemma hexDigitValue_of_isHexDigit {c : Char} (h : isHexDigit c = true) :
    hexDigitValue c = some (hexValue c) := by
  unfold isHexDigit at h
  unfold hexValue
  cases hc : hexDigitValue c <;> simp_all

/-- `int(x, 16)` on two digits. -/
lemma intBase16_pair {x y : Char} (hx : isHexDigit x = true) (hy : isHexDigit y = true) :
    intBase16 ⟨[x, y]⟩ = .ok (16 * hexValue x + hexValue y : Nat) := by
  have hne : ∀ {c : Char} (d : Char), isHexDigit c = true → isHexDigit d = false → c ≠ d :=
    fun d hc hd h => by rw [h, hd] at hc; cases hc
  have hsp : ∀ {c : Char}, isHexDigit c = true → isSpace c = false := fun hc => by
    have := toNat_of_isHexDigit hc; simp [isSpace]; omega
  have hstrip : (strip ⟨[x, y]⟩).data = [x, y] := by simp [strip, hsp hx, hsp hy]
  have hsign : readSign [x, y] = (false, [x, y]) :=
    readSign.eq_3 _ (by simp [hne '-' hx rfl]) (by simp [hne '+' hx rfl])
  have hdigits : hexDigits [x, y] = some (16 * hexValue x + hexValue y) := by
    simp [hexDigits, hexDigitsTail, hexDigitValue_of_isHexDigit hx, hexDigitValue_of_isHexDigit hy]
  rw [intBase16, hstrip, hsign]
  dsimp only
  by_cases h0 : x = '0'
  · subst h0; simp [hne 'x' hy rfl, hne 'X' hy rfl, hdigits]
  · split <;> simp_all

/-- A byte written as two digits is the byte. -/
lemma toUInt8_digits (x : UInt8) : (16 * (x.toNat / 16) + x.toNat % 16).toUInt8 = x :=
  UInt8.toNat.inj (by rw [Nat.div_add_mod]; exact UInt8.toNat_ofNat_of_lt x.toNat_lt_size)

/-- `struct.pack("B", ...)` of a value below 256. -/
lemma structPackB_natCast {n : Nat} (h : n < 256) : structPackB n = .ok n.toUInt8 := by
  simp [structPackB, h]

/-- The first two characters, as the slice `[0:2]`. -/
lemma slice_first_pair (x y : Char) (rest : List Char) :
    slice (x :: y :: rest) (((0 : Nat) : Int) * 2) (((0 : Nat) : Int) * 2 + 2) = [x, y] := by
  have h := slice_natCast (x :: y :: rest) 0 2
  simp only [Nat.cast_zero, Nat.cast_ofNat] at h
  simp only [Nat.cast_zero, zero_mul, zero_add, h, List.length_cons]
  rw [show min 2 (rest.length + 1 + 1) = 2 by omega, Nat.zero_min]
  rfl

/-- The loop pass on two digits appends the byte they stand for. -/
lemma hexstrStep_pair {x y : Char} (hx : isHexDigit x = true) (hy : isHexDigit y = true)
    (rest : List Char) (acc : List UInt8) :
    hexstrStep (x :: y :: rest) acc ((0 : Nat) : Int) =
      .ok (acc ++ [(16 * hexValue x + hexValue y).toUInt8]) := by
  have hv := hexValue_lt x
  have hw := hexValue_lt y
  simp only [hexstrStep, slice_first_pair, intBase16_pair hx hy, ok_bind,
    structPackB_natCast (show 16 * hexValue x + hexValue y < 256 by omega), pure_eq_ok]

/-- A later pass of the loop on `x :: y :: rest` is the pass before it on `rest`. -/
lemma hexstrStep_succ (x y : Char) (rest : List Char) (acc : List UInt8) (c : Nat) :
    hexstrStep (x :: y :: rest) acc ((c + 1 : Nat) : Int) = hexstrStep rest acc c := by
  have h := slice_cons_cons x y rest (c * 2) (c * 2 + 2)
  push_cast at h
  have e1 : ((c : Int) + 1) * 2 = (c : Int) * 2 + 2 := by ring
  have e2 : ((c : Int) + 1) * 2 + 2 = (c : Int) * 2 + 2 + 2 := by ring
  simp only [hexstrStep, Nat.cast_add, Nat.cast_one, e1, e2, h]

/-- The decoder's index loop over its first `k` passes, from the bytes `acc`. -/
def hexLoop (a : List Char) (acc : List UInt8) (k : Nat) : Except PyError (List UInt8) :=
  (List.range k).foldlM (fun b (c : Nat) => hexstrStep a b c) acc

lemma hexstrToBytearray_eq (a : String) :
    hexstrToBytearray a = hexLoop a.data [] (a.length / 2) := by
  rw [hexstrToBytearray, range_zero_natCast, List.foldlM_map]
  rfl

/-- The loop on `x :: y :: rest` reads the first two digits, then runs on `rest`. -/
lemma hexLoop_cons (x y : Char) (rest : List Char) (acc : List UInt8) (k : Nat) :
    hexLoop (x :: y :: rest) acc (k + 1) =
      hexstrStep (x :: y :: rest) acc ((0 : Nat) : Int) >>= fun b => hexLoop rest b k := by
  simp only [hexLoop, List.range_succ_eq_map, List.foldlM_cons, List.foldlM_map,
    Nat.succ_eq_add_one, hexstrStep_succ]

/-! ## The round trip -/

/-- The two digits `'%02X'` writes for a byte. -/
def hexPair (x : UInt8) : List Char := [hexUpper (x.toNat / 16), hexUpper (x.toNat % 16)]

/-- `hex_dump2` writes two digits a byte. -/
lemma hexDump2_data (b : List UInt8) : (hexDump2 b).data = b.flatMap hexPair := by
  simp only [hexDump2, hexDump3, zero_add, slice_zero_length, strToOrd]
  congr 1
  funext x
  exact formatHex02_lt x.toNat_lt_size

lemma hexValue_hexUpper {d : Nat} (h : d < 16) : hexValue (hexUpper d) = d := by
  simp [hexValue, hexDigitValue_hexUpper h]

lemma isHexDigit_hexUpper {d : Nat} (h : d < 16) : isHexDigit (hexUpper d) = true := by
  simp [isHexDigit, hexDigitValue_hexUpper h]

lemma length_flatMap_hexPair (b : List UInt8) : (b.flatMap hexPair).length = 2 * b.length := by
  induction b with
  | nil => rfl
  | cons x b ih => simp [hexPair, ih]; omega

/-- The decoder's loop reads back the bytes of the digits `hex_dump2` wrote. -/
lemma hexLoop_hexPair (b acc : List UInt8) :
    hexLoop (b.flatMap hexPair) acc b.length = .ok (acc ++ b) := by
  induction b generalizing acc with
  | nil => simp [hexLoop]
  | cons x b ih =>
    have hi : x.toNat / 16 < 16 := by
      have := x.toNat_lt_size
      have : UInt8.size = 256 := rfl
      omega
    have hj : x.toNat % 16 < 16 := Nat.mod_lt _ (by decide)
    rw [List.flatMap_cons, List.length_cons, hexPair, List.cons_append, List.cons_append,
      List.nil_append, hexLoop_cons, hexstrStep_pair (isHexDigit_hexUpper hi) (isHexDigit_hexUpper hj),
      ok_bind, ih, hexValue_hexUpper hi, hexValue_hexUpper hj, toUInt8_digits]
    simp

/-- The bytes a string of hexadecimal digits stands for, two digits a byte. -/
def hexPairs : List Char → List UInt8
  | x :: y :: rest => (16 * hexValue x + hexValue y).toUInt8 :: hexPairs rest
  | _ => []

/-- On hexadecimal digits the decoder's loop reads `hexPairs`. -/
lemma hexLoop_hexPairs (s : List Char) (hs : ∀ c ∈ s, isHexDigit c = true) (acc : List UInt8) :
    hexLoop s acc (s.length / 2) = .ok (acc ++ hexPairs s) := by
  induction s using hexPairs.induct generalizing acc with
  | case1 x y rest ih =>
    have hx := hs x (by simp)
    have hy := hs y (by simp)
    rw [List.length_cons, List.length_cons, show (rest.length + 1 + 1) / 2 = rest.length / 2 + 1 by omega,
      hexLoop_cons, hexstrStep_pair hx hy, ok_bind, ih (fun c hc => hs c (by simp [hc])), hexPairs]
    simp
  | case2 s hs' =>
    match s, hs' with
    | [], _ => simp [hexLoop, hexPairs]
    | [_], _ => simp [hexLoop, hexPairs]
    | x :: y :: rest, h => exact absurd rfl (h x y rest)

/-- Writing the bytes of an even-length string of digits gives the digits in upper case. -/
lemma hexDump2_hexPairs (s : List Char) (he : s.length % 2 = 0)
    (hs : ∀ c ∈ s, isHexDigit c = true) : (hexDump2 (hexPairs s)).data = s.map Char.toUpper := by
  rw [hexDump2_data]
  induction s using hexPairs.induct with
  | case1 x y rest ih =>
    have hx := hs x (by simp)
    have hy := hs y (by simp)
    have hv : (16 * hexValue x + hexValue y).toUInt8.toNat = 16 * hexValue x + hexValue y := by
      have := hexValue_lt x; have := hexValue_lt y
      exact UInt8.toNat_ofNat_of_lt (by simp [UInt8.size]; omega)
    have h1 : (16 * hexValue x + hexValue y) / 16 = hexValue x := by
      have := hexValue_lt y; omega
    have h2 : (16 * hexValue x + hexValue y) % 16 = hexValue y := by
      have := hexValue_lt y; omega
    simp only [hexPairs, List.flatMap_cons, hexPair, hv, h1, h2, hexUpper_hexValue hx,
      hexUpper_hexValue hy, List.map_cons]
    rw [ih (by simp at he; omega) (fun c hc => hs c (by simp [hc]))]
    rfl
  | case2 s hs' =>
    match s, hs', he with
    | [], _, _ => rfl
    | [_], _, he => simp at he
    | x :: y :: rest, h, _ => exact absurd rfl (h x y rest)

/-- `hex_dump2` and `hexstr_to_bytearray` are inverse: decoding an encoding gives the bytes back,
and encoding the decoding of an even-length string of hexadecimal digits gives it in upper
case. -/
theorem hex_round_trip :
    (∀ b : List UInt8, hexstrToBytearray (hexDump2 b) = .ok b) ∧
      ∀ s : String, s.length % 2 = 0 → (∀ c ∈ s.data, isHexDigit c = true) →
        hexDump2 <$> hexstrToBytearray s = .ok (asciiUpper s) := by
  refine ⟨fun b => ?_, fun s he hs => ?_⟩
  · have hlen : (hexDump2 b).length / 2 = b.length := by
      show (hexDump2 b).data.length / 2 = _
      rw [hexDump2_data, length_flatMap_hexPair]
      omega
    rw [hexstrToBytearray_eq, hlen, hexDump2_data, hexLoop_hexPair]
    rfl
  · rw [hexstrToBytearray_eq, show s.length = s.data.length from rfl, hexLoop_hexPairs s.data hs]
    show Except.ok (hexDump2 ([] ++ hexPairs s.data)) = _
    rw [List.nil_append, asciiUpper, ← hexDump2_hexPairs s.data he hs]

theorem hex_round_trip_mixed_case :
    ("0aFf".length % 2 = 0 ∧ ∀ c ∈ "0aFf".data, isHexDigit c = true) ∧
      hexDump2 <$> hexstrToBytearray "0aFf" = .ok "0AFF" :=
  ⟨⟨by decide, by decide⟩, hex_round_trip.2 "0aFf" (by decide) (by decide)⟩

/-! ## Any text -/

/-- A pass that succeeds appends one byte. -/
lemma hexstrStep_length {a : List Char} {b r : List UInt8} {c : Int} (h : hexstrStep a b c = .ok r) :
    r.length = b.length + 1 := by
  obtain ⟨v, -, h⟩ := bind_eq_ok.1 h
  obtain ⟨x, -, h⟩ := bind_eq_ok.1 h
  cases h
  simp

/-- A pass reads nothing past the two characters it decodes. -/
lemma hexstrStep_take (a : List Char) (b : List UInt8) {c n : Nat} (h : c * 2 + 2 ≤ n) :
    hexstrStep (a.take n) b c = hexstrStep a b c := by
  have := slice_take a (i := c * 2) (j := c * 2 + 2) (by omega) h
  push_cast at this
  simp only [hexstrStep, this]

/-- The loop over `k + 1` passes is the loop over `k`, then pass `k`. -/
lemma hexLoop_succ (a : List Char) (acc : List UInt8) (k : Nat) :
    hexLoop a acc (k + 1) = hexLoop a acc k >>= fun b => hexstrStep a b k := by
  simp only [hexLoop, List.range_succ, List.foldlM_append, List.foldlM_cons, List.foldlM_nil, bind_pure]

/-- The first `k` passes read nothing past the first `2k` characters. -/
lemma hexLoop_take (a : List Char) (acc : List UInt8) (k : Nat) :
    ∀ n, k * 2 ≤ n → hexLoop (a.take n) acc k = hexLoop a acc k := by
  induction k with
  | zero => intro n _; simp only [hexLoop, List.range_zero, List.foldlM_nil]
  | succ k ih =>
    intro n hn
    rw [hexLoop_succ, hexLoop_succ, ih n (by omega)]
    exact congrArg (hexLoop a acc k >>= ·) (funext fun b => hexstrStep_take a b (by omega))

/-- A loop that succeeds appends one byte a pass. -/
lemma hexLoop_length (a : List Char) (acc : List UInt8) (k : Nat) :
    ∀ b, hexLoop a acc k = .ok b → b.length = acc.length + k := by
  induction k with
  | zero => intro b h; cases h; rfl
  | succ k ih =>
    intro b h
    rw [hexLoop_succ] at h
    obtain ⟨b', hb', hstep⟩ := bind_eq_ok.1 h
    rw [hexstrStep_length hstep, ih b' hb', Nat.add_assoc]

/-- On any text, `hexstr_to_bytearray` reads the characters two at a time and nothing else: the
last character of a text of odd length is never read, a result it returns has one byte for each
pair, and on hexadecimal digits the result is the bytes of the pairs. -/
theorem hexstrToBytearray_reads_pairs (a : String) :
    hexstrToBytearray a = hexstrToBytearray ⟨a.data.take (a.length / 2 * 2)⟩ ∧
      (∀ b, hexstrToBytearray a = .ok b → b.length = a.length / 2) ∧
      ((∀ c ∈ a.data, isHexDigit c = true) → hexstrToBytearray a = .ok (hexPairs a.data)) := by
  have hlen : (⟨a.data.take (a.length / 2 * 2)⟩ : String).length / 2 = a.length / 2 := by
    show (a.data.take (a.length / 2 * 2)).length / 2 = _
    rw [List.length_take, show a.data.length = a.length from rfl]
    omega
  refine ⟨?_, fun b h => ?_, fun hs => ?_⟩
  · rw [hexstrToBytearray_eq, hexstrToBytearray_eq, hlen]
    exact (hexLoop_take a.data [] _ _ le_rfl).symm
  · rw [hexstrToBytearray_eq] at h
    simpa using hexLoop_length _ _ _ b h
  · rw [hexstrToBytearray_eq, show a.length = a.data.length from rfl, hexLoop_hexPairs a.data hs,
      List.nil_append]

/-- A text of odd length: its last character is never read, and the pair before it gives one
byte. -/
theorem hexstrToBytearray_reads_pairs_odd :
    (∀ c ∈ "abc".data, isHexDigit c = true) ∧ hexstrToBytearray "abc" = hexstrToBytearray "ab" ∧
      hexstrToBytearray "abc" = .ok [0xAB] :=
  ⟨by decide, (hexstrToBytearray_reads_pairs "abc").1.trans rfl,
    ((hexstrToBytearray_reads_pairs "abc").2.2 (by decide)).trans rfl⟩

end TextUtil

end AzureLinuxAgent
