import AzureLinuxAgent.TextUtil.Hex

/-!
# The hex dump of a buffer

`hex_dump(buffer, size)` writes one line per sixteen bytes: the offset as `'%06X: '`, each byte
as `'%02X '` with one more blank after the eighth, blanks in place of the missing bytes of a
last short line, one blank, and then the bytes as characters, `'.'` for a byte that is not an
ASCII letter or digit.

## Main definitions

* `hexDump`: the function, with `hexDumpStep` the pass of its loop at one byte and
  `hexDumpPad` its padding loop.
* `linePrefix`, `dumpLines`: each line of the dump, cut before its character column.

## Main results

* `hexDump_eq_stepText`: with every byte it reads in the buffer, the dump is the text of each
  pass, in order.
* `flatMap_stepText_line`: the passes over one line write that line.
* `hexDump_lines`: the dump is its lines joined by newlines, one per sixteen bytes, and the
  character column of a line starts after 58 characters, except on a line of exactly eight
  bytes, where it starts after 59.
-/

namespace AzureLinuxAgent

namespace TextUtil

open Python

/-- `is_in_range(a, low, high)`: `low <= a <= high`. -/
def isInRange (a low high : Nat) : Bool := low ≤ a && a ≤ high

/-- `is_printable(ch)`: an ASCII letter or digit. -/
def isPrintable (ch : Nat) : Bool :=
  isInRange ch (strToOrdChar 'A') (strToOrdChar 'Z') ||
    isInRange ch (strToOrdChar 'a') (strToOrdChar 'z') ||
    isInRange ch (strToOrdChar '0') (strToOrdChar '9')

/-- The padding loop of `hex_dump` from `j`: three blanks a column and one more after the
eighth, until `j` ends a line of sixteen. It runs at most fifteen times, so the fuel `16` the
dump gives it is never the limit. -/
def hexDumpPad : Nat → Nat → String
  | 0, _ => ""
  | fuel + 1, j =>
    if (j + 1) % 16 ≠ 0 then "   " ++ (if j &&& 7 = 7 then " " else "") ++ hexDumpPad fuel (j + 1)
    else ""

/-- One pass of the loop that writes the character column: `chr(byte)` for a printable byte,
`'.'` for any other. -/
def hexDumpAsciiStep (buffer : List UInt8) (result : String) (j : Nat) : Except PyError String := do
  let byte ← getItem buffer j
  let k := if isPrintable byte.toNat then Char.ofNat byte.toNat else '.'
  pure (result.push k)

/-- One pass of the loop of `hex_dump`, at byte `i`. -/
def hexDumpStep (buffer : List UInt8) (size : Nat) (result : String) (i : Nat) :
    Except PyError String := do
  let result := if i % 16 = 0 then result ++ formatHex06 i ++ ": " else result
  let byte ← getItem buffer i
  let result := result ++ formatHex02 byte.toNat ++ " "
  let result := if i &&& 15 = 7 then result ++ " " else result
  if (i + 1) % 16 = 0 ∨ i + 1 = size then
    let result := result ++ hexDumpPad 16 i ++ " "
    let result ← (List.range' (i - i % 16) (i + 1 - (i - i % 16))).foldlM (hexDumpAsciiStep buffer) result
    pure (if i + 1 ≠ size then result ++ "\n" else result)
  else pure result

/-- `hex_dump(buffer, size)`; a negative size stands for the whole buffer. The loop index never
goes below zero, so it is a natural number here. -/
def hexDump (buffer : List UInt8) (size : Int) : Except PyError String :=
  let size := if size < 0 then (buffer.length : Int) else size
  (List.range size.toNat).foldlM (hexDumpStep buffer size.toNat) ""

/-! ## The lines of a dump -/

/-- The character a dump shows for a byte. -/
def hexDumpChar (byte : Nat) : Char := if isPrintable byte then Char.ofNat byte else '.'

/-- The hexadecimal columns of a line from column `m` on: two digits and a blank a byte, and a
second blank after the eighth column. -/
def hexColumns : Nat → List UInt8 → List Char
  | _, [] => []
  | m, b :: bs => (formatHex02 b.toNat).data ++ ' ' :: (if m = 7 then [' '] else []) ++ hexColumns (m + 1) bs

/-- The text of the line of the bytes `bs` at offset `o` before its character column: the
offset, the columns, the padding and a blank. -/
def linePrefix (o : Nat) (bs : List UInt8) : List Char :=
  (formatHex06 o).data ++ [':', ' '] ++ hexColumns 0 bs ++ (hexDumpPad 16 (o + bs.length - 1)).data ++ [' ']

/-- The lines of a dump whose first line is at offset `o`, one for each block of bytes: the text
before its character column, with the block. -/
def dumpLines : Nat → List (List UInt8) → List (List Char × List UInt8)
  | _, [] => []
  | o, bs :: B => (linePrefix o bs, bs) :: dumpLines (o + 16) B

/-- What the pass at byte `i` appends, when every byte it reads is in the buffer. -/
def stepText (buffer : List UInt8) (size i : Nat) : List Char :=
  (if i % 16 = 0 then (formatHex06 i).data ++ [':', ' '] else []) ++
    (formatHex02 (buffer.getD i 0).toNat).data ++ ' ' :: (if i &&& 15 = 7 then [' '] else []) ++
    if (i + 1) % 16 = 0 ∨ i + 1 = size then
      (hexDumpPad 16 i).data ++ ' ' ::
        (List.range' (i - i % 16) (i + 1 - (i - i % 16))).map (fun j => hexDumpChar (buffer.getD j 0).toNat) ++
        (if i + 1 ≠ size then ['\n'] else [])
    else []

/-! ## The loop, pass by pass -/

lemma getItem_natCast_getD {l : List UInt8} {i : Nat} (h : i < l.length) :
    getItem l i = .ok (l.getD i 0) := by
  rw [getItem_natCast l h, List.getD_eq_getElem?_getD, List.getElem?_eq_getElem h, Option.getD_some]

lemma hexDumpAscii_foldlM (buffer : List UInt8) (l : List Nat) (h : ∀ j ∈ l, j < buffer.length)
    (r : String) : l.foldlM (hexDumpAsciiStep buffer) r =
      .ok ⟨r.data ++ l.map fun j => hexDumpChar (buffer.getD j 0).toNat⟩ := by
  induction l generalizing r with
  | nil => simp
  | cons j l ih =>
    rw [List.foldlM_cons, hexDumpAsciiStep, getItem_natCast_getD (h j (List.mem_cons_self j l))]
    simp only [ok_bind, pure_eq_ok]
    rw [ih fun j' hj' => h j' (List.mem_cons_of_mem j hj')]
    simp [hexDumpChar]

/-- A pass whose byte is in the buffer appends `stepText`. -/
lemma hexDumpStep_eq (buffer : List UInt8) (size : Nat) (r : String) {i : Nat} (h : i < buffer.length) :
    hexDumpStep buffer size r i = .ok ⟨r.data ++ stepText buffer size i⟩ := by
  have hread : ∀ j ∈ List.range' (i - i % 16) (i + 1 - (i - i % 16)), j < buffer.length := by
    intro j hj
    rw [List.mem_range'_1] at hj
    omega
  rw [hexDumpStep, getItem_natCast_getD h]
  simp only [ok_bind, hexDumpAscii_foldlM buffer _ hread, stepText]
  split_ifs <;> simp only [pure_eq_ok, Except.ok.injEq, String.ext_iff, String.data_append, List.append_assoc,
    List.cons_append, List.nil_append, List.append_nil]

lemma foldl_stepText (buffer : List UInt8) (size : Nat) (l : List Nat) (r : String) :
    l.foldl (fun r i => (⟨r.data ++ stepText buffer size i⟩ : String)) r =
      ⟨r.data ++ l.flatMap (stepText buffer size)⟩ := by
  induction l generalizing r with
  | nil => simp
  | cons i l ih => simp [ih]

/-- With every byte it reads in the buffer, the dump is the text of each pass, in order. -/
lemma hexDump_eq_stepText (buffer : List UInt8) {n : Nat} (h : n ≤ buffer.length) :
    hexDump buffer n = .ok ⟨(List.range n).flatMap (stepText buffer n)⟩ := by
  have hn : ¬ (n : Int) < 0 := by omega
  simp only [hexDump, hn, if_false, Int.toNat_ofNat]
  rw [foldlM_ok _ _ fun r i hi => hexDumpStep_eq buffer n r (lt_of_lt_of_le (List.mem_range.1 hi) h),
    foldl_stepText]
  rfl

/-! ## One line -/

/-- The end of the line of `r` bytes at offset `o`: the padding, a blank, the character column,
and the newline of every line but the last. -/
def lineTail (buffer : List UInt8) (size o r : Nat) : List Char :=
  (hexDumpPad 16 (o + r - 1)).data ++ ' ' ::
    (List.range' o r).map (fun j => hexDumpChar (buffer.getD j 0).toNat) ++
    (if o + r ≠ size then ['\n'] else [])

/-- The pass at column `m` of the line at offset `o`. -/
lemma stepText_line (buffer : List UInt8) (size : Nat) {o m : Nat} (ho : o % 16 = 0) (hm : m < 16) :
    stepText buffer size (o + m) =
      (if m = 0 then (formatHex06 o).data ++ [':', ' '] else []) ++
        (formatHex02 (buffer.getD (o + m) 0).toNat).data ++ ' ' :: (if m = 7 then [' '] else []) ++
        if m + 1 = 16 ∨ o + (m + 1) = size then lineTail buffer size o (m + 1) else [] := by
  have h1 : (o + m) % 16 = m := by omega
  have h2 : (o + m) &&& 15 = m := by
    rw [show (15 : Nat) = 2 ^ 4 - 1 from rfl, Nat.and_pow_two_sub_one_eq_mod]
    omega
  have h3 : (o + m + 1) % 16 = 0 ↔ m + 1 = 16 := by omega
  have h4 : o + m + 1 - o = m + 1 := by omega
  unfold stepText lineTail
  rw [h1, h2, Nat.add_sub_cancel, h4]
  by_cases hm0 : m = 0
  · subst hm0
    simp only [↓reduceIte, add_zero, List.getD_eq_getElem?_getD, List.append_assoc, List.cons_append,
      List.singleton_append, h3, zero_add, OfNat.one_ne_ofNat, false_or, List.range'_one, List.map_cons,
      List.map_nil, ne_eq, ite_not, add_tsub_cancel_right]
  · have h3' : (o + (m + 1)) % 16 = 0 ↔ m = 15 := by omega
    simp only [hm0, ↓reduceIte, List.getD_eq_getElem?_getD, List.nil_append, Nat.add_assoc, h3', ne_eq,
      ite_not, List.append_assoc, List.cons_append, Nat.reduceEqDiff, Nat.add_succ_sub_one]

/-- The passes from column `m` to the end of the line of `r` bytes at offset `o`. -/
lemma flatMap_stepText_columns (buffer : List UInt8) (size : Nat) {o r : Nat} (ho : o % 16 = 0)
    (hr : r ≤ 16) (hn : o + r ≤ size) (hend : r = 16 ∨ o + r = size) :
    ∀ k m, m + k + 1 = r →
      (List.range' (o + m) (k + 1)).flatMap (stepText buffer size) =
        (if m = 0 then (formatHex06 o).data ++ [':', ' '] else []) ++
          hexColumns m ((List.range' (o + m) (k + 1)).map (buffer.getD · 0)) ++ lineTail buffer size o r
  | 0, m, hk => by
    have hend' : m + 1 = 16 ∨ o + (m + 1) = size := by omega
    simp only [List.range'_succ, List.range'_zero, List.flatMap_cons, List.flatMap_nil, List.map_cons,
      List.map_nil, hexColumns,
      stepText_line buffer size ho (show m < 16 by omega), hend', if_true, ← hk]
    simp
  | k + 1, m, hk => by
    have hmid : ¬ (m + 1 = 16 ∨ o + (m + 1) = size) := by omega
    rw [List.range'_succ, List.flatMap_cons, stepText_line buffer size ho (show m < 16 by omega),
      if_neg hmid, Nat.add_assoc, flatMap_stepText_columns buffer size ho hr hn hend k (m + 1) (by omega)]
    simp [hexColumns]

/-- The passes over the line of `r` bytes at offset `o` write that line, with its newline when it
is not the last. -/
lemma flatMap_stepText_line (buffer : List UInt8) (size : Nat) {o r : Nat} (ho : o % 16 = 0)
    (hr0 : 0 < r) (hr : r ≤ 16) (hn : o + r ≤ size) (hend : r = 16 ∨ o + r = size) :
    let bs := (List.range' o r).map (buffer.getD · 0)
    (List.range' o r).flatMap (stepText buffer size) =
      linePrefix o bs ++ bs.map (fun b => hexDumpChar b.toNat) ++ (if o + r ≠ size then ['\n'] else []) := by
  obtain ⟨k, rfl⟩ : ∃ k, r = k + 1 := ⟨r - 1, by omega⟩
  have h := flatMap_stepText_columns buffer size ho hr hn hend k 0 (by omega)
  simp only [Nat.add_zero, if_true] at h
  rw [h]
  simp [linePrefix, lineTail, List.map_map, Function.comp_def]

/-- The bytes a line reads, by index. -/
lemma map_getD_range' (l : List UInt8) {o r : Nat} (h : o + r ≤ l.length) :
    (List.range' o r).map (l.getD · 0) = (l.drop o).take r := by
  induction r generalizing o with
  | zero => simp
  | succ r ih =>
    rw [List.range'_succ, List.map_cons, ih (by omega), List.drop_eq_getElem_cons (by omega : o < l.length),
      List.take_succ_cons, List.getD_eq_getElem?_getD, List.getElem?_eq_getElem (by omega), Option.getD_some]

/-! ## The whole dump -/

lemma intercalate_cons_of_ne_nil {α : Type} (sep x : List α) {xs : List (List α)} (h : xs ≠ []) :
    List.intercalate sep (x :: xs) = x ++ sep ++ List.intercalate sep xs := by
  obtain ⟨y, ys, rfl⟩ := List.exists_cons_of_ne_nil h
  simp [List.intercalate]

lemma dumpLines_ne_nil {o : Nat} {B : List (List UInt8)} (h : B ≠ []) : dumpLines o B ≠ [] := by
  obtain ⟨b, B, rfl⟩ := List.exists_cons_of_ne_nil h
  simp [dumpLines]

/-- The passes over `16 * q + r` bytes from offset `o` to the end write the lines of their
blocks, joined by newlines. -/
lemma flatMap_stepText_lines (buffer : List UInt8) {n : Nat} (hn : n ≤ buffer.length) (r : Nat)
    (hr0 : 0 < r) (hr : r ≤ 16) : ∀ q o, o % 16 = 0 → o + (16 * q + r) = n →
      (List.range' o (16 * q + r)).flatMap (stepText buffer n) =
        List.intercalate ['\n'] ((dumpLines o (blocks 16 ((buffer.drop o).take (16 * q + r)))).map
          fun l => l.1 ++ l.2.map fun b => hexDumpChar b.toNat)
  | 0, o, ho, hq => by
    rw [Nat.mul_zero, Nat.zero_add, flatMap_stepText_line buffer n ho hr0 hr (by omega) (.inr (by omega)),
      map_getD_range' buffer (by omega), blocks_of_length_le (by simp only [List.length_take, List.length_drop]; omega)
        (by simp only [List.length_take, List.length_drop]; omega)]
    simp only [List.map_take, List.map_drop, show o + r = n by omega, ne_eq, not_true_eq_false, ↓reduceIte,
      List.append_nil, List.intercalate, dumpLines, List.map_cons, List.map_nil, List.intersperse_single,
      List.flatten_cons, List.flatten_nil]
  | q + 1, o, ho, hq => by
    have hlen : ((buffer.drop o).take 16).length = 16 := by simp only [List.length_take, List.length_drop]; omega
    have hsplit : (buffer.drop o).take (16 * q + r + 16) =
        (buffer.drop o).take 16 ++ (buffer.drop (o + 16)).take (16 * q + r) := by
      rw [Nat.add_comm, List.take_add, List.drop_drop]
    have hrest : blocks 16 ((buffer.drop (o + 16)).take (16 * q + r)) ≠ [] :=
      blocks_ne_nil (by simp only [List.length_take, List.length_drop]; omega) (by decide)
    rw [show 16 * (q + 1) + r = 16 * q + r + 16 by omega, ← List.range'_append_1, List.flatMap_append,
      flatMap_stepText_line buffer n ho (by decide) le_rfl (by omega) (.inl rfl),
      map_getD_range' buffer (by omega),
      flatMap_stepText_lines buffer hn r hr0 hr q (o + 16) (by omega) (by omega), hsplit,
      blocks_append _ hlen (by decide), dumpLines, List.map_cons,
      intercalate_cons_of_ne_nil _ _ (by simpa using dumpLines_ne_nil hrest)]
    simp only [List.map_take, List.map_drop, ne_eq, show o + 16 ≠ n by omega, not_false_eq_true, ↓reduceIte,
      List.append_assoc, List.singleton_append]

/-- A dump of at least one byte, all in the buffer, is its lines joined by newlines. -/
lemma hexDump_eq_lines (buffer : List UInt8) {n : Nat} (h0 : 0 < n) (hn : n ≤ buffer.length) :
    hexDump buffer n = .ok ⟨List.intercalate ['\n'] ((dumpLines 0 (blocks 16 (buffer.take n))).map
      fun l => l.1 ++ l.2.map fun b => hexDumpChar b.toNat)⟩ := by
  have hq : 16 * ((n - 1) / 16) + (n - 16 * ((n - 1) / 16)) = n := by omega
  have h := flatMap_stepText_lines buffer hn (n - 16 * ((n - 1) / 16)) (by omega) (by omega)
    ((n - 1) / 16) 0 rfl (by omega)
  rw [hq, List.drop_zero] at h
  rw [hexDump_eq_stepText buffer hn, List.range_eq_range', h]

/-! ## The width of a line -/

/-- The padding loop writes three blanks a column up to the end of the line, and one more if it
passes the eighth column. -/
lemma hexDumpPad_length : ∀ fuel j, 15 - j % 16 < fuel →
    (hexDumpPad fuel j).data.length = 3 * (15 - j % 16) + if j % 16 ≤ 7 then 1 else 0
  | 0, _, h => absurd h (Nat.not_lt_zero _)
  | fuel + 1, j, h => by
    have h7 : j &&& 7 = j % 8 := Nat.and_pow_two_sub_one_eq_mod j 3
    by_cases h1 : (j + 1) % 16 = 0
    · rw [hexDumpPad, if_neg (not_not.2 h1), if_neg (by omega)]
      show 0 = _
      omega
    · rw [hexDumpPad, if_pos h1, String.data_append, String.data_append, List.length_append,
        List.length_append, hexDumpPad_length fuel (j + 1) (by omega), h7]
      split_ifs <;> simp only [String.data, List.length_cons, List.length_nil] <;> omega

lemma hexColumns_length : ∀ (m : Nat) (bs : List UInt8),
    (hexColumns m bs).length = 3 * bs.length + if m ≤ 7 ∧ 7 < m + bs.length then 1 else 0
  | m, [] => by
    simp only [hexColumns, List.length_nil, Nat.add_zero]
    split_ifs <;> omega
  | m, b :: bs => by
    rw [hexColumns, List.length_append, List.length_cons, List.length_append,
      formatHex02_lt b.toNat_lt_size, hexColumns_length (m + 1) bs]
    split_ifs <;> simp <;> omega

/-- `'%0wX'` writes exactly `w` digits for a number below `16 ^ w`. -/
lemma formatHex_length {w n : Nat} (hw : 0 < w) (h : n < 16 ^ w) : (formatHex w n).data.length = w := by
  have := Nat.toDigitsCore_length 16 (by norm_num) (n + 1) n w h hw
  simp [formatHex, Nat.toDigits]
  omega

/-- The character column of a line of `r` bytes starts after `57 + [r ≥ 8] + [r ≤ 8]`
characters: after 58, except on a line of exactly eight bytes. -/
lemma linePrefix_length {o : Nat} {bs : List UInt8} (ho : o % 16 = 0) (h24 : o < 16 ^ 6)
    (h0 : 0 < bs.length) (h16 : bs.length ≤ 16) :
    (linePrefix o bs).length = if bs.length = 8 then 59 else 58 := by
  have hp := hexDumpPad_length 16 (o + bs.length - 1) (by omega)
  have hc := hexColumns_length 0 bs
  have hj : (o + bs.length - 1) % 16 = bs.length - 1 := by omega
  rw [hj] at hp
  simp only [linePrefix, List.length_append, formatHex06, formatHex_length (by norm_num) h24, hp, hc,
    List.length_cons, List.length_nil]
  split_ifs at hp hc ⊢ <;> omega

/-! ## No newline inside a line -/

lemma mem_toDigitsCore {b : Nat} (hb : 0 < b) : ∀ (fuel n : Nat) (acc : List Char) (c : Char),
    c ∈ Nat.toDigitsCore b fuel n acc → c ∈ acc ∨ ∃ d < b, c = Nat.digitChar d
  | 0, _, _, _, h => .inl h
  | fuel + 1, n, acc, c, h => by
    have hd : ∀ acc, c ∈ Nat.digitChar (n % b) :: acc → c ∈ acc ∨ ∃ d < b, c = Nat.digitChar d :=
      fun acc h => (List.mem_cons.1 h).elim (fun h => .inr ⟨_, Nat.mod_lt n hb, h⟩) .inl
    simp only [Nat.toDigitsCore] at h
    split_ifs at h
    · exact hd acc h
    · exact (mem_toDigitsCore hb fuel _ _ c h).elim (hd acc) .inr

lemma ne_newline_of_mem_formatHex {w n : Nat} {c : Char} (h : c ∈ (formatHex w n).data) : c ≠ '\n' := by
  have hup : ∀ d < 16, (Nat.digitChar d).toUpper ≠ '\n' := by decide
  simp only [formatHex, List.mem_append, List.mem_replicate, List.mem_map] at h
  rcases h with ⟨-, rfl⟩ | ⟨x, hx, rfl⟩
  · decide
  · rcases mem_toDigitsCore (by norm_num) _ _ _ x hx with h | ⟨d, hd, rfl⟩
    · exact absurd h (List.not_mem_nil x)
    · exact hup d hd

lemma newline_not_mem_hexDumpPad : ∀ fuel j, '\n' ∉ (hexDumpPad fuel j).data
  | 0, _ => List.not_mem_nil _
  | fuel + 1, j => by
    rw [hexDumpPad]
    split_ifs
    · simpa using newline_not_mem_hexDumpPad fuel (j + 1)
    · simpa using newline_not_mem_hexDumpPad fuel (j + 1)
    · exact List.not_mem_nil _

lemma newline_not_mem_hexColumns : ∀ (m : Nat) (bs : List UInt8), '\n' ∉ hexColumns m bs
  | _, [] => List.not_mem_nil _
  | m, b :: bs => by
    have := newline_not_mem_hexColumns (m + 1) bs
    have := @ne_newline_of_mem_formatHex 2 b.toNat '\n'
    rw [hexColumns, formatHex02]
    split_ifs <;> simp_all

lemma hexDumpChar_ne_newline (byte : Nat) : hexDumpChar byte ≠ '\n' := by
  have hlow : ∀ n < 123, isPrintable n = true → Char.ofNat n ≠ '\n' := by decide
  unfold hexDumpChar
  split_ifs with h
  · refine hlow byte ?_ h
    have e : isPrintable byte = ((65 ≤ byte && byte ≤ 90) || (97 ≤ byte && byte ≤ 122) ||
        (48 ≤ byte && byte ≤ 57)) := rfl
    rw [e] at h
    simp only [Bool.or_eq_true, Bool.and_eq_true, decide_eq_true_eq] at h
    omega
  · decide

/-- A line of the dump holds no newline. -/
lemma newline_not_mem_line (o : Nat) (bs : List UInt8) :
    '\n' ∉ linePrefix o bs ++ bs.map fun b => hexDumpChar b.toNat := by
  have h6 := @ne_newline_of_mem_formatHex 6 o '\n'
  have hc := newline_not_mem_hexColumns 0 bs
  have hp := newline_not_mem_hexDumpPad 16 (o + bs.length - 1)
  have hb := fun b => hexDumpChar_ne_newline (UInt8.toNat b)
  simp only [linePrefix, formatHex06, List.mem_append, List.mem_map] at h6 ⊢
  simp_all

/-! ## The lines of every dump -/

lemma dumpLines_map_snd : ∀ (o : Nat) (B : List (List UInt8)), (dumpLines o B).map Prod.snd = B
  | _, [] => rfl
  | o, bs :: B => congrArg (bs :: ·) (dumpLines_map_snd (o + 16) B)

/-- The `k`-th line of a dump is at offset `o + 16 k`. -/
lemma mem_dumpLines : ∀ {o : Nat} {B : List (List UInt8)} {l : List Char × List UInt8},
    l ∈ dumpLines o B → ∃ k < B.length, l.2 ∈ B ∧ l.1 = linePrefix (o + 16 * k) l.2
  | _, [], _, h => absurd h (List.not_mem_nil _)
  | o, bs :: B, l, h => by
    rcases List.mem_cons.1 h with rfl | h
    · exact ⟨0, by simp, List.mem_cons_self _ _, rfl⟩
    · obtain ⟨k, hk, hm, he⟩ := mem_dumpLines h
      refine ⟨k + 1, by simp [hk], List.mem_cons_of_mem _ hm, ?_⟩
      rw [he, show o + 16 + 16 * k = o + 16 * (k + 1) by omega]

/-- For `0 < size ≤ min(len(buffer), 2^24)`, `hex_dump(buffer, size)` is, line for line, one
line for each block of sixteen bytes of `buffer[:size]`: a text with no newline, then the bytes
as characters. That text is 58 characters long on every line but a line of exactly eight
bytes, where it is 59. -/
theorem hexDump_lines (buffer : List UInt8) (size : Nat) (h0 : 0 < size) (hsize : size ≤ buffer.length)
    (h24 : size ≤ 2 ^ 24) :
    ∃ (t : String) (lines : List (List Char × List UInt8)), hexDump buffer size = .ok t ∧
      t.data.splitOn '\n' = lines.map (fun l => l.1 ++ l.2.map fun b => hexDumpChar b.toNat) ∧
      lines.map Prod.snd = blocks 16 (buffer.take size) ∧
      ∀ l ∈ lines, l.1.length = if l.2.length = 8 then 59 else 58 := by
  have htake : (buffer.take size).length = size := by rw [List.length_take]; omega
  refine ⟨_, _, hexDump_eq_lines buffer h0 hsize, List.splitOn_intercalate _ _ ?_ ?_,
    dumpLines_map_snd 0 _, fun l hl => ?_⟩
  · simp only [List.mem_map]
    rintro _ ⟨l, hl, rfl⟩
    obtain ⟨k, -, -, he⟩ := mem_dumpLines hl
    exact he ▸ newline_not_mem_line _ _
  · simpa using dumpLines_ne_nil (blocks_ne_nil (by omega) (by norm_num))
  · obtain ⟨k, hk, hb, he⟩ := mem_dumpLines hl
    have hlen := length_of_mem_blocks hb
    have hk' : 16 * k < size := by
      simp only [blocks, List.length_map, List.length_range, htake] at hk
      omega
    rw [he]
    exact linePrefix_length (by omega) (by norm_num at h24 ⊢; omega) hlen.1 hlen.2

theorem hexDump_lines_two_bytes :
    (0 < 2 ∧ 2 ≤ ([72, 105] : List UInt8).length ∧ 2 ≤ 2 ^ 24) ∧
      (hexDump [72, 105] 2).map (fun t => (t.data.splitOn '\n').map List.length) = .ok [60] := by
  obtain ⟨t, lines, ht, hsplit, hsnd, hlen⟩ := hexDump_lines [72, 105] 2 (by decide) (by decide) (by decide)
  rw [show blocks 16 (List.take 2 [72, 105]) = [[(72 : UInt8), 105]] by decide,
    List.map_eq_cons_iff] at hsnd
  obtain ⟨l, rest, rfl, hl2, hrest⟩ := hsnd
  obtain rfl : rest = [] := List.map_eq_nil_iff.1 hrest
  have hl1 := hlen l (List.mem_singleton_self l)
  rw [Nat.cast_ofNat] at ht
  refine ⟨by decide, ?_⟩
  rw [ht]
  show Except.ok ((t.data.splitOn '\n').map List.length) = _
  rw [hsplit]
  simp [hl1, hl2]

/-- On a dump whose last line holds exactly eight bytes the character column starts one place
later than on every other line: here after 59 characters, where a line of sixteen bytes has it
after 58. -/
theorem hexDump_eight_byte_line :
    hexDump [65, 66, 67, 68, 69, 70, 71, 72] 8 =
      .ok ⟨"000000: 41 42 43 44 45 46 47 48 ".data ++ List.replicate 27 ' ' ++ "ABCDEFGH".data⟩ := by
  decide

end TextUtil

end AzureLinuxAgent
