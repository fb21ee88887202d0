import Mathlib.Data.List.Sort

/-!
# Python built-ins used by the agent

The agent is Python 3. A Python `str` is a sequence of code points and is modelled as a Lean
`String`; a `bytes` value is a list of `UInt8`. The definitions below are the methods and
built-ins that the modelled functions call, each written from Python's documented behaviour,
together with the exceptions they raise.

Case mapping is the one place where Python consults the whole Unicode database. Every use of
`str.lower()` in the modelled code compares the result with ASCII words (`"match"`, the field
names of an extension event), and for that comparison only the characters whose lowercase is
an ASCII letter matter: the ASCII capitals and the Kelvin sign. `lowerChar` maps exactly those.
-/

namespace AzureLinuxAgent

/-- The built-in exceptions the modelled code can raise. -/
inductive PyError where
  | typeError
  | attributeError
  | indexError
  | keyError
  | valueError
  | unboundLocalError
  | structError
  | fileNotFoundError
  | permissionError
  | zeroDivisionError
  deriving DecidableEq, Repr

/-- Results of fallible code are compared by value, so that they can be evaluated. -/
instance instDecidableEqExcept {ε α : Type} [DecidableEq ε] [DecidableEq α] :
    DecidableEq (Except ε α)
  | .ok a, .ok b => if h : a = b then isTrue (h ▸ rfl) else isFalse fun e => h (Except.ok.inj e)
  | .error a, .error b =>
    if h : a = b then isTrue (h ▸ rfl) else isFalse fun e => h (Except.error.inj e)
  | .ok _, .error _ => isFalse fun e => Except.noConfusion e
  | .error _, .ok _ => isFalse fun e => Except.noConfusion e

namespace Python

/-! ## Characters and strings -/

/-- `str.isspace()` on one code point: the characters Python treats as whitespace. -/
def isSpace (c : Char) : Bool :=
  let n := c.toNat
  (9 ≤ n && n ≤ 13) || (28 ≤ n && n ≤ 32) || n == 0x85 || n == 0xA0 || n == 0x1680 ||
    (0x2000 ≤ n && n ≤ 0x200A) || n == 0x2028 || n == 0x2029 || n == 0x202F ||
    n == 0x205F || n == 0x3000

/-- `str.strip()` with no argument: leading and trailing whitespace removed. -/
def strip (s : String) : String :=
  ⟨((s.data.dropWhile isSpace).reverse.dropWhile isSpace).reverse⟩

/-- `str.isspace()`: not empty, and every character white space. -/
def strIsspace (s : String) : Bool := !s.data.isEmpty && s.data.all isSpace

/-- `s.rstrip(chars)`: the trailing characters that are among `chars` removed. -/
def rstrip (s : String) (chars : List Char) : String :=
  ⟨(s.data.reverse.dropWhile fun c => decide (c ∈ chars)).reverse⟩

/-- The part of the Unicode character database that `re` consults beyond ASCII. It is not
part of the agent, so the model takes it as given. -/
structure UnicodeData where
  /-- Decimal digits (category Nd) outside ASCII. -/
  isDecimal : Char → Bool
  /-- Letters and digits (`str.isalnum`) outside ASCII. -/
  isAlnum : Char → Bool

/-- `\d` in a `str` pattern: the ASCII digits, and the decimal digits of the database. -/
def UnicodeData.digit (u : UnicodeData) (c : Char) : Bool :=
  ('0' ≤ c && c ≤ '9') || (128 ≤ c.toNat && u.isDecimal c)

/-- `\w` in a `str` pattern: ASCII letters, digits and `_`, and the letters and digits of the
database. -/
def UnicodeData.word (u : UnicodeData) (c : Char) : Bool :=
  c.isAlphanum || c == '_' || (128 ≤ c.toNat && u.isAlnum c)

/-- The lowercase of one code point, as far as it decides equality with ASCII text. -/
def lowerChar (c : Char) : Char :=
  if c.toNat = 0x212A then 'k' else c.toLower

/-- `str.lower()`. -/
def lower (s : String) : String := ⟨s.data.map lowerChar⟩

/-- `str.upper()` on ASCII text. -/
def asciiUpper (s : String) : String := ⟨s.data.map Char.toUpper⟩

/-- `str.startswith(p)`. -/
def startswith (s p : String) : Bool := p.data.isPrefixOf s.data

/-- `sub in s` on `str`: `sub` occurs in `s`, at some position. -/
def strContains (s sub : String) : Bool := s.data.tails.any fun t => sub.data.isPrefixOf t

/-- `s.split(sep)` with a one-character separator: the pieces between the separators, the
empty ones included. -/
def split (s : String) (sep : Char) : List String := (s.data.splitOn sep).map String.mk

/-- Python's `<=` on `str`: the lexicographic order of code points. -/
def strLe : List Char → List Char → Bool
  | [], _ => true
  | _ :: _, [] => false
  | a :: as, b :: bs => if a = b then strLe as bs else a < b

/-- `sorted(l)` on a list of `str`: ascending, and stable. -/
def sorted (l : List String) : List String :=
  l.insertionSort fun a b => strLe a.data b.data

/-- `l.sort(reverse=True)` on a list of `str`: descending, and stable. -/
def sortReverse (l : List String) : List String :=
  l.insertionSort fun a b => strLe b.data a.data

/-! ## Sequences -/

/-- `l[i]`: a negative index counts from the end, and an index out of range raises
`IndexError`. -/
def getItem {α : Type} (l : List α) (i : Int) : Except PyError α :=
  let j := if i < 0 then i + l.length else i
  if 0 ≤ j then
    match l.get? j.toNat with
    | some a => .ok a
    | none => .error .indexError
  else .error .indexError

/-- The position a slice bound stands for: negative counts from the end, and the result is
clamped to `[0, len]`. -/
def sliceBound (len : Nat) (i : Int) : Nat :=
  min (if i < 0 then i + len else i).toNat len

/-- `l[a:b]`. -/
def slice {α : Type} (l : List α) (a b : Int) : List α :=
  (l.drop (sliceBound l.length a)).take (sliceBound l.length b - sliceBound l.length a)

/-- `range(start, stop)`. -/
def range (start stop : Int) : List Int :=
  (List.range (stop - start).toNat).map fun (k : Nat) => start + (k : Int)

/-- `range(start, stop, -1)`. -/
def rangeDown (start stop : Int) : List Int :=
  (List.range (start - stop).toNat).map fun (k : Nat) => start - (k : Int)

/-! ## Numbers and their text -/

/-- `"%0wX" % n` for `n ≥ 0`: upper-case hexadecimal, zero-padded to `width` digits. -/
def formatHex (width n : Nat) : String :=
  let ds := (Nat.toDigits 16 n).map Char.toUpper
  ⟨List.replicate (width - ds.length) '0' ++ ds⟩

/-- `"%02X" % n`. -/
def formatHex02 (n : Nat) : String := formatHex 2 n

/-- `"%06X" % n`. -/
def formatHex06 (n : Nat) : String := formatHex 6 n

/-- The value of a hexadecimal digit, in either case. -/
def hexDigitValue (c : Char) : Option Nat :=
  if '0' ≤ c ∧ c ≤ '9' then some (c.toNat - '0'.toNat)
  else if 'a' ≤ c ∧ c ≤ 'f' then some (c.toNat - 'a'.toNat + 10)
  else if 'A' ≤ c ∧ c ≤ 'F' then some (c.toNat - 'A'.toNat + 10)
  else none

/-- `("_"? digit)*` after the digits read so far, whose value is `acc`. -/
def hexDigitsTail : Nat → List Char → Option Nat
  | acc, [] => some acc
  | acc, '_' :: c :: cs => (hexDigitValue c).bind fun d => hexDigitsTail (16 * acc + d) cs
  | acc, c :: cs => (hexDigitValue c).bind fun d => hexDigitsTail (16 * acc + d) cs

/-- `digit ("_"? digit)*`: the digits of a literal without a base prefix. -/
def hexDigits : List Char → Option Nat
  | c :: cs => (hexDigitValue c).bind fun d => hexDigitsTail d cs
  | [] => none

/-- `("_"? digit)+`: the digits after a `0x` prefix. -/
def hexDigitsAfterBase : List Char → Option Nat
  | '_' :: c :: cs => (hexDigitValue c).bind fun d => hexDigitsTail d cs
  | c :: cs => (hexDigitValue c).bind fun d => hexDigitsTail d cs
  | [] => none

/-- A leading sign: whether it is `-`, and the text after it. -/
def readSign : List Char → Bool × List Char
  | '-' :: r => (true, r)
  | '+' :: r => (false, r)
  | r => (false, r)

/-- `int(s, 16)`: surrounding whitespace, a sign, an optional `0x` prefix and digits separated
by single underscores. Python also accepts the non-ASCII decimal digits, which it maps to ASCII
first; the model reads ASCII digits only. -/
def intBase16 (s : String) : Except PyError Int :=
  let (neg, t) := readSign (strip s).data
  let v := match t with
    | '0' :: x :: r => if x = 'x' ∨ x = 'X' then hexDigitsAfterBase r else hexDigits t
    | _ => hexDigits t
  match v with
  | some n => .ok (if neg then -n else n)
  | none => .error .valueError

/-! ## Lemmas -/

@[simp] lemma ok_bind {ε α β : Type} (a : α) (f : α → Except ε β) :
    (Except.ok a >>= f) = f a := rfl

@[simp] lemma error_bind {ε α β : Type} (e : ε) (f : α → Except ε β) :
    (Except.error e >>= f) = Except.error e := rfl

@[simp] lemma pure_eq_ok {ε α : Type} (a : α) : (pure a : Except ε α) = Except.ok a := rfl

/-- A bind that succeeds: the first computation succeeded, and so did the rest on its value. -/
lemma bind_eq_ok {ε α β : Type} {x : Except ε α} {f : α → Except ε β} {b : β} :
    x >>= f = .ok b ↔ ∃ a, x = .ok a ∧ f a = .ok b := by
  cases x <;> simp

/-- `str.strip()` leaves a string without whitespace as it is. -/
lemma strip_of_no_space (s : String) (h : ∀ c ∈ s.data, isSpace c = false) : strip s = s := by
  have hd : ∀ l : List Char, (∀ c ∈ l, isSpace c = false) → l.dropWhile isSpace = l := by
    intro l hl
    cases l with
    | nil => rfl
    | cons c l => simp [List.dropWhile_cons, hl c (List.mem_cons_self c l)]
  rw [strip, hd s.data h, hd s.data.reverse (by simpa using h), List.reverse_reverse]

/-- Indexing with a natural number inside the list reads that element. -/
lemma getItem_natCast {α : Type} (l : List α) {i : Nat} (h : i < l.length) :
    getItem l i = .ok l[i] := by
  have : ¬ (i : Int) < 0 := by omega
  simp [getItem, this, List.getElem?_eq_getElem h]

/-- A natural-number slice bound is clamped to the length. -/
lemma sliceBound_natCast (len i : Nat) : sliceBound len i = min i len := by
  have : ¬ (i : Int) < 0 := by omega
  simp [sliceBound, this]

/-- A slice between natural-number bounds. -/
lemma slice_natCast {α : Type} (l : List α) (i j : Nat) :
    slice l i j = (l.drop (min i l.length)).take (min j l.length - min i l.length) := by
  have hi : ¬ (i : Int) < 0 := by omega
  have hj : ¬ (j : Int) < 0 := by omega
  simp [slice, sliceBound, hi, hj]

/-- The prefix slice `l[:n]`. -/
lemma slice_zero_natCast {α : Type} (l : List α) (n : Nat) : slice l 0 n = l.take n := by
  have h := slice_natCast l 0 n
  simp only [Int.ofNat_zero, Int.Nat.cast_ofNat_Int, Nat.zero_min, List.drop_zero, Nat.sub_zero] at h
  rw [h]
  rcases le_total n l.length with hl | hl
  · rw [min_eq_left hl]
  · rw [min_eq_right hl, List.take_of_length_le hl, List.take_of_length_le le_rfl]

/-- Dropping two leading elements shifts both bounds of a slice by two. -/
lemma slice_cons_cons {α : Type} (x y : α) (l : List α) (i j : Nat) :
    slice (x :: y :: l) ((i + 2 : Nat) : Int) ((j + 2 : Nat) : Int) = slice l i j := by
  rw [slice_natCast, slice_natCast]
  simp only [List.length_cons]
  rw [show min (i + 2) (l.length + 1 + 1) = min i l.length + 2 by omega,
    show min (j + 2) (l.length + 1 + 1) - (min i l.length + 2) =
      min j l.length - min i l.length by omega]
  rfl

/-- The tables of `UnicodeData` are consulted only on characters beyond ASCII. -/
lemma UnicodeData.digit_of_lt (u u' : UnicodeData) {c : Char} (hc : c.toNat < 128) :
    u.digit c = u'.digit c := by
  simp [UnicodeData.digit, not_le.2 hc]

/-- The tables of `UnicodeData` are consulted only on characters beyond ASCII. -/
lemma UnicodeData.word_of_lt (u u' : UnicodeData) {c : Char} (hc : c.toNat < 128) :
    u.word c = u'.word c := by
  simp [UnicodeData.word, not_le.2 hc]

/-- `reversed(range(0, n))`, the indices of a list of length `n` from the last. -/
lemma rangeDown_natCast (n : Nat) :
    rangeDown ((n : Int) - 1) (-1) = (List.range n).reverse.map Int.ofNat := by
  simp only [rangeDown, show ((n : Int) - 1 - -1).toNat = n by omega]
  apply List.ext_getElem (by simp)
  intro i h1 h2
  simp only [List.getElem_map, List.getElem_range, List.getElem_reverse, List.length_range,
    Int.ofNat_eq_coe]
  simp only [List.length_map, List.length_range] at h1
  omega

/-- The whole list, as a slice. -/
lemma slice_zero_length {α : Type} (l : List α) : slice l 0 l.length = l := by
  simpa using slice_natCast l 0 l.length

/-- A slice that ends within the first `n` elements reads the same after `take n`. -/
lemma slice_take {α : Type} (l : List α) {n i j : Nat} (hij : i ≤ j) (hj : j ≤ n) :
    slice (l.take n) i j = slice l i j := by
  rw [slice_natCast, slice_natCast, List.length_take, List.drop_take, List.take_take]
  have e1 : min i (min n l.length) = min i l.length := by omega
  have e2 : min j (min n l.length) = min j l.length := by omega
  have e3 : min (min j l.length - min i l.length) (n - min i l.length) = min j l.length - min i l.length := by omega
  rw [e1, e2, e3]

/-- Relabelling the exception keeps a success as it is. -/
@[simp] lemma mapError_eq_ok {ε ε' α : Type} (f : ε → ε') (x : Except ε α) (a : α) :
    x.mapError f = .ok a ↔ x = .ok a := by
  cases x <;> simp [Except.mapError]

/-- A property that every successful step of a monadic fold keeps holds of its result. -/
lemma foldlM_inv {α β ε : Type} {f : β → α → Except ε β} (P : β → Prop) (l : List α) (init r : β)
    (hstep : ∀ b a b', a ∈ l → P b → f b a = .ok b' → P b') (hinit : P init)
    (h : l.foldlM f init = .ok r) : P r := by
  induction l generalizing init with
  | nil => cases h; exact hinit
  | cons a l ih =>
    rw [List.foldlM_cons] at h
    obtain ⟨b, hb, hrest⟩ := bind_eq_ok.1 h
    exact ih b (fun b a' b' ha => hstep b a' b' (List.mem_cons_of_mem a ha))
      (hstep init a b (List.mem_cons_self a l) hinit hb) hrest

/-- A monadic fold whose every step succeeds is the pure fold. -/
lemma foldlM_ok {α β ε : Type} {f : β → α → Except ε β} {g : β → α → β} (l : List α) (init : β)
    (h : ∀ r, ∀ a ∈ l, f r a = .ok (g r a)) : l.foldlM f init = .ok (l.foldl g init) := by
  induction l generalizing init with
  | nil => rfl
  | cons a l ih =>
    rw [List.foldlM_cons, h init a (List.mem_cons_self a l)]
    exact ih _ fun r b hb => h r b (List.mem_cons_of_mem a hb)

/-- The characters of `str.join` over a list of strings, in order. -/
lemma data_foldl_append (l : List String) (r : String) :
    (l.foldl (· ++ ·) r).data = r.data ++ (l.map String.data).flatten := by
  induction l generalizing r with
  | nil => simp
  | cons s l ih => simp [ih]

lemma data_join (l : List String) : (String.join l).data = (l.map String.data).flatten :=
  data_foldl_append l ""

/-! ## Lists in blocks -/

/-- `l` cut into pieces of `w` elements from the left; the last piece is shorter when `w` does
not divide the length. -/
def blocks {α : Type} (w : Nat) (l : List α) : List (List α) :=
  (List.range ((l.length + w - 1) / w)).map fun k => (l.drop (k * w)).take w

@[simp] lemma blocks_nil {α : Type} (w : Nat) : blocks w ([] : List α) = [] := by
  cases w with
  | zero => simp [blocks]
  | succ w => simp [blocks, Nat.div_eq_of_lt (Nat.lt_succ_self w)]

/-- A list of at most `w` elements, not empty, is one block. -/
lemma blocks_of_length_le {α : Type} {w : Nat} {l : List α} (h0 : 0 < l.length) (h : l.length ≤ w) :
    blocks w l = [l] := by
  have hn : (l.length + w - 1) / w = 1 := Nat.div_eq_of_lt_le (by omega) (by omega)
  rw [blocks, hn]
  show [(l.drop (0 * w)).take w] = [l]
  rw [Nat.zero_mul, List.drop_zero, List.take_of_length_le h]

lemma blocks_ne_nil {α : Type} {w : Nat} {l : List α} (h0 : 0 < l.length) (hw : 0 < w) :
    blocks w l ≠ [] := by
  have hn : 0 < (l.length + w - 1) / w := Nat.div_pos (by omega) hw
  simp only [blocks, ne_eq, List.map_eq_nil_iff, List.range_eq_nil]
  omega

/-- Every block holds between one and `w` elements. -/
lemma length_of_mem_blocks {α : Type} {w : Nat} {l b : List α} (hb : b ∈ blocks w l) :
    0 < b.length ∧ b.length ≤ w := by
  simp only [blocks, List.mem_map, List.mem_range] at hb
  obtain ⟨k, hk, rfl⟩ := hb
  have hw : 0 < w := Nat.pos_of_ne_zero fun h => by simp [h] at hk
  have hkw := (Nat.le_div_iff_mul_le hw).1 hk
  rw [Nat.succ_mul] at hkw
  simp only [List.length_take, List.length_drop]
  omega

/-- A first block of `w` elements comes off the front. -/
lemma blocks_append {α : Type} {w : Nat} {b : List α} (rest : List α) (hb : b.length = w)
    (hw : 0 < w) : blocks w (b ++ rest) = b :: blocks w rest := by
  have hn : ((b ++ rest).length + w - 1) / w = (rest.length + w - 1) / w + 1 := by
    rw [List.length_append, hb, show w + rest.length + w - 1 = rest.length + w - 1 + w * 1 by omega,
      Nat.add_mul_div_left _ _ hw]
  rw [blocks, hn, List.range_succ_eq_map, List.map_cons, List.map_map, blocks]
  refine congrArg₂ _ (by simp [← hb]) (List.map_congr_left fun k _ => ?_)
  rw [Function.comp_apply, Nat.succ_mul, Nat.add_comm, ← hb, List.drop_append]

/-- Blocks of `w` elements, joined, are cut back into the same blocks. -/
lemma blocks_flatten {α : Type} {w : Nat} (hw : 0 < w) :
    ∀ M : List (List α), (∀ b ∈ M, b.length = w) → blocks w M.flatten = M
  | [], _ => blocks_nil w
  | b :: M, hM => by
    rw [List.flatten_cons, blocks_append _ (hM b (List.mem_cons_self b M)) hw,
      blocks_flatten hw M fun b' hb' => hM b' (List.mem_cons_of_mem b hb')]

/-- A list of `k` times `w` elements is cut into blocks of exactly `w`, which join back to it. -/
lemma blocks_spec {α : Type} {w : Nat} (hw : 0 < w) :
    ∀ (k : Nat) (l : List α), l.length = k * w →
      (blocks w l).flatten = l ∧ ∀ b ∈ blocks w l, b.length = w
  | 0, l, hl => by
    have hnil : l = [] := List.eq_nil_of_length_eq_zero (by simpa using hl)
    subst hnil
    simp
  | k + 1, l, hl => by
    have htake : (l.take w).length = w := by
      rw [List.length_take, hl, Nat.succ_mul]; omega
    have hdrop : (l.drop w).length = k * w := by
      rw [List.length_drop, hl, Nat.succ_mul, Nat.add_sub_cancel]
    have hcut := blocks_append (l.drop w) htake hw
    rw [List.take_append_drop] at hcut
    obtain ⟨ih₁, ih₂⟩ := blocks_spec hw k (l.drop w) hdrop
    rw [hcut, List.flatten_cons, ih₁, List.take_append_drop]
    exact ⟨rfl, fun b hb => (List.mem_cons.1 hb).elim (· ▸ htake) (ih₂ b)⟩

end Python

end AzureLinuxAgent
