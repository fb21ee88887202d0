import AzureLinuxAgent.TextUtil.Hex
import AzureLinuxAgent.Python.Regex

/-!
# Swapping the blocks of a hexadecimal string

`swap_hexstring(s, width)` pads `s` on the left with `'0'` to a multiple of `width` characters,
cuts the padded text with `re.findall('[a-f0-9]{width}', s, re.IGNORECASE)` and joins the pieces
in reverse order; with the default width `2` it reverses the byte order of a hexadecimal number.

## Main definitions

* `swapHexstring`: the function, over the `re` model of `Python.Regex`.
* `padHex`: the padded text, whose pieces are `blocks` of `Python.Str`.

## Main results

* `findall_hexBlockRe`: on digits the scan of `re.findall` stays aligned on the blocks of the
  padded text, from the first match to the last.
* `swapHexstring_eq`: on digits the function returns the blocks of the padded text, last first.
* `swapHexstring_blocks_reversed`: hence nothing is lost or repeated, and a second swap gives
  the padded text back.
-/

namespace AzureLinuxAgent

namespace TextUtil

open Python

/-- The class `[a-f0-9]`. -/
def isLowerHexChar (c : Char) : Bool := ('a' ≤ c ∧ c ≤ 'f') || ('0' ≤ c ∧ c ≤ '9')

/-- The pattern `[a-f0-9]{width}` of `swap_hexstring`. -/
def hexBlockRe (width : Nat) : Re := Re.rep width (.set isLowerHexChar)

/-- `swap_hexstring(s, width)`; `len(s) % width` raises `ZeroDivisionError` at width `0`. -/
def swapHexstring (s : String) (width : Nat := 2) : Except PyError String := do
  if width = 0 then throw .zeroDivisionError
  let r := s.length % width
  let s := if r ≠ 0 then ⟨List.replicate (width - s.length % width) '0'⟩ ++ s else s
  pure (String.join ((hexBlockRe width).findall true s).reverse)

/-- `s` padded on the left with `'0'` to a multiple of `w` characters. -/
def padHex (w : Nat) (s : List Char) : List Char := List.replicate ((w - s.length % w) % w) '0' ++ s

/-! ## The padded text -/

lemma padHex_length_mod {w : Nat} (hw : 0 < w) (s : List Char) : (padHex w s).length % w = 0 := by
  have hr := Nat.mod_lt s.length hw
  rw [padHex, List.length_append, List.length_replicate, Nat.add_mod, Nat.mod_mod]
  generalize s.length % w = r at hr ⊢
  rcases Nat.eq_zero_or_pos r with rfl | hr0
  · simp
  · rw [Nat.mod_eq_of_lt (Nat.sub_lt hw hr0), Nat.sub_add_cancel hr.le, Nat.mod_self]

lemma padHex_of_mod_eq_zero {w : Nat} {s : List Char} (h : s.length % w = 0) : padHex w s = s := by
  simp [padHex, h]

lemma isHexDigit_of_mem_padHex {w : Nat} {s : List Char} (hs : ∀ c ∈ s, isHexDigit c = true) :
    ∀ c ∈ padHex w s, isHexDigit c = true := by
  intro c hc
  rcases List.mem_append.1 hc with hc | hc
  · rw [List.eq_of_mem_replicate hc]
    rfl
  · exact hs c hc

/-- The text `swap_hexstring` scans is `padHex`. -/
lemma swapHexstring_padded (s : String) {w : Nat} (hw : 0 < w) :
    (if s.length % w ≠ 0 then (⟨List.replicate (w - s.length % w) '0'⟩ ++ s : String) else s) =
      ⟨padHex w s.data⟩ := by
  split_ifs with h
  · rw [padHex, show s.data.length = s.length from rfl, Nat.mod_eq_of_lt (Nat.sub_lt hw (Nat.pos_of_ne_zero h))]
    rfl
  · rw [padHex_of_mod_eq_zero (not_not.1 h)]

/-! ## The scan -/

/-- Under `re.IGNORECASE` the class `[a-f0-9]` holds every digit of either case. -/
lemma setMatches_isLowerHexChar {c : Char} (h : isHexDigit c = true) :
    setMatches true isLowerHexChar c = true := by
  have ascii : ∀ n < 128, isHexDigit (Char.ofNat n) = true →
      setMatches true isLowerHexChar (Char.ofNat n) = true := by decide
  have hlt := toNat_lt_of_isHexDigit h
  rw [← Char.ofNat_toNat c] at h ⊢
  exact ascii _ hlt h

/-- On digits whose number is a multiple of `w`, `re.findall` returns the blocks of `w`. -/
lemma findall_hexBlockRe {w : Nat} (hw : 0 < w) (t : List Char) (ht : ∀ c ∈ t, isHexDigit c = true)
    (hlen : t.length % w = 0) : (hexBlockRe w).findall true ⟨t⟩ = (blocks w t).map String.mk := by
  have hk : t.length = t.length / w * w := (Nat.div_mul_cancel (Nat.dvd_of_mod_eq_zero hlen)).symm
  have hfuel : t.length / w < 2 * t.length + 2 := by have := Nat.div_le_self t.length w; omega
  rw [Re.findall, hexBlockRe, String.length_mk, findallLoop_rep_set true isLowerHexChar hw _ _ false 0 t
    hk hfuel fun c hc => setMatches_isLowerHexChar (ht c hc)]

/-- On digits, `swap_hexstring` returns the blocks of the padded text, the last first. -/
lemma swapHexstring_eq (s : String) {w : Nat} (hw : 0 < w) (hs : ∀ c ∈ s.data, isHexDigit c = true) :
    swapHexstring s w = .ok ⟨(blocks w (padHex w s.data)).reverse.flatten⟩ := by
  simp only [swapHexstring, Nat.pos_iff_ne_zero.1 hw, if_false, swapHexstring_padded s hw,
    findall_hexBlockRe hw _ (isHexDigit_of_mem_padHex hs) (padHex_length_mod hw _)]
  refine congrArg Except.ok (String.ext ?_)
  simp [data_join, List.map_reverse, Function.comp_def]

/-! ## The law of the swap -/

/-- For a string of hexadecimal digits of either case and a width `w ≥ 1`, the padded text is
cut into blocks of `w` and `swap_hexstring` returns those blocks last first: a permutation of the
padded text, of its length. A second swap gives the padded text back, and `s` itself when its
length is a multiple of `w`. -/
theorem swapHexstring_blocks_reversed (s : String) (w : Nat) (hw : 0 < w)
    (hs : ∀ c ∈ s.data, isHexDigit c = true) :
    let p := padHex w s.data
    (blocks w p).flatten = p ∧ (∀ b ∈ blocks w p, b.length = w) ∧
      ∃ t, swapHexstring s w = .ok t ∧ t.data = (blocks w p).reverse.flatten ∧
        t.length = p.length ∧ t.data.Perm p ∧ swapHexstring t w = .ok ⟨p⟩ ∧
        (s.length % w = 0 → swapHexstring t w = .ok s) := by
  intro p
  have hpl := padHex_length_mod hw s.data
  obtain ⟨hflat, hlen⟩ :=
    blocks_spec hw (p.length / w) p (Nat.div_mul_cancel (Nat.dvd_of_mod_eq_zero hpl)).symm
  have hperm : ((blocks w p).reverse.flatten).Perm p := by
    simpa only [hflat] using (List.reverse_perm (blocks w p)).flatten
  have hswap : swapHexstring ⟨(blocks w p).reverse.flatten⟩ w = .ok ⟨p⟩ := by
    rw [swapHexstring_eq _ hw fun c hc => isHexDigit_of_mem_padHex hs c (hperm.subset hc),
      padHex_of_mod_eq_zero (hperm.length_eq ▸ hpl),
      blocks_flatten hw _ fun b hb => hlen b (List.mem_reverse.1 hb), List.reverse_reverse, hflat]
  refine ⟨hflat, hlen, _, swapHexstring_eq s hw hs, rfl, hperm.length_eq, hperm, hswap, fun h0 => ?_⟩
  rw [hswap, show p = s.data from padHex_of_mod_eq_zero h0]

theorem swapHexstring_blocks_reversed_odd :
    (0 < 2 ∧ ∀ c ∈ "aBc".data, isHexDigit c = true) ∧
      swapHexstring "aBc" 2 = .ok "Bc0a" ∧ swapHexstring "Bc0a" 2 = .ok "0aBc" := by
  obtain ⟨-, -, t, ht, hdata, -, -, h2, -⟩ :=
    swapHexstring_blocks_reversed "aBc" 2 (by decide) (by decide)
  obtain rfl : t = "Bc0a" := String.ext (hdata.trans rfl)
  exact ⟨⟨by decide, by decide⟩, ht, h2⟩

end TextUtil

end AzureLinuxAgent
