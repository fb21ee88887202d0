import AzureLinuxAgent.TextUtil.Unpack

/-!
# Non-ASCII text, byte-order marks and blank text

`replace_non_ascii(incoming, replace_char)` copies a string with `replace_char` in place of every
character whose code point is above 128, and `remove_bom(c)` drops the first three bytes of a
byte string that is not blank when each of them is above 128. Both tests compare with `> 128`
as the source writes them: the character U+0080 passes the first unchanged, and any text whose
first three bytes are not ASCII, such as the UTF-8 encoding of `"éé"`, loses them to the second,
byte-order mark or not. `is_str_empty(s)` and `parse_json(s)` test a `str` for blankness after
stripping the trailing `' \t\r\n\0'`.

## Main results

* `replaceNonAscii_spec`: the output is the input with each character above U+0080 replaced,
  so a character of the output is a character of the replacement or at most U+0080.
* `removeBom_spec`: `remove_bom` drops three bytes exactly when the first three are above 128;
  the blank test never decides, and a true mark `EF BB BF` is dropped.
* `parseJson_spec`: `parse_json` returns `None` exactly on text that is blank once stripped, and
  otherwise hands `json.loads` the stripped text.
-/

namespace AzureLinuxAgent

namespace TextUtil

open Python

/-- `replace_non_ascii(incoming, replace_char='')`; `None` gives the empty string. -/
def replaceNonAscii (incoming : Option String) (replaceChar : String := "") : String :=
  match incoming with
  | none => ""
  | some s => s.data.foldl (fun outgoing c =>
      if strToOrdChar c > 128 then outgoing ++ replaceChar else outgoing.push c) ""

/-- `bytes.isspace()`: not empty, and every byte ASCII white space. -/
def bytesIsspace (s : List UInt8) : Bool :=
  !s.isEmpty && s.all fun b => b.toNat = 32 || (9 ≤ b.toNat && b.toNat ≤ 13)

/-- `is_str_none_or_whitespace(s)` on a byte string. -/
def isStrNoneOrWhitespace : Option (List UInt8) → Bool
  | none => true
  | some s => s.length = 0 || bytesIsspace s

/-- `remove_bom(c)` on a byte string. The test reads `c[0]`, `c[1]` and `c[2]` only after
`len(c) > 2`, so the indexing never fails. -/
def removeBom (c : Option (List UInt8)) : Option (List UInt8) :=
  match c with
  | none => none
  | some b =>
    if !isStrNoneOrWhitespace (some b) && b.length > 2 && strToOrd (b.getD 0 0) > 128 &&
        strToOrd (b.getD 1 0) > 128 && strToOrd (b.getD 2 0) > 128 then some (b.drop 3)
    else some b

/-- `is_str_none_or_whitespace(s)` on a `str`. -/
def isStrNoneOrWhitespaceStr : Option String → Bool
  | none => true
  | some s => s.length = 0 || strIsspace s

/-- `is_str_empty(s)`: blank, or blank once the trailing `' \t\r\n\0'` are stripped. -/
def isStrEmpty (s : Option String) : Bool :=
  isStrNoneOrWhitespaceStr s || isStrNoneOrWhitespaceStr (s.map fun s => rstrip s " \t\r\n\x00".data)

/-- `parse_json(json_str)`; `json.loads` is not part of the agent, and the model takes it as given. -/
def parseJson {α : Type} (loads : String → Except PyError α) (jsonStr : Option String) :
    Except PyError (Option α) :=
  match jsonStr with
  | some s => if !isStrEmpty (some s) then some <$> loads (rstrip s " \t\r\n\x00".data) else .ok none
  | none => .ok none

/-! ## `replace_non_ascii` -/

lemma data_foldl_replaceNonAscii (r : String) (l : List Char) (out : String) :
    (l.foldl (fun outgoing c =>
        if strToOrdChar c > 128 then outgoing ++ r else outgoing.push c) out).data =
      out.data ++ l.flatMap fun c => if 128 < c.toNat then r.data else [c] := by
  induction l generalizing out with
  | nil => simp
  | cons c l ih =>
    rw [List.foldl_cons, ih]
    by_cases hc : 128 < c.toNat <;> simp [strToOrdChar, hc]

/-- `replace_non_ascii(s, r)` is `s` with `r` in place of each character above U+0080; every
character of it is a character of `r` or at most U+0080. -/
theorem replaceNonAscii_spec (s r : String) :
    (replaceNonAscii (some s) r).data = s.data.flatMap (fun c => if 128 < c.toNat then r.data else [c]) ∧
      ∀ c ∈ (replaceNonAscii (some s) r).data, c ∈ r.data ∨ c.toNat ≤ 128 := by
  have h : (replaceNonAscii (some s) r).data =
      s.data.flatMap (fun c => if 128 < c.toNat then r.data else [c]) :=
    data_foldl_replaceNonAscii r s.data ""
  refine ⟨h, fun c hc => ?_⟩
  rw [h, List.mem_flatMap] at hc
  obtain ⟨x, -, hx⟩ := hc
  split_ifs at hx with h128
  · exact .inl hx
  · rw [List.mem_singleton.1 hx]
    exact .inr (Nat.le_of_not_lt h128)

/-- U+0080 is not ASCII, and `replace_non_ascii` keeps it. -/
theorem replaceNonAscii_keeps_u0080 : replaceNonAscii (some "\x80") "?" = "\x80" := by
  decide

/-! ## `remove_bom` -/

/-- Three leading bytes above 128 make a byte string neither empty nor blank. -/
lemma not_isStrNoneOrWhitespace {b : List UInt8} (h : 2 < b.length) (h0 : 128 < (b.getD 0 0).toNat) :
    isStrNoneOrWhitespace (some b) = false := by
  obtain ⟨x, xs, rfl⟩ : ∃ x xs, b = x :: xs := List.exists_cons_of_length_pos (by omega)
  have hx : (x.toNat = 32 || (9 ≤ x.toNat && x.toNat ≤ 13)) = false := by
    simp only [List.getD_cons_zero] at h0
    simp only [Bool.or_eq_false_iff, Bool.and_eq_false_imp, decide_eq_false_iff_not, decide_eq_true_eq]
    omega
  simp [isStrNoneOrWhitespace, bytesIsspace, hx]

lemma removeBom_some (b : List UInt8) :
    removeBom (some b) = if 2 < b.length ∧ 128 < (b.getD 0 0).toNat ∧ 128 < (b.getD 1 0).toNat ∧
      128 < (b.getD 2 0).toNat then some (b.drop 3) else some b := by
  by_cases h : 2 < b.length ∧ 128 < (b.getD 0 0).toNat
  · simp [removeBom, strToOrd, not_isStrNoneOrWhitespace h.1 h.2, h, and_assoc]
  · rw [if_neg fun h' => h ⟨h'.1, h'.2.1⟩, removeBom]
    split_ifs with h'
    · simp only [strToOrd, Bool.and_eq_true, decide_eq_true_eq] at h'
      exact absurd ⟨h'.1.1.1.2, h'.1.1.2⟩ h
    · rfl

/-- `remove_bom` drops the first three bytes exactly when each is above 128: the blank test
never decides. A true UTF-8 mark is dropped, and `None` is kept. -/
theorem removeBom_spec (b rest : List UInt8) :
    removeBom (some b) = (if 2 < b.length ∧ 128 < (b.getD 0 0).toNat ∧ 128 < (b.getD 1 0).toNat ∧
        128 < (b.getD 2 0).toNat then some (b.drop 3) else some b) ∧
      removeBom (some ([0xEF, 0xBB, 0xBF] ++ rest)) = some rest ∧ removeBom none = none :=
  ⟨removeBom_some b, by
    rw [removeBom_some, if_pos ⟨by simp, show 128 < (0xEF : UInt8).toNat by decide,
      show 128 < (0xBB : UInt8).toNat by decide, show 128 < (0xBF : UInt8).toNat by decide⟩]
    rfl, rfl⟩

/-- The UTF-8 text `"éé"`, `C3 A9 C3 A9`, has no mark, and `remove_bom` cuts it to `A9`. -/
theorem removeBom_strips_e_acute : removeBom (some [0xC3, 0xA9, 0xC3, 0xA9]) = some [0xA9] := by
  decide

/-! ## Blank text and `parse_json` -/

/-- On a `str`, the blank test is that every character is white space. -/
lemma isStrNoneOrWhitespaceStr_some (s : String) :
    isStrNoneOrWhitespaceStr (some s) = s.data.all isSpace := by
  cases h : s.data with
  | nil => simp [isStrNoneOrWhitespaceStr, String.length, h]
  | cons c cs =>
    have : s.length ≠ 0 := by simp [String.length, h]
    simp [isStrNoneOrWhitespaceStr, strIsspace, this, h]

/-- `rstrip` keeps characters of the text only. -/
lemma mem_rstrip {s : String} {chars : List Char} {c : Char} (h : c ∈ (rstrip s chars).data) : c ∈ s.data := by
  simp only [rstrip, List.mem_reverse] at h
  exact List.mem_reverse.1 (List.dropWhile_subset _ h)

/-- `rstrip` leaves a text that does not end with one of the stripped characters. -/
lemma getLast?_rstrip (s : String) (chars : List Char) :
    ∀ c, (rstrip s chars).data.getLast? = some c → c ∉ chars := by
  intro c hc
  have := List.head?_dropWhile_not (fun c => decide (c ∈ chars)) s.data.reverse
  simp only [rstrip, List.getLast?_reverse] at hc
  rw [hc] at this
  simpa using this

/-- The first test of `is_str_empty` is implied by the second: a text is empty exactly when what
is left after stripping is white space. -/
lemma isStrEmpty_some (s : String) :
    isStrEmpty (some s) = (rstrip s " \t\r\n\x00".data).data.all isSpace := by
  rw [isStrEmpty, Option.map_some', isStrNoneOrWhitespaceStr_some, isStrNoneOrWhitespaceStr_some]
  cases h : s.data.all isSpace
  · rfl
  · have ht : (rstrip s " \t\r\n\x00".data).data.all isSpace = true :=
      List.all_eq_true.2 fun c hc => List.all_eq_true.1 h c (mem_rstrip hc)
    rw [ht, Bool.true_or]

/-- `parse_json(s)` returns `None` exactly when `s`, less its trailing `' \t\r\n\0'`, is empty or
white space, a text of NUL padding included; otherwise it hands `json.loads` that stripped
text, which then has a character that is not white space and ends with none of the stripped
characters. -/
theorem parseJson_spec {α : Type} (loads : String → Except PyError α) (s : String) :
    parseJson loads (some s) = (if (rstrip s " \t\r\n\x00".data).data.all isSpace then .ok none
        else some <$> loads (rstrip s " \t\r\n\x00".data)) ∧
      isStrEmpty (some s) = (rstrip s " \t\r\n\x00".data).data.all isSpace ∧
      (∀ c, (rstrip s " \t\r\n\x00".data).data.getLast? = some c → c ∉ " \t\r\n\x00".data) ∧
      parseJson loads none = .ok none := by
  refine ⟨?_, isStrEmpty_some s, getLast?_rstrip s _, rfl⟩
  rw [parseJson, isStrEmpty_some]
  cases (rstrip s " \t\r\n\x00".data).data.all isSpace <;> rfl

/-- A NUL after the text is stripped; one before a white space is not. -/
example : isStrEmpty (some " \x00\x00") = true ∧ isStrEmpty (some "\x00\x0b") = false := by
  decide

end TextUtil

end AzureLinuxAgent
