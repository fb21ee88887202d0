import Mathlib.Data.List.GetD
import AzureLinuxAgent.TextUtil.SshConfig

/-!
# Setting an option of a shell-style configuration file (`set_ini_config`)

`set_ini_config(config, name, val)` walks the lines from the last to the first and replaces
the first line it meets that starts with `name=` by `name="val"`, that is, the last such line
of the file. When no line starts with `name=`, the new line goes in with
`config.insert(len(config) - 1, ...)`: before the last line, not after it, and on an empty list
as the only line.

`setIniConfig_spec` states the result for every list of lines, and `setIniConfig_overwrite`
that setting an option twice is setting it once, to the second value.
-/

namespace AzureLinuxAgent

namespace TextUtil

open Python

/-! ## The function -/

/-- The loop of `set_ini_config` over the indices `indices` of `config`, which `break`s at the
first line that starts with `nameEqual`: the lines after the loop, and `notfound`. -/
def iniConfigLoop (nameEqual text : String) (config : List String) : List Int → List String × Bool
  | [] => (config, true)
  | i :: indices =>
    if startswith (config.getD i.toNat "") nameEqual then (config.set i.toNat text, false)
    else iniConfigLoop nameEqual text config indices

/-- `set_ini_config(config, name, val)`, on the list of lines. -/
def setIniConfig (config : List String) (name val : String) : List String :=
  let nameEqual := name ++ "="
  let length := config.length
  let text := name ++ "=\"" ++ val ++ "\""
  let scanned := iniConfigLoop nameEqual text config (rangeDown ((length : Int) - 1) (-1))
  if scanned.2 then listInsert scanned.1 ((length : Int) - 1) text else scanned.1

/-- The line `name="val"` that `set_ini_config` writes. -/
def iniLine (name val : String) : String := name ++ "=\"" ++ val ++ "\""

/-- The line `j` is the last line of `config` that starts with `nameEqual`. -/
def IsLastMatch (config : List String) (nameEqual : String) (j : Nat) : Prop :=
  j < config.length ∧ startswith (config.getD j "") nameEqual = true ∧
    ∀ j', j < j' → j' < config.length → startswith (config.getD j' "") nameEqual = false

/-! ## The loop finds the last line that starts with `name=` -/

lemma IsLastMatch.unique {config : List String} {nameEqual : String} {j₁ j₂ : Nat}
    (h₁ : IsLastMatch config nameEqual j₁) (h₂ : IsLastMatch config nameEqual j₂) : j₁ = j₂ := by
  rcases Nat.lt_trichotomy j₁ j₂ with h | h | h
  · exact absurd (h₁.2.2 j₂ h h₂.1) (by rw [h₂.2.1]; decide)
  · exact h
  · exact absurd (h₂.2.2 j₁ h h₁.1) (by rw [h₁.2.1]; decide)

/-- A text in which no line starts with `nameEqual` has no last such line. -/
lemma IsLastMatch.not_of_none {config : List String} {nameEqual : String} {j : Nat}
    (h : IsLastMatch config nameEqual j)
    (hall : ∀ j < config.length, startswith (config.getD j "") nameEqual = false) : False :=
  absurd (hall j h.1) (by rw [h.2.1]; decide)

/-- The loop over the indices below `k`, from the last: it stops at the last line below `k`
that starts with `nameEqual`, and goes through when there is none. -/
lemma iniConfigLoop_spec (nameEqual text : String) (config : List String) :
    ∀ k ≤ config.length,
      (iniConfigLoop nameEqual text config ((List.range k).reverse.map Int.ofNat) = (config, true) ∧
          ∀ j < k, startswith (config.getD j "") nameEqual = false) ∨
        ∃ j < k, startswith (config.getD j "") nameEqual = true ∧
          (∀ j', j < j' → j' < k → startswith (config.getD j' "") nameEqual = false) ∧
          iniConfigLoop nameEqual text config ((List.range k).reverse.map Int.ofNat) =
            (config.set j text, false)
  | 0, _ => .inl ⟨rfl, fun j hj => absurd hj (Nat.not_lt_zero j)⟩
  | k + 1, hk => by
    rw [List.range_succ, List.reverse_append, List.reverse_singleton, List.singleton_append,
      List.map_cons, iniConfigLoop]
    split
    · rename_i hs
      exact .inr ⟨k, Nat.lt_succ_self k, hs, fun j' h₁ h₂ => absurd h₂ (by omega), rfl⟩
    · rename_i hs
      have hk' : startswith (config.getD k "") nameEqual = false := by simpa using hs
      rcases iniConfigLoop_spec nameEqual text config k (by omega) with ⟨hr, hall⟩ |
          ⟨j, hj, hs', hlast, hr⟩
      · refine .inl ⟨hr, fun j hj => ?_⟩
        rcases Nat.lt_succ_iff_lt_or_eq.1 hj with hj | rfl
        · exact hall j hj
        · exact hk'
      · refine .inr ⟨j, by omega, hs', fun j' h₁ h₂ => ?_, hr⟩
        rcases Nat.lt_succ_iff_lt_or_eq.1 h₂ with h₂ | rfl
        · exact hlast j' h₁ h₂
        · exact hk'

/-- `set_ini_config` on every list of lines: the last line that starts with `name=` becomes
`name="val"`, or, when there is none, `name="val"` is inserted at index `len(config) - 1`. -/
lemma setIniConfig_eq (config : List String) (name val : String) :
    (∃ j, IsLastMatch config (name ++ "=") j ∧
        setIniConfig config name val = config.set j (iniLine name val)) ∨
      ((∀ j < config.length, startswith (config.getD j "") (name ++ "=") = false) ∧
        setIniConfig config name val =
          listInsert config ((config.length : Int) - 1) (iniLine name val)) := by
  dsimp only [setIniConfig]
  rw [rangeDown_natCast]
  rcases iniConfigLoop_spec (name ++ "=") (iniLine name val) config config.length le_rfl with
    ⟨hr, hall⟩ | ⟨j, hj, hs, hlast, hr⟩
  · exact .inr ⟨hall, by simp only [iniLine] at hr; rw [hr]; rfl⟩
  · exact .inl ⟨j, ⟨hj, hs, hlast⟩, by simp only [iniLine] at hr; rw [hr]; rfl⟩

/-- `config.insert(len(config) - 1, x)`: before the last line, or alone in an empty list. -/
lemma listInsert_last (config : List String) (x : String) :
    listInsert config ((config.length : Int) - 1) x =
      config.take (config.length - 1) ++ x :: config.drop (config.length - 1) := by
  cases hn : config.length with
  | zero => simp [List.length_eq_zero.1 hn, listInsert, sliceBound]
  | succ k =>
    rw [show ((k + 1 : Nat) : Int) - 1 = ((k : Nat) : Int) by omega,
      listInsert_natCast config (by omega)]
    rfl

/-- The lines of a list, read by index. -/
lemma forall_mem_iff_getD (l : List String) (P : String → Prop) :
    (∀ x ∈ l, P x) ↔ ∀ j < l.length, P (l.getD j "") := by
  constructor
  · intro h j hj
    rw [List.getD_eq_getElem _ _ hj]
    exact h _ (List.getElem_mem hj)
  · intro h x hx
    obtain ⟨j, hj, rfl⟩ := List.mem_iff_getElem.1 hx
    have hP := h j hj
    rwa [List.getD_eq_getElem _ _ hj] at hP

/-- The line `name="val"` starts with `name=`. -/
lemma startswith_iniLine (name val : String) : startswith (iniLine name val) (name ++ "=") = true := by
  have hquote : "=\"".data = "=".data ++ ['"'] := rfl
  simp only [startswith, iniLine, String.data_append, List.isPrefixOf_iff_prefix, hquote]
  exact ⟨['"'] ++ val.data ++ "\"".data, by simp⟩

/-! ## What `set_ini_config` does -/

/-- Every result of `set_ini_config`: it is the input with `name="val"` put at one place, after
which no line starts with `name=`. Either the line there was the last line that started with
`name=`, or no line started with `name=` and `name="val"` was inserted before the last line. -/
theorem setIniConfig_spec (config : List String) (name val : String) :
    ∃ pre suf, setIniConfig config name val = pre ++ iniLine name val :: suf ∧
      (∀ l ∈ suf, startswith l (name ++ "=") = false) ∧
      ((∃ old, startswith old (name ++ "=") = true ∧ config = pre ++ old :: suf) ∨
        ((∀ l ∈ config, startswith l (name ++ "=") = false) ∧ config = pre ++ suf ∧
          suf.length = min 1 config.length)) := by
  rcases setIniConfig_eq config name val with ⟨j, ⟨hj, hs, hlast⟩, h⟩ | ⟨hall, h⟩
  · refine ⟨config.take j, config.drop (j + 1), ?_, ?_, .inl ⟨config.getD j "", hs, ?_⟩⟩
    · rw [h, List.set_eq_take_append_cons_drop, if_pos hj]
    · intro l hl
      obtain ⟨m, hm, rfl⟩ := List.mem_iff_getElem.1 hl
      rw [List.getElem_drop]
      have hlt : j + 1 + m < config.length := by simp at hm; omega
      have hP := hlast (j + 1 + m) (by omega) hlt
      rwa [List.getD_eq_getElem _ _ hlt] at hP
    · rw [List.getD_eq_getElem _ _ hj, List.getElem_cons_drop, List.take_append_drop]
  · refine ⟨config.take (config.length - 1), config.drop (config.length - 1),
      by rw [h, listInsert_last], fun l hl => ?_, .inr ⟨(forall_mem_iff_getD _ _).2 hall,
        (List.take_append_drop _ _).symm, by simp; omega⟩⟩
    exact (forall_mem_iff_getD config (fun l => startswith l (name ++ "=") = false)).2 hall l
      (List.mem_of_mem_drop hl)

/-- With no line for `B`, the line goes before the last line. -/
example : setIniConfig ["A=1", "C=3"] "B" "x" = ["A=1", "B=\"x\"", "C=3"] := by decide

/-- After `name="val"` is written at the last line that started with `name=`, that line is
still the last one. -/
lemma isLastMatch_set {config : List String} {name : String} {j : Nat}
    (h : IsLastMatch config (name ++ "=") j) (val : String) :
    IsLastMatch (config.set j (iniLine name val)) (name ++ "=") j := by
  obtain ⟨hj, -, hlast⟩ := h
  refine ⟨by simpa using hj, by simpa [List.getElem?_set, hj] using startswith_iniLine name val,
    fun j' h₁ h₂ => ?_⟩
  have hne : j ≠ j' := by omega
  simpa [List.getElem?_set_ne hne] using hlast j' h₁ (by simpa using h₂)

/-- After `name="val"` is inserted before the last line of a list where no line started with
`name=`, it is the last line that does. -/
lemma isLastMatch_insert {config : List String} {name : String}
    (hall : ∀ j < config.length, startswith (config.getD j "") (name ++ "=") = false) (val : String) :
    IsLastMatch (config.take (config.length - 1) ++ iniLine name val :: config.drop (config.length - 1))
      (name ++ "=") (config.length - 1) := by
  have htake : (config.take (config.length - 1)).length = config.length - 1 := by simp
  refine ⟨by simp, ?_, fun j' h₁ h₂ => ?_⟩
  · rw [List.getD_append_right _ _ _ _ htake.le, htake, Nat.sub_self]
    exact startswith_iniLine name val
  · have hj' : j' = config.length := by simp at h₂; omega
    subst hj'
    have hpos : 0 < config.length := by omega
    have hlast := hall (config.length - 1) (by omega)
    simp only [List.getD_eq_getElem?_getD] at hlast ⊢
    rw [List.getElem?_append_right (by simp), htake,
      show config.length - (config.length - 1) = 1 by omega, List.getElem?_cons_succ,
      List.getElem?_drop, Nat.add_zero]
    exact hlast

/-- Setting an option twice sets it once, to the second value: the second call rewrites the
line the first one wrote. -/
theorem setIniConfig_overwrite (config : List String) (name val val' : String) :
    setIniConfig (setIniConfig config name val) name val' = setIniConfig config name val' := by
  have hlast : ∀ {c : List String} {j : Nat} (v : String), IsLastMatch c (name ++ "=") j →
      setIniConfig c name v = c.set j (iniLine name v) := by
    intro c j v hj
    rcases setIniConfig_eq c name v with ⟨j₂, hj₂, h⟩ | ⟨hall, -⟩
    · rwa [hj₂.unique hj] at h
    · exact (hj.not_of_none hall).elim
  rcases setIniConfig_eq config name val with ⟨j, hj, h⟩ | ⟨hall, h⟩
  · rw [h, hlast val' (isLastMatch_set hj val), hlast val' hj, List.set_set]
  · rcases setIniConfig_eq config name val' with ⟨j, hj, -⟩ | ⟨-, h'⟩
    · exact (hj.not_of_none hall).elim
    · rw [h, listInsert_last, hlast val' (isLastMatch_insert hall val), h', listInsert_last,
        List.set_append_right _ _ (by simp), show config.length - 1 - (config.take
          (config.length - 1)).length = 0 by simp]
      rfl

end TextUtil

end AzureLinuxAgent
