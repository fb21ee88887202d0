import AzureLinuxAgent.Python.Str

/-!
# Setting an option in `sshd_config` (`textutil.set_ssh_config`)

`set_ssh_config(config, name, val)` scans the lines once, keeping `match_start`, the index of
the first `Match` line of the block the scan is in (`-1` outside every block). A line that
starts with `name` while the scan is outside every block is replaced by `name val`; when no
line was replaced, `name val` is inserted before the first line of the block the file ends in,
or else at the loop's last index, just before the last line.

`sshConfigLoop_inv` is the loop invariant: `match_start` is `-1` exactly when the lines read so
far leave the scan in global scope (`globalAfter`), and otherwise points at a line before which
the scope is global; `found` records whether a global line starting with `name` was seen. From
it, `setSshConfig_spec` describes the result: the global lines that start with `name` are set,
or the new line is inserted at a global position. The two inputs where the code misses its
aim, the empty list and a file that ends with the `Match all` line closing a block, are set
apart in `setSshConfig_counterexample`.

`setSshConfig_overwrite` composes two calls: on the files the first call handles as intended,
a second call with the same name sets the lines the first one wrote and adds none, so the
agent can set an option on every boot without growing the file. The proof goes through
`setSshConfig_insert`, which fixes the insertion position before the value is chosen.
-/

namespace AzureLinuxAgent

namespace TextUtil

open Python

/-- `no_match`. -/
def noMatch : Int := -1

/-- A line that opens or closes a block: it starts with `match`, in any case. -/
def isMatchLine (l : String) : Bool := startswith (lower l) "match"

/-- A `Match all` line, which closes a block. -/
def isMatchAll (l : String) : Bool := startswith (lower l) "match all"

/-- The line `"{0} {1}".format(name, val)`. -/
def sshLine (name val : String) : String := name ++ " " ++ val

/-- The variables of the loop of `set_ssh_config`. -/
structure SshScan where
  found : Bool
  matchStart : Int

/-- One pass of the loop on line `i`: the line as the pass leaves it, and the variables. -/
def sshConfigStep (name val : String) (st : SshScan) (i : Nat) (line : String) :
    String × SshScan :=
  if startswith line name ∧ st.matchStart = noMatch then
    (sshLine name val, { st with found := true })
  else if isMatchLine line then
    if isMatchAll line then (line, { st with matchStart := noMatch })
    else if st.matchStart = noMatch then (line, { st with matchStart := i })
    else (line, st)
  else (line, st)

/-- The loop of `set_ssh_config` over the lines from index `i` on. -/
def sshConfigLoop (name val : String) : SshScan → Nat → List String → List String × SshScan
  | st, _, [] => ([], st)
  | st, i, line :: rest =>
    let r := sshConfigStep name val st i line
    let s := sshConfigLoop name val r.2 (i + 1) rest
    (r.1 :: s.1, s.2)

/-- `list.insert(i, x)`. -/
def listInsert {α : Type} (l : List α) (i : Int) (x : α) : List α :=
  let j := sliceBound l.length i
  l.take j ++ x :: l.drop j

/-- `set_ssh_config(config, name, val)`. After the loop, `i` is bound only if the loop ran at
least once; on an empty list the insertion reads an unbound `i`. -/
def setSshConfig (config : List String) (name val : String) : Except PyError (List String) :=
  let r := sshConfigLoop name val ⟨false, noMatch⟩ 0 config
  if r.2.found then .ok r.1
  else
    let i : Option Int :=
      if r.2.matchStart ≠ noMatch then some r.2.matchStart
      else if config = [] then none else some (config.length - 1 : Nat)
    match i with
    | some i => .ok (listInsert r.1 i (sshLine name val))
    | none => .error .unboundLocalError

lemma listInsert_natCast {α : Type} (l : List α) {i : Nat} (h : i ≤ l.length) (x : α) :
    listInsert l i x = l.take i ++ x :: l.drop i := by
  simp [listInsert, sliceBound_natCast, Nat.min_eq_left h]

/-! ## Scope -/

/-- The lines after `pre` are in global scope: `pre` has no `Match` line, or its last one is
`Match all`. -/
def globalAfter (pre : List String) : Bool :=
  match (pre.filter isMatchLine).getLast? with
  | none => true
  | some l => isMatchAll l

/-- Line `i` of `config` is an option line in global scope. -/
def isGlobalLine (config : List String) (i : Nat) : Bool :=
  match config[i]? with
  | some l => !isMatchLine l && globalAfter (config.take i)
  | none => false

/-- `config` ends with the `Match all` line that closes a block. -/
def endsClosingBlock (config : List String) : Bool :=
  match config.getLast? with
  | some l => isMatchAll l && !globalAfter config.dropLast
  | none => false

/-- Every global line of `config` that starts with `name` set to `name val`. -/
def setGlobalLines (config : List String) (name val : String) : List String :=
  config.mapIdx fun i l => if isGlobalLine config i ∧ startswith l name then sshLine name val else l

lemma globalAfter_append_of_not_match {pre : List String} {l : String} (h : isMatchLine l = false) :
    globalAfter (pre ++ [l]) = globalAfter pre := by
  simp [globalAfter, List.filter_append, h]

lemma globalAfter_append_of_match {pre : List String} {l : String} (h : isMatchLine l = true) :
    globalAfter (pre ++ [l]) = isMatchAll l := by
  simp [globalAfter, List.filter_append, h]

lemma isGlobalLine_append_cons (pre rest : List String) (l : String) :
    isGlobalLine (pre ++ l :: rest) pre.length = (!isMatchLine l && globalAfter pre) := by
  have hl : (pre ++ l :: rest)[pre.length]? = some l := by
    rw [List.getElem?_append_right (Nat.le_refl _), Nat.sub_self, List.getElem?_cons_zero]
  simp only [isGlobalLine, hl, List.take_left]

lemma isGlobalLine_append_of_lt {pre : List String} {i : Nat} (rest : List String)
    (h : i < pre.length) : isGlobalLine (pre ++ rest) i = isGlobalLine pre i := by
  simp [isGlobalLine, List.getElem?_append_left h, List.take_append_of_le_length (Nat.le_of_lt h)]

/-- Some global line of `config` starts with `name`. -/
def HasGlobalOption (config : List String) (name : String) : Prop :=
  ∃ i l, config[i]? = some l ∧ isGlobalLine config i = true ∧ startswith l name = true

lemma hasGlobalOption_append_singleton {pre : List String} {l name : String} :
    HasGlobalOption (pre ++ [l]) name ↔
      HasGlobalOption pre name ∨ (isGlobalLine (pre ++ [l]) pre.length = true ∧ startswith l name = true) := by
  constructor
  · rintro ⟨i, l', hi, hg, hs⟩
    rcases Nat.lt_or_ge i pre.length with h | h
    · rw [List.getElem?_append_left h] at hi
      rw [isGlobalLine_append_of_lt _ h] at hg
      exact .inl ⟨i, l', hi, hg, hs⟩
    · have hlt : i < pre.length + 1 := by
        have := (List.getElem?_eq_some_iff.1 hi).1; simpa using this
      obtain rfl : i = pre.length := by omega
      simp at hi
      exact .inr ⟨hg, hi ▸ hs⟩
  · rintro (⟨i, l', hi, hg, hs⟩ | ⟨hg, hs⟩)
    · have h : i < pre.length := (List.getElem?_eq_some_iff.1 hi).1
      exact ⟨i, l', by rw [List.getElem?_append_left h]; exact hi,
        by rw [isGlobalLine_append_of_lt _ h]; exact hg, hs⟩
    · exact ⟨pre.length, l, by simp, hg, hs⟩

section

variable (name val : String)

/-- The invariant of the loop of `set_ssh_config` after reading the lines `pre`. -/
structure SshScanInv (pre : List String) (st : SshScan) : Prop where
  noMatch_iff : st.matchStart = noMatch ↔ globalAfter pre = true
  start_global : st.matchStart ≠ noMatch →
    ∃ p : Nat, st.matchStart = p ∧ p < pre.length ∧ globalAfter (pre.take p) = true
  found_iff : st.found = true ↔ HasGlobalOption pre name

lemma sshScanInv_nil : SshScanInv name [] ⟨false, noMatch⟩ :=
  ⟨by simp [globalAfter], by simp, by simp [HasGlobalOption]⟩

/-- The start pointer after a line that leaves `match_start` unchanged. -/
lemma start_global_append {pre : List String} {st : SshScan} {l : String}
    (h : st.matchStart ≠ noMatch →
      ∃ p : Nat, st.matchStart = p ∧ p < pre.length ∧ globalAfter (pre.take p) = true) :
    st.matchStart ≠ noMatch →
      ∃ p : Nat, st.matchStart = p ∧ p < (pre ++ [l]).length ∧
        globalAfter ((pre ++ [l]).take p) = true := by
  intro hne
  obtain ⟨p, hp, hlt, hglob⟩ := h hne
  exact ⟨p, hp, by simp; omega, by rw [List.take_append_of_le_length (by omega)]; exact hglob⟩

/-- One pass of the loop keeps the invariant and writes the line `setGlobalLines` writes. -/
lemma sshConfigStep_inv {pre : List String} {st : SshScan} {l : String} (rest : List String)
    (hl : startswith l name = true → isMatchLine l = false) (hinv : SshScanInv name pre st) :
    (sshConfigStep name val st pre.length l).1 =
        (if isGlobalLine (pre ++ l :: rest) pre.length = true ∧ startswith l name = true
          then sshLine name val else l) ∧
      SshScanInv name (pre ++ [l]) (sshConfigStep name val st pre.length l).2 := by
  obtain ⟨h1, h2, h3⟩ := hinv
  rw [isGlobalLine_append_cons]
  have hg1 : isGlobalLine (pre ++ [l]) pre.length = (!isMatchLine l && globalAfter pre) :=
    isGlobalLine_append_cons pre [] l
  -- a `Match` line is never a global option line, so `found` is unchanged past it
  have found_match (hm : isMatchLine l = true) : st.found = true ↔ HasGlobalOption (pre ++ [l]) name := by
    rw [h3, hasGlobalOption_append_singleton]; simp [hg1, hm]
  by_cases ha : startswith l name = true ∧ st.matchStart = noMatch
  · -- a global line that starts with `name` is set
    have hnm := hl ha.1
    have hga := h1.1 ha.2
    rw [sshConfigStep, if_pos ha, if_pos (by simp [hnm, hga, ha.1])]
    refine ⟨rfl, ⟨?_, fun hne => absurd ha.2 hne, ?_⟩⟩
    · rw [globalAfter_append_of_not_match hnm]; exact h1
    · simp only [true_iff]
      exact hasGlobalOption_append_singleton.2 (.inr ⟨by simp [hg1, hnm, hga], ha.1⟩)
  rw [sshConfigStep, if_neg ha]
  by_cases hm : isMatchLine l = true
  · have hc : ¬ ((!isMatchLine l && globalAfter pre) = true ∧ startswith l name = true) := by
      simp [hm]
    rw [if_pos hm, if_neg hc]
    by_cases hall : isMatchAll l = true
    · -- `Match all` closes the block
      rw [if_pos hall]
      refine ⟨rfl, ⟨?_, fun hne => absurd rfl hne, found_match hm⟩⟩
      simp [globalAfter_append_of_match hm, hall]
    rw [if_neg hall]
    by_cases hno : st.matchStart = noMatch
    · -- the first `Match` line of a block is recorded
      rw [if_pos hno]
      refine ⟨rfl, ⟨?_, fun _ => ⟨pre.length, rfl, by simp, ?_⟩, found_match hm⟩⟩
      · simp [globalAfter_append_of_match hm, hall, noMatch]
      · rw [List.take_left]; exact h1.1 hno
    · -- a later `Match` line of the same block
      rw [if_neg hno]
      refine ⟨rfl, ⟨?_, start_global_append h2, found_match hm⟩⟩
      simp [globalAfter_append_of_match hm, hall, hno]
  · -- any other line is kept
    have hnm : isMatchLine l = false := by simpa using hm
    have off : startswith l name = true → globalAfter pre = false := by
      intro hs
      have : st.matchStart ≠ noMatch := fun h => ha ⟨hs, h⟩
      simpa [h1] using this
    have hc : ¬ ((!isMatchLine l && globalAfter pre) = true ∧ startswith l name = true) := by
      rintro ⟨hgl, hs⟩; simp [hnm, off hs] at hgl
    rw [if_neg hm, if_neg hc]
    refine ⟨rfl, ⟨?_, start_global_append h2, ?_⟩⟩
    · rw [globalAfter_append_of_not_match hnm]; exact h1
    · rw [h3, hasGlobalOption_append_singleton, hg1]
      exact ⟨.inl, fun h => h.elim id fun h' => absurd h' hc⟩

/-- The loop over `rest`, after reading `pre`, writes what `setGlobalLines` writes there and
ends with the invariant over `pre ++ rest`. -/
lemma sshConfigLoop_inv (pre rest : List String) (st : SshScan)
    (hl : ∀ l ∈ rest, startswith l name = true → isMatchLine l = false)
    (hinv : SshScanInv name pre st) :
    (sshConfigLoop name val st pre.length rest).1 =
        rest.mapIdx (fun j l => if isGlobalLine (pre ++ rest) (pre.length + j) = true ∧
          startswith l name = true then sshLine name val else l) ∧
      SshScanInv name (pre ++ rest) (sshConfigLoop name val st pre.length rest).2 := by
  induction rest generalizing pre st with
  | nil => simpa [sshConfigLoop] using hinv
  | cons l rest ih =>
    obtain ⟨hout, hinv'⟩ := sshConfigStep_inv name val rest (hl l (by simp)) hinv
    have hrest := ih (pre ++ [l]) _ (fun l' hl' => hl l' (by simp [hl'])) hinv'
    simp only [List.length_append, List.length_singleton, List.append_assoc,
      List.singleton_append] at hrest
    refine ⟨?_, hrest.2⟩
    rw [sshConfigLoop, List.mapIdx_cons, hout, hrest.1]
    dsimp only
    rw [Nat.add_zero]
    congr 2
    funext i l'
    rw [Nat.add_right_comm, Nat.add_assoc]

/-- Without a global line that starts with `name`, `setGlobalLines` changes nothing. -/
lemma setGlobalLines_of_not_hasGlobalOption {config : List String}
    (h : ¬ HasGlobalOption config name) : setGlobalLines config name val = config := by
  apply List.ext_getElem (by simp [setGlobalLines])
  intro i h1 h2
  simp only [setGlobalLines, List.getElem_mapIdx]
  rw [if_neg]
  rintro ⟨hg, hs⟩
  exact h ⟨i, config[i], List.getElem?_eq_getElem h2, hg, hs⟩

/-- When the scan ends in global scope, the loop's last index is a global position, unless the
last line is the `Match all` that closes a block. -/
lemma globalAfter_dropLast {config : List String} (hne : config ≠ [])
    (htrail : endsClosingBlock config = false) (hg : globalAfter config = true) :
    globalAfter config.dropLast = true := by
  have hsplit := List.dropLast_concat_getLast hne
  have hlast : config.getLast? = some (config.getLast hne) := List.getLast?_eq_getLast config hne
  by_cases hm : isMatchLine (config.getLast hne) = true
  · rw [← hsplit, globalAfter_append_of_match hm] at hg
    simpa [endsClosingBlock, hlast, hg] using htrail
  · rw [← hsplit, globalAfter_append_of_not_match (by simpa using hm)] at hg
    exact hg

/-- The variables of the scan do not depend on the value written. -/
lemma sshConfigLoop_snd (val' : String) (st : SshScan) (i : Nat) (config : List String) :
    (sshConfigLoop name val st i config).2 = (sshConfigLoop name val' st i config).2 := by
  induction config generalizing st i with
  | nil => rfl
  | cons l config ih =>
    have hstep : (sshConfigStep name val st i l).2 = (sshConfigStep name val' st i l).2 := by
      unfold sshConfigStep; split_ifs <;> rfl
    show (sshConfigLoop name val (sshConfigStep name val st i l).2 (i + 1) config).2 =
      (sshConfigLoop name val' (sshConfigStep name val' st i l).2 (i + 1) config).2
    rw [hstep]
    exact ih _ _

/-- When a global line starts with `name`, `set_ssh_config` sets every such line. -/
lemma setSshConfig_of_hasGlobalOption {config : List String}
    (hl : ∀ l ∈ config, startswith l name = true → isMatchLine l = false)
    (hopt : HasGlobalOption config name) :
    setSshConfig config name val = .ok (setGlobalLines config name val) := by
  obtain ⟨hout, ⟨-, -, h3⟩⟩ := sshConfigLoop_inv name val [] config _ hl (sshScanInv_nil name)
  simp only [List.nil_append, List.length_nil, Nat.zero_add] at hout h3
  have hset : (sshConfigLoop name val ⟨false, noMatch⟩ 0 config).1 = setGlobalLines config name val :=
    hout
  simp [setSshConfig, h3.2 hopt, hset]

/-- When no global line starts with `name`, `set_ssh_config` inserts `name val` at a position in
global scope, the same for every value. -/
lemma setSshConfig_insert {config : List String} (hne : config ≠ [])
    (htrail : endsClosingBlock config = false)
    (hl : ∀ l ∈ config, startswith l name = true → isMatchLine l = false)
    (hopt : ¬ HasGlobalOption config name) :
    ∃ p ≤ config.length, globalAfter (config.take p) = true ∧ ∀ val,
      setSshConfig config name val = .ok (config.take p ++ sshLine name val :: config.drop p) := by
  obtain ⟨-, ⟨h1, h2, h3⟩⟩ := sshConfigLoop_inv name "" [] config _ hl (sshScanInv_nil name)
  simp only [List.nil_append, List.length_nil] at h1 h2 h3
  have hout (val : String) : (sshConfigLoop name val ⟨false, noMatch⟩ 0 config).1 = config := by
    have h := (sshConfigLoop_inv name val [] config _ hl (sshScanInv_nil name)).1
    simp only [List.nil_append, List.length_nil, Nat.zero_add] at h
    exact h.trans (setGlobalLines_of_not_hasGlobalOption name val hopt)
  have hS (val : String) := sshConfigLoop_snd name val "" ⟨false, noMatch⟩ 0 config
  have hfound : (sshConfigLoop name "" ⟨false, noMatch⟩ 0 config).2.found = false :=
    Bool.eq_false_iff.2 fun hf => hopt (h3.1 hf)
  by_cases hno : (sshConfigLoop name "" ⟨false, noMatch⟩ 0 config).2.matchStart = noMatch
  · -- the scan ends in global scope: insert at the last index
    refine ⟨config.length - 1, by omega, ?_, fun val => ?_⟩
    · rw [← List.dropLast_eq_take]; exact globalAfter_dropLast hne htrail (h1.1 hno)
    · simp only [setSshConfig, hS, hout, hfound, hno, hne, ne_eq, not_true_eq_false, if_false,
        Bool.false_eq_true]
      rw [listInsert_natCast _ (by omega)]
  · -- the scan ends inside a block: insert before its first `Match` line
    obtain ⟨p, hp, hlt, hglob⟩ := h2 hno
    refine ⟨p, by omega, hglob, fun val => ?_⟩
    have hp' : ((p : Int) = noMatch) = False := by simp [noMatch]
    simp only [setSshConfig, hS, hout, hfound, hp, hp', ne_eq, not_false_eq_true, if_true,
      Bool.false_eq_true, if_false]
    rw [listInsert_natCast _ (by omega)]

/-- What `set_ssh_config` does when no line that starts with `name` is a `Match` line, on a
non-empty file that does not end with the `Match all` line closing a block: if some global line
starts with `name`, every such line is set to `name val`; otherwise `name val` is inserted at a
position in global scope. -/
theorem setSshConfig_spec (config : List String) (hne : config ≠ [])
    (htrail : endsClosingBlock config = false)
    (hl : ∀ l ∈ config, startswith l name = true → isMatchLine l = false) :
    (HasGlobalOption config name →
        setSshConfig config name val = .ok (setGlobalLines config name val)) ∧
      (¬ HasGlobalOption config name → ∃ p ≤ config.length, globalAfter (config.take p) = true ∧
        setSshConfig config name val = .ok (config.take p ++ sshLine name val :: config.drop p)) := by
  refine ⟨setSshConfig_of_hasGlobalOption name val hl, fun hopt => ?_⟩
  obtain ⟨p, hp, hglob, hset⟩ := setSshConfig_insert name hne htrail hl hopt
  exact ⟨p, hp, hglob, hset val⟩

end

/-! ## The option always lands in global scope -/

/-- A word without a blank is a prefix of `A ++ ' ' :: B` only if it is a prefix of `A`. -/
lemma prefix_append_blank {w A B : List Char} (hw : ' ' ∉ w) (h : w <+: A ++ ' ' :: B) :
    w <+: A := by
  induction w generalizing A with
  | nil => exact List.nil_prefix
  | cons c w ih =>
    cases A with
    | nil =>
      obtain ⟨rfl, -⟩ := List.cons_prefix_cons.1 h
      simp at hw
    | cons a A =>
      obtain ⟨rfl, h'⟩ := List.cons_prefix_cons.1 h
      exact List.cons_prefix_cons.2 ⟨rfl, ih (fun hm => hw (List.mem_cons_of_mem c hm)) h'⟩

/-- `name val` is no `Match` line when `name` does not begin with `match`. -/
lemma isMatchLine_sshLine {name val : String} (h : startswith (lower name) "match" = false) :
    isMatchLine (sshLine name val) = false := by
  have hl : (lower (sshLine name val)).data = (lower name).data ++ ' ' :: (lower val).data := by
    simp [lower, sshLine, lowerChar]
  unfold isMatchLine startswith at *
  rw [hl]
  cases hp : "match".data.isPrefixOf ((lower name).data ++ ' ' :: (lower val).data)
  · rfl
  · have := List.isPrefixOf_iff_prefix.2
      (prefix_append_blank (by decide) (List.isPrefixOf_iff_prefix.1 hp))
    rw [h] at this
    contradiction

/-- Two lists that agree on the elements `p` keeps, and on which elements those are, have the
same filter. -/
lemma filter_eq_of_agree {p : String → Bool} : ∀ {A B : List String}, A.length = B.length →
    (∀ j (hA : j < A.length) (hB : j < B.length), p A[j] = p B[j] ∧ (p B[j] = true → A[j] = B[j])) →
    A.filter p = B.filter p
  | [], [], _, _ => rfl
  | [], _ :: _, hlen, _ => by simp at hlen
  | _ :: _, [], hlen, _ => by simp at hlen
  | a :: A, b :: B, hlen, h => by
    have h0 := h 0 (by simp) (by simp)
    have ih := filter_eq_of_agree (A := A) (B := B) (by simpa using hlen)
      fun j hA hB => h (j + 1) (by simpa using hA) (by simpa using hB)
    simp only [List.getElem_cons_zero] at h0
    by_cases hb : p b = true
    · simp [List.filter_cons, h0.1, hb, h0.2 hb, ih]
    · simp [List.filter_cons, h0.1, hb, ih]

/-- Setting global option lines changes the scope of no line. -/
lemma globalAfter_take_setGlobalLines {config : List String} {name val : String}
    (hname : startswith (lower name) "match" = false) (i : Nat) :
    globalAfter ((setGlobalLines config name val).take i) = globalAfter (config.take i) := by
  unfold globalAfter
  rw [filter_eq_of_agree (A := (setGlobalLines config name val).take i) (B := config.take i)
    (by simp [setGlobalLines])]
  intro j hA hB
  have hj : j < config.length := by simp at hB; omega
  simp only [List.getElem_take, setGlobalLines, List.getElem_mapIdx]
  split_ifs with hc
  · have hnm : isMatchLine config[j] = false := by
      have := hc.1
      simp only [isGlobalLine, List.getElem?_eq_getElem hj] at this
      simp only [Bool.and_eq_true, Bool.not_eq_true'] at this
      exact this.1
    simp [isMatchLine_sshLine hname, hnm]
  · simp

/-- On a non-empty file that does not end with the `Match all` line closing a block, and for a
name that does not begin with `match` and starts no `Match` line of the file, `set_ssh_config`
returns normally and some global line of the result is exactly `name val`. The result is the
file with every global line that starts with `name` set to `name val`, or, when there is none,
the file with `name val` inserted at a position in global scope. -/
theorem setSshConfig_sets_global_option (config : List String) (name val : String)
    (hne : config ≠ []) (htrail : endsClosingBlock config = false)
    (hname : startswith (lower name) "match" = false)
    (hl : ∀ l ∈ config, startswith l name = true → isMatchLine l = false) :
    ∃ result, setSshConfig config name val = .ok result ∧
      (∃ i, isGlobalLine result i = true ∧ result[i]? = some (sshLine name val)) ∧
      ((HasGlobalOption config name ∧ result = setGlobalLines config name val) ∨
        (¬ HasGlobalOption config name ∧ ∃ p ≤ config.length, globalAfter (config.take p) = true ∧
          result = config.take p ++ sshLine name val :: config.drop p)) := by
  obtain ⟨hset, hins⟩ := setSshConfig_spec name val config hne htrail hl
  by_cases hopt : HasGlobalOption config name
  · refine ⟨_, hset hopt, ?_, .inl ⟨hopt, rfl⟩⟩
    obtain ⟨i, l, hi, hg, hs⟩ := hopt
    have hres : (setGlobalLines config name val)[i]? = some (sshLine name val) := by
      simp [setGlobalLines, hi, hg, hs]
    have hglob : globalAfter (config.take i) = true := by
      simp only [isGlobalLine, hi, Bool.and_eq_true] at hg
      exact hg.2
    refine ⟨i, ?_, hres⟩
    simp [isGlobalLine, hres, isMatchLine_sshLine hname, globalAfter_take_setGlobalLines hname, hglob]
  · obtain ⟨p, hp, hglob, hres⟩ := hins hopt
    have hlen : (config.take p).length = p := by simp; omega
    refine ⟨_, hres, ⟨p, ?_, ?_⟩, .inr ⟨hopt, p, hp, hglob, rfl⟩⟩
    · have := isGlobalLine_append_cons (config.take p) (config.drop p) (sshLine name val)
      rw [hlen] at this
      simp [this, isMatchLine_sshLine hname, hglob]
    · rw [List.getElem?_append_right (by omega), hlen, Nat.sub_self, List.getElem?_cons_zero]

/-- A file whose only `PasswordAuthentication` line is inside a `Match` block gets a global
`PasswordAuthentication no`. -/
theorem setSshConfig_sets_global_option_port :
    (["PermitRootLogin no", "Match user backup", "PasswordAuthentication yes"] ≠ [] ∧
        endsClosingBlock ["PermitRootLogin no", "Match user backup", "PasswordAuthentication yes"] =
          false ∧ startswith (lower "PasswordAuthentication") "match" = false ∧
        ∀ l ∈ ["PermitRootLogin no", "Match user backup", "PasswordAuthentication yes"],
          startswith l "PasswordAuthentication" = true → isMatchLine l = false) ∧
      ∃ result, setSshConfig ["PermitRootLogin no", "Match user backup", "PasswordAuthentication yes"]
          "PasswordAuthentication" "no" = .ok result ∧
        ∃ i, isGlobalLine result i = true ∧ result[i]? = some "PasswordAuthentication no" := by
  obtain ⟨result, hres, hglob, -⟩ := setSshConfig_sets_global_option
    ["PermitRootLogin no", "Match user backup", "PasswordAuthentication yes"]
    "PasswordAuthentication" "no" (by decide) (by decide) (by decide) (by decide)
  exact ⟨⟨by decide, by decide, by decide, by decide⟩, result, hres, hglob⟩

/-- `set_ssh_config` does not always return, set the option in global scope and keep the other
lines: on the empty list it raises `UnboundLocalError`, since the insertion reads the loop index
`i`, which was never bound; on a file that ends with the `Match all` line closing a block,
`Port 22` is inserted before that line, inside the block, so that no global line sets the
option; a line that merely begins with the option's name, `PortX 1`, is rewritten; and the name
`Mat`, a prefix of `Match`, rewrites a `Match` line. -/
theorem setSshConfig_counterexample :
    setSshConfig [] "Port" "22" = .error .unboundLocalError ∧
      setSshConfig ["PortX 1"] "Port" "22" = .ok ["Port 22"] ∧
      setSshConfig ["Match user foo", "Match all"] "Port" "22" =
        .ok ["Match user foo", "Port 22", "Match all"] ∧
      isGlobalLine ["Match user foo", "Port 22", "Match all"] 1 = false ∧
      setSshConfig ["Match user a", "Mat 1"] "Mat" "2" = .ok ["Mat 2", "Mat 2"] := by
  decide

/-! ## Setting an option twice -/

/-- `name val` starts with `name`. -/
lemma startswith_sshLine (name val : String) : startswith (sshLine name val) name = true := by
  simp [startswith, sshLine, List.isPrefixOf_iff_prefix]

/-- Setting global option lines makes no line global and none local. -/
lemma isGlobalLine_setGlobalLines {config : List String} {name val : String}
    (hname : startswith (lower name) "match" = false) (i : Nat) :
    isGlobalLine (setGlobalLines config name val) i = isGlobalLine config i := by
  unfold isGlobalLine
  rw [globalAfter_take_setGlobalLines hname]
  cases hi : config[i]? with
  | none => simp [setGlobalLines, hi]
  | some l =>
    simp only [setGlobalLines, List.getElem?_mapIdx, hi, Option.map_some']
    split_ifs with hc
    · have hg := hc.1
      simp only [isGlobalLine, hi, Bool.and_eq_true, Bool.not_eq_true'] at hg
      simp [isMatchLine_sshLine hname, hg.1, hg.2]
    · rfl

/-- A second setting of the global lines that start with `name` sets the same lines. -/
lemma setGlobalLines_setGlobalLines {config : List String} {name val val' : String}
    (hname : startswith (lower name) "match" = false) :
    setGlobalLines (setGlobalLines config name val) name val' = setGlobalLines config name val' := by
  show List.mapIdx (fun i l => if isGlobalLine (setGlobalLines config name val) i = true ∧
    startswith l name = true then sshLine name val' else l) (setGlobalLines config name val) = _
  simp only [isGlobalLine_setGlobalLines hname]
  apply List.ext_getElem?
  intro i
  simp only [setGlobalLines, List.getElem?_mapIdx]
  cases config[i]? with
  | none => rfl
  | some l =>
    by_cases hc : isGlobalLine config i = true ∧ startswith l name = true <;>
      simp [hc, startswith_sshLine]

/-- A line of the result is `name val` or a line of the file. -/
lemma mem_setGlobalLines {config : List String} {name val l : String}
    (h : l ∈ setGlobalLines config name val) : l = sshLine name val ∨ l ∈ config := by
  obtain ⟨i, hi, rfl⟩ := List.getElem_of_mem h
  simp only [setGlobalLines, List.getElem_mapIdx]
  split_ifs
  · exact .inl rfl
  · exact .inr (List.getElem_mem _)

/-- A line that is no `Match` line changes the scope of no line after it. -/
lemma globalAfter_insert {A T : List String} {x : String} (hx : isMatchLine x = false) :
    globalAfter (A ++ x :: T) = globalAfter (A ++ T) := by
  simp [globalAfter, List.filter_append, List.filter_cons, hx]

/-- The inserted line stands at the length of the lines before it. -/
lemma getElem?_insert (A B : List String) (y : String) : (A ++ y :: B)[A.length]? = some y := by
  rw [List.getElem?_append_right (Nat.le_refl _), Nat.sub_self, List.getElem?_cons_zero]

/-- The lines after an inserted line are those of `B`, one place on. -/
lemma getElem?_insert_succ (A B : List String) (y : String) (j : Nat) :
    (A ++ y :: B)[A.length + 1 + j]? = B[j]? := by
  rw [List.getElem?_append_right (by omega), show A.length + 1 + j - A.length = j + 1 by omega,
    List.getElem?_cons_succ]

/-- The lines after an inserted line that is no `Match` line are global exactly when they were. -/
lemma isGlobalLine_insert_succ {A B : List String} {x : String} (hx : isMatchLine x = false)
    (j : Nat) : isGlobalLine (A ++ x :: B) (A.length + 1 + j) = isGlobalLine (A ++ B) (A.length + j) := by
  have h2 : (A ++ B)[A.length + j]? = B[j]? := by
    rw [List.getElem?_append_right (by omega), Nat.add_sub_cancel_left]
  have h3 : (A ++ x :: B).take (A.length + 1 + j) = A ++ x :: B.take j := by
    rw [Nat.add_assoc, List.take_append, Nat.add_comm, List.take_succ_cons]
  simp only [isGlobalLine, getElem?_insert_succ, h2, h3, List.take_append, globalAfter_insert hx]

/-- In a file with no global line that starts with `name`, setting after inserting a global
line that starts with `name` sets that line only. -/
lemma setGlobalLines_insert {A B : List String} {x name val : String} (hx : isMatchLine x = false)
    (hA : globalAfter A = true) (hs : startswith x name = true)
    (hopt : ¬ HasGlobalOption (A ++ B) name) :
    setGlobalLines (A ++ x :: B) name val = A ++ sshLine name val :: B := by
  apply List.ext_getElem?
  intro i
  simp only [setGlobalLines, List.getElem?_mapIdx]
  rcases Nat.lt_trichotomy i A.length with hi | rfl | hi
  · -- a line of `A`
    rw [List.getElem?_append_left hi, List.getElem?_append_left hi, List.getElem?_eq_getElem hi,
      Option.map_some', if_neg]
    rintro ⟨hg, hs'⟩
    rw [isGlobalLine_append_of_lt _ hi, ← isGlobalLine_append_of_lt B hi] at hg
    exact hopt ⟨i, A[i], by rw [List.getElem?_append_left hi, List.getElem?_eq_getElem hi], hg, hs'⟩
  · -- the inserted line
    rw [getElem?_insert, getElem?_insert, Option.map_some',
      if_pos ⟨by simp [isGlobalLine_append_cons, hx, hA], hs⟩]
  · -- a line of `B`
    obtain ⟨j, rfl⟩ : ∃ j, i = A.length + 1 + j := ⟨i - A.length - 1, by omega⟩
    rw [getElem?_insert_succ, getElem?_insert_succ]
    cases hj : B[j]? with
    | none => rfl
    | some l =>
      rw [Option.map_some', if_neg]
      rintro ⟨hg, hs'⟩
      rw [isGlobalLine_insert_succ hx] at hg
      exact hopt ⟨A.length + j, l, by rw [List.getElem?_append_right (by omega), Nat.add_sub_cancel_left, hj],
        hg, hs'⟩

/-- Setting an option twice is setting it once to the second value, on every file the first
setting handles as intended (one that does not end with the `Match all` line closing a block,
for a name that does not begin with `match` and starts no `Match` line): the lines the first
setting wrote are set again and no line is added. With equal values, a second setting changes
nothing. -/
theorem setSshConfig_overwrite (config : List String) (name val val' : String)
    (htrail : endsClosingBlock config = false)
    (hname : startswith (lower name) "match" = false)
    (hl : ∀ l ∈ config, startswith l name = true → isMatchLine l = false) :
    (setSshConfig config name val >>= fun result => setSshConfig result name val') =
      setSshConfig config name val' := by
  rcases eq_or_ne config [] with rfl | hne
  · rfl
  have hsl : isMatchLine (sshLine name val) = false := isMatchLine_sshLine hname
  by_cases hopt : HasGlobalOption config name
  · -- the global lines that start with `name` are set, and set again
    have hl' : ∀ l ∈ setGlobalLines config name val, startswith l name = true → isMatchLine l = false :=
      fun l hm => (mem_setGlobalLines hm).elim (fun h _ => h ▸ hsl) (hl l)
    have hopt' : HasGlobalOption (setGlobalLines config name val) name := by
      obtain ⟨i, l, hi, hg, hs⟩ := hopt
      exact ⟨i, sshLine name val, by simp [setGlobalLines, hi, hg, hs],
        by rw [isGlobalLine_setGlobalLines hname]; exact hg, startswith_sshLine name val⟩
    rw [setSshConfig_of_hasGlobalOption name val hl hopt, setSshConfig_of_hasGlobalOption name val' hl hopt,
      ok_bind, setSshConfig_of_hasGlobalOption name val' hl' hopt', setGlobalLines_setGlobalLines hname]
  · -- `name val` is inserted, and then set
    obtain ⟨p, hp, hglob, hset⟩ := setSshConfig_insert name hne htrail hl hopt
    have hlen : (config.take p).length = p := by simp; omega
    have hl' : ∀ l ∈ config.take p ++ sshLine name val :: config.drop p, startswith l name = true →
        isMatchLine l = false := by
      intro l hm
      rcases List.mem_append.1 hm with hm | hm
      · exact hl l (List.mem_of_mem_take hm)
      · rcases List.mem_cons.1 hm with rfl | hm
        · exact fun _ => hsl
        · exact hl l (List.mem_of_mem_drop hm)
    have hopt' : HasGlobalOption (config.take p ++ sshLine name val :: config.drop p) name := by
      refine ⟨p, sshLine name val, ?_, ?_, startswith_sshLine name val⟩
      · have h := getElem?_insert (config.take p) (config.drop p) (sshLine name val)
        rwa [hlen] at h
      · have := isGlobalLine_append_cons (config.take p) (config.drop p) (sshLine name val)
        rw [hlen] at this
        simp [this, hsl, hglob]
    rw [hset, hset, ok_bind, setSshConfig_of_hasGlobalOption name val' hl' hopt',
      setGlobalLines_insert hsl hglob (startswith_sshLine name val) (by rwa [List.take_append_drop])]

/-- A file with a `Match` block: `PasswordAuthentication no` is inserted before the block, and
setting the option again to `yes` rewrites that line only, leaving the block's line alone. -/
theorem setSshConfig_overwrite_inserted :
    (endsClosingBlock ["PermitRootLogin no", "Match user backup", "PasswordAuthentication yes"] =
          false ∧ startswith (lower "PasswordAuthentication") "match" = false ∧
        ∀ l ∈ ["PermitRootLogin no", "Match user backup", "PasswordAuthentication yes"],
          startswith l "PasswordAuthentication" = true → isMatchLine l = false) ∧
      (setSshConfig ["PermitRootLogin no", "Match user backup", "PasswordAuthentication yes"]
          "PasswordAuthentication" "no" >>= fun result => setSshConfig result "PasswordAuthentication" "yes") =
        .ok ["PermitRootLogin no", "PasswordAuthentication yes", "Match user backup",
          "PasswordAuthentication yes"] :=
  ⟨⟨by decide, by decide, by decide⟩, (setSshConfig_overwrite
    ["PermitRootLogin no", "Match user backup", "PasswordAuthentication yes"] "PasswordAuthentication"
    "no" "yes" (by decide) (by decide) (by decide)).trans (by decide)⟩

end TextUtil

end AzureLinuxAgent
