import AzureLinuxAgent.Python.Str

/-!
# Python's `re`, for the patterns the agent uses

A pattern is a term of `Re`, written by hand from the pattern text of the source. `Re.run` is
the backtracking matcher: from a point of the input it lists every way the pattern can match,
in the order in which Python's engine tries them (the left branch of an alternation first, one
more iteration of a repetition before one fewer). The first entry of that list is therefore the
match Python reports, and `pyMatch`, `searchFrom` and `sub` are written on top of it as
`re.match`, `pattern.search` and `re.sub` are.

Every repeated sub-pattern of the source consumes at least one character per iteration, so a
repetition never stops on an empty iteration; `starRun` drops such iterations, and its budget
of one iteration per remaining character is never the limit.

Under `re.IGNORECASE` the engine compares case-folded characters. Every pattern character of
the source is ASCII, and for those the folding is `foldCase`: the simple lowercase mapping,
which sends only the ASCII capitals, `İ` and the Kelvin sign to ASCII, and the two equivalences
`ı ~ i` and `ſ ~ s` that the compiler adds.
-/

namespace AzureLinuxAgent

namespace Python

/-- The case folding of `re.IGNORECASE` against an ASCII pattern character. -/
def foldCase (c : Char) : Char :=
  match c.toNat with
  | 0x130 | 0x131 => 'i'
  | 0x17F => 's'
  | 0x212A => 'k'
  | _ => c.toLower

/-- Regular expressions: the constructs the agent's patterns are built from. -/
inductive Re where
  /-- The empty pattern. -/
  | empty
  /-- One literal character. -/
  | char (c : Char)
  /-- A character class (`[...]`, `\S`, `\d`, `\w`), given by its membership test. -/
  | set (p : Char → Bool)
  /-- Concatenation. -/
  | seq (r s : Re)
  /-- `r|s`. -/
  | alt (r s : Re)
  /-- Greedy `r*`. -/
  | star (r : Re)
  /-- The capturing group number `k`. -/
  | group (k : Nat) (r : Re)
  /-- `^`. -/
  | bol
  /-- `$`: the end of the input, or just before a final newline. -/
  | eol

/-- A point the matcher has reached: the characters consumed so far, the input still to read,
and the groups captured, latest first, as `(group, start, stop)`. -/
structure Cursor where
  pos : Nat
  rest : List Char
  caps : List (Nat × Nat × Nat)

namespace Re

/-- Greedy `r+`. -/
def plus (r : Re) : Re := seq r (star r)

/-- A literal string. -/
def lit : List Char → Re
  | [] => empty
  | c :: cs => seq (char c) (lit cs)

/-- `r₁|r₂|...|rₙ`, tried from the left. -/
def alts : List Re → Re
  | [] => empty
  | [r] => r
  | r :: rs => alt r (alts rs)

/-- Greedy `r{m,}`. -/
def atLeast (m : Nat) (r : Re) : Re := (List.replicate m r).foldr seq (star r)

/-- `r{m}`. -/
def rep (m : Nat) (r : Re) : Re := (List.replicate m r).foldr seq empty

end Re

/-- Whether the input character `x` matches the pattern character `c`. -/
def charMatches (ic : Bool) (c x : Char) : Bool := x == c || (ic && foldCase x == foldCase c)

/-- Whether the input character `x` belongs to the class `p`. -/
def setMatches (ic : Bool) (p : Char → Bool) (x : Char) : Bool := p x || (ic && p (foldCase x))

@[simp] lemma setMatches_false (p : Char → Bool) : setMatches false p = p :=
  funext fun x => by simp [setMatches]

/-- The cursor after reading one character, with `xs` left. -/
def Cursor.advance (c : Cursor) (xs : List Char) : Cursor := { c with pos := c.pos + 1, rest := xs }

/-- Greedy repetition of `body` with at most `n` further iterations: every continuation after
one more non-empty iteration, then stopping here. -/
def starRun (body : Cursor → List Cursor) : Nat → Cursor → List Cursor
  | 0, c => [c]
  | n + 1, c => ((body c).filter fun d => c.pos < d.pos).flatMap (starRun body n) ++ [c]

/-- Every way the pattern matches from `c`, in the order the backtracking engine tries them;
`ic` is `re.IGNORECASE`. -/
def Re.run (ic : Bool) : Re → Cursor → List Cursor
  | .empty, c => [c]
  | .char ch, c =>
    match c.rest with
    | x :: xs => if charMatches ic ch x then [c.advance xs] else []
    | [] => []
  | .set p, c =>
    match c.rest with
    | x :: xs => if setMatches ic p x then [c.advance xs] else []
    | [] => []
  | .seq r t, c => (r.run ic c).flatMap (t.run ic)
  | .alt r t, c => r.run ic c ++ t.run ic c
  | .star r, c => starRun (r.run ic) (c.rest.length + 1) c
  | .group k r, c => (r.run ic c).map fun d => { d with caps := (k, c.pos, d.pos) :: d.caps }
  | .bol, c => if c.pos = 0 then [c] else []
  | .eol, c => if c.rest = [] ∨ c.rest = ['\n'] then [c] else []

/-- `re.match(r, s)`: the match Python reports at the start of `s`, if any. -/
def Re.pyMatch (ic : Bool) (r : Re) (s : String) : Option Cursor :=
  (r.run ic ⟨0, s.data, []⟩).head?

/-- The text group `k` of a match captured in the input `s`, if the group took part. -/
def Cursor.group (d : Cursor) (s : List Char) (k : Nat) : Option (List Char) :=
  (d.caps.lookup k).map fun ab => (s.drop ab.1).take (ab.2 - ab.1)

/-- The search `re.sub` runs from position `i`, with `rest` still to read: the first position
where the pattern matches, with the match. When `adv` holds (the previous match was empty and
ended at `i`) a match at `i` itself must be non-empty. -/
def Re.searchFrom (ic : Bool) (r : Re) : Bool → Nat → List Char → Option (Nat × Cursor)
  | adv, i, [] => (((r.run ic ⟨i, [], []⟩).filter fun d => !adv || i < d.pos).head?).map (i, ·)
  | adv, i, x :: xs =>
    match ((r.run ic ⟨i, x :: xs, []⟩).filter fun d => !adv || i < d.pos).head? with
    | some d => some (i, d)
    | none => r.searchFrom ic false (i + 1) xs

/-- `pattern.search(s)`: the first position where the pattern matches, with the match. -/
def Re.search (ic : Bool) (r : Re) (s : String) : Option (Nat × Cursor) :=
  r.searchFrom ic false 0 s.data

/-- The scanning loop of `re.sub` from position `i` with `rest` still to read, each match
replaced by `repl` of it, for at most `fuel` matches. -/
def Re.subLoop (ic : Bool) (r : Re) (repl : Cursor → List Char) :
    Nat → Bool → Nat → List Char → List Char
  | 0, _, _, rest => rest
  | fuel + 1, adv, i, rest =>
    match r.searchFrom ic adv i rest with
    | none => rest
    | some (j, d) => rest.take (j - i) ++ repl d ++ r.subLoop ic repl fuel (d.pos == j) d.pos d.rest

/-- `re.sub(r, repl, s)`. Two scanning steps always move past at least one character, so
`2 * len + 2` matches are never the limit. -/
def Re.sub (ic : Bool) (r : Re) (repl : Cursor → List Char) (s : String) : String :=
  ⟨r.subLoop ic repl (2 * s.length + 2) false 0 s.data⟩

/-- The scanning loop of `re.findall` from position `i` with `rest` still to read: the text of
each match, for at most `fuel` matches. It moves on as `subLoop` does. -/
def Re.findallLoop (ic : Bool) (r : Re) : Nat → Bool → Nat → List Char → List (List Char)
  | 0, _, _, _ => []
  | fuel + 1, adv, i, rest =>
    match r.searchFrom ic adv i rest with
    | none => []
    | some (j, d) => (rest.drop (j - i)).take (d.pos - j) :: r.findallLoop ic fuel (d.pos == j) d.pos d.rest

/-- `re.findall(r, s)` for a pattern without groups: the text of every match, left to right. -/
def Re.findall (ic : Bool) (r : Re) (s : String) : List String :=
  (r.findallLoop ic (2 * s.length + 2) false 0 s.data).map String.mk

/-! ## The matcher on the shapes the agent's patterns have -/

/-- The cursor after reading `k` more characters. -/
def Cursor.skip (c : Cursor) (k : Nat) : Cursor := { c with pos := c.pos + k, rest := c.rest.drop k }

@[simp] lemma Cursor.skip_zero (c : Cursor) : c.skip 0 = c := rfl

lemma Cursor.advance_skip (c : Cursor) (x : Char) (xs : List Char) (h : c.rest = x :: xs) (k : Nat) :
    (c.advance xs).skip k = c.skip (k + 1) := by
  simp only [Cursor.skip, Cursor.advance, h, List.drop_succ_cons, Nat.add_assoc, Nat.add_comm 1 k]

/-- Reading the literal `w` at the front of `xs`: what is left after it, if it is there. -/
def litMatch (ic : Bool) : List Char → List Char → Option (List Char)
  | [], xs => some xs
  | _ :: _, [] => none
  | c :: cs, x :: xs => if charMatches ic c x then litMatch ic cs xs else none

/-- A literal has at most one match: the input after it, when the input starts with it. -/
lemma run_lit (ic : Bool) (w : List Char) (c : Cursor) :
    (Re.lit w).run ic c =
      ((litMatch ic w c.rest).map fun xs => { c with pos := c.pos + w.length, rest := xs }).toList := by
  induction w generalizing c with
  | nil => rfl
  | cons a w ih =>
    obtain ⟨pos, rest, caps⟩ := c
    cases rest with
    | nil => rfl
    | cons x xs =>
      by_cases hx : charMatches ic a x
      · simp only [Re.lit, Re.run, hx, if_true, List.flatMap_singleton, Cursor.advance, ih,
          litMatch, List.length_cons, Nat.add_assoc, Nat.add_comm 1]
      · simp [Re.lit, Re.run, hx, litMatch]

/-- The cursors after reading `n`, `n - 1`, ..., `m` more characters: the way a greedy
repetition backs off. -/
def Cursor.backOff (c : Cursor) (m n : Nat) : List Cursor :=
  ((List.range (n + 1)).reverse.filter (m ≤ ·)).map c.skip

lemma Cursor.backOff_succ (c : Cursor) (x : Char) (xs : List Char) (h : c.rest = x :: xs) (m n : Nat) :
    c.backOff m (n + 1) = (c.advance xs).backOff (m - 1) n ++ if m = 0 then [c] else [] := by
  simp only [Cursor.backOff, List.range_succ_eq_map (n + 1), List.reverse_cons, List.filter_append,
    List.map_append, List.filter_reverse, List.filter_map, List.map_reverse, List.map_map]
  congr 1
  · simp only [Function.comp_def]
    rw [List.filter_congr fun k _ => show decide (m ≤ k.succ) = decide (m - 1 ≤ k) by
      simp only [decide_eq_decide]; omega]
    exact congrArg List.reverse (List.map_congr_left fun k _ => (Cursor.advance_skip c x xs h k).symm)
  · by_cases hm : m = 0 <;> simp [hm]

lemma starRun_set (ic : Bool) (p : Char → Bool) :
    ∀ (fuel : Nat) (c : Cursor), (c.rest.takeWhile (setMatches ic p)).length < fuel →
      starRun ((Re.set p).run ic) fuel c = c.backOff 0 (c.rest.takeWhile (setMatches ic p)).length
  | 0, _, h => absurd h (Nat.not_lt_zero _)
  | fuel + 1, c, h => by
    obtain ⟨pos, rest, caps⟩ := c
    cases rest with
    | nil => rfl
    | cons x xs =>
      by_cases hx : setMatches ic p x
      · have hlen : (xs.takeWhile (setMatches ic p)).length < fuel := by
          simp only [List.takeWhile_cons, hx, if_true, List.length_cons] at h; omega
        have hrun : (Re.set p).run ic ⟨pos, x :: xs, caps⟩ = [⟨pos + 1, xs, caps⟩] := by
          simp [Re.run, hx, Cursor.advance]
        rw [starRun, hrun, List.takeWhile_cons, if_pos hx, List.length_cons,
          Cursor.backOff_succ _ x xs rfl]
        simp only [List.filter_cons, Nat.lt_succ_self, decide_True, if_true, List.filter_nil,
          List.flatMap_singleton]
        exact congrArg (· ++ _) (starRun_set ic p fuel ⟨pos + 1, xs, caps⟩ hlen)
      · simp [starRun, Re.run, hx, List.takeWhile_cons, Cursor.backOff]; rfl

lemma run_atLeast_set (ic : Bool) (p : Char → Bool) (m : Nat) (c : Cursor) :
    (Re.atLeast m (.set p)).run ic c = c.backOff m (c.rest.takeWhile (setMatches ic p)).length := by
  induction m generalizing c with
  | zero => exact starRun_set ic p _ c (Nat.lt_succ_of_le ((List.takeWhile_prefix _).length_le))
  | succ m ih =>
    obtain ⟨pos, rest, caps⟩ := c
    have hseq : Re.atLeast (m + 1) (.set p) = .seq (.set p) (Re.atLeast m (.set p)) := rfl
    cases rest with
    | nil => simp [hseq, Re.run, Cursor.backOff]
    | cons x xs =>
      by_cases hx : setMatches ic p x
      · have hrun : (Re.set p).run ic ⟨pos, x :: xs, caps⟩ = [⟨pos + 1, xs, caps⟩] := by
          simp [Re.run, hx, Cursor.advance]
        rw [hseq, Re.run, hrun, List.flatMap_singleton, ih, List.takeWhile_cons, if_pos hx,
          List.length_cons, Cursor.backOff_succ _ x xs rfl]
        simp [Cursor.advance]
      · simp [hseq, Re.run, hx, List.takeWhile_cons, Cursor.backOff]

/-- A greedy repetition tried first with its longest run. -/
lemma Cursor.backOff_zero_eq (c : Cursor) (n : Nat) :
    c.backOff 0 n = c.skip n :: (List.range n).reverse.map c.skip := by
  simp [Cursor.backOff, List.range_succ]

/-- Past the longest run of class characters, a pattern that fails on every class character
leaves only the longest run: the greedy star never backs off. -/
lemma flatMap_backOff (c : Cursor) (n : Nat) (g : Cursor → Cursor) (F : Cursor → List Cursor)
    (hF : ∀ k < n, F (g (c.skip k)) = []) :
    ((c.backOff 0 n).map g).flatMap F = F (g (c.skip n)) := by
  rw [Cursor.backOff_zero_eq, List.map_cons, List.flatMap_cons, List.map_map,
    List.flatMap_eq_nil_iff.2, List.append_nil]
  intro d hd
  simp only [List.mem_map, List.mem_reverse, List.mem_range, Function.comp] at hd
  obtain ⟨k, hk, rfl⟩ := hd
  exact hF k hk

/-- Inside a run of characters `q` accepts, the input still starts with such a character. -/
lemma drop_of_lt_takeWhile {q : Char → Bool} {xs : List Char} {k : Nat}
    (hk : k < (xs.takeWhile q).length) : ∃ x ys, xs.drop k = x :: ys ∧ q x = true := by
  have hlt : k < xs.length := lt_of_lt_of_le hk (List.takeWhile_prefix q).length_le
  refine ⟨xs[k], xs.drop (k + 1), List.drop_eq_getElem_cons hlt, ?_⟩
  have hmem := List.getElem_mem hk
  rw [(List.takeWhile_prefix q).getElem hk] at hmem
  exact List.mem_takeWhile_imp hmem

/-- `[p]*t` where `t` cannot start on a character of `p`: `t` runs after the longest run. -/
lemma run_star_seq (ic : Bool) (p : Char → Bool) (t : Re) (c : Cursor)
    (ht : ∀ d : Cursor, ∀ x xs, d.rest = x :: xs → setMatches ic p x = true → t.run ic d = []) :
    (Re.seq (Re.star (.set p)) t).run ic c =
      t.run ic (c.skip (c.rest.takeWhile (setMatches ic p)).length) := by
  have hstar := run_atLeast_set ic p 0 c
  simp only [Re.atLeast, List.replicate_zero, List.foldr_nil] at hstar
  rw [Re.run, hstar, ← List.map_id (c.backOff _ _), flatMap_backOff c _ id]
  · rfl
  intro k hk
  obtain ⟨x, ys, hxs, hx⟩ := drop_of_lt_takeWhile hk
  exact ht _ x ys hxs hx

/-- `([p]*)t` where `t` cannot start on a character of `p`: the group holds the longest run. -/
lemma run_group_star_seq (ic : Bool) (k : Nat) (p : Char → Bool) (t : Re) (c : Cursor)
    (ht : ∀ d : Cursor, ∀ x xs, d.rest = x :: xs → setMatches ic p x = true → t.run ic d = []) :
    (Re.seq (Re.group k (Re.star (.set p))) t).run ic c =
      let n := (c.rest.takeWhile (setMatches ic p)).length
      t.run ic { c.skip n with caps := (k, c.pos, c.pos + n) :: c.caps } := by
  have hstar := run_atLeast_set ic p 0 c
  simp only [Re.atLeast, List.replicate_zero, List.foldr_nil] at hstar
  rw [Re.run, Re.run, hstar, flatMap_backOff]
  · rfl
  intro j hj
  obtain ⟨x, ys, hxs, hx⟩ := drop_of_lt_takeWhile hj
  exact ht _ x ys hxs hx

/-- `r{m}` over a class, on input whose next `m` characters are in the class, matches exactly
those `m` characters. -/
lemma run_rep_set (ic : Bool) (p : Char → Bool) (m : Nat) (c : Cursor) (hm : m ≤ c.rest.length)
    (h : ∀ x ∈ c.rest.take m, setMatches ic p x = true) : (Re.rep m (.set p)).run ic c = [c.skip m] := by
  induction m generalizing c with
  | zero => rfl
  | succ m ih =>
    obtain ⟨pos, rest, caps⟩ := c
    cases rest with
    | nil => exact absurd hm (Nat.not_succ_le_zero m)
    | cons x xs =>
      have hx : setMatches ic p x = true := h x (List.mem_cons_self x _)
      have hrun : (Re.set p).run ic ⟨pos, x :: xs, caps⟩ = [⟨pos + 1, xs, caps⟩] := by
        simp [Re.run, hx, Cursor.advance]
      have hseq : Re.rep (m + 1) (.set p) = .seq (.set p) (Re.rep m (.set p)) := rfl
      rw [hseq, Re.run, hrun, List.flatMap_singleton,
        ih ⟨pos + 1, xs, caps⟩ (Nat.le_of_succ_le_succ hm) fun y hy => h y (List.mem_cons_of_mem x hy)]
      simp only [Cursor.skip, List.drop_succ_cons, Nat.add_assoc, Nat.add_comm 1 m]

/-- The search finds the first match the engine tries at `i`, when that one is allowed. -/
lemma searchFrom_eq_some (ic : Bool) (r : Re) (adv : Bool) (i : Nat) (rest : List Char) (d : Cursor)
    (h : ((r.run ic ⟨i, rest, []⟩).filter fun d => !adv || i < d.pos).head? = some d) :
    r.searchFrom ic adv i rest = some (i, d) := by
  cases rest <;> simp [Re.searchFrom, h]

/-- `re.findall` with `r{w}` over a class, on class characters whose number is a multiple of
`w`: the consecutive blocks of `w` characters, for any fuel above the number of blocks. -/
lemma findallLoop_rep_set (ic : Bool) (p : Char → Bool) {w : Nat} (hw : 0 < w) :
    ∀ (k fuel : Nat) (adv : Bool) (i : Nat) (rest : List Char), rest.length = k * w → k < fuel →
      (∀ x ∈ rest, setMatches ic p x = true) →
      (Re.rep w (.set p)).findallLoop ic fuel adv i rest = blocks w rest
  | _, 0, _, _, _, _, hk, _ => absurd hk (Nat.not_lt_zero _)
  | 0, fuel + 1, adv, i, rest, hl, _, _ => by
    obtain rfl : rest = [] := List.eq_nil_of_length_eq_zero (by simpa using hl)
    obtain ⟨w, rfl⟩ := Nat.exists_eq_add_of_lt hw
    simp [Re.findallLoop, Re.searchFrom, Re.rep, Re.run]
  | k + 1, fuel + 1, adv, i, rest, hl, hk, hp => by
    have hm : w ≤ rest.length := by rw [hl, Nat.succ_mul]; omega
    have hrun := run_rep_set ic p w ⟨i, rest, []⟩ hm fun x hx => hp x (List.mem_of_mem_take hx)
    have hs := searchFrom_eq_some ic (Re.rep w (.set p)) adv i rest ⟨i + w, rest.drop w, []⟩
      (by simp [hrun, Cursor.skip, hw])
    have ih := findallLoop_rep_set ic p hw k fuel false (i + w) (rest.drop w)
      (by rw [List.length_drop, hl, Nat.succ_mul, Nat.add_sub_cancel]) (Nat.lt_of_succ_lt_succ hk)
      fun x hx => hp x (List.mem_of_mem_drop hx)
    have hb := blocks_append (rest.drop w) (show (rest.take w).length = w by simp [hm]) hw
    rw [List.take_append_drop] at hb
    simp only [Re.findallLoop, hs, Cursor.skip, Nat.sub_self, List.drop_zero, Nat.add_sub_cancel_left,
      show (i + w == i) = false by simp [Nat.pos_iff_ne_zero.1 hw], ih, hb]

/-- A pattern that matches nowhere in `rest` is not found by the search. -/
lemma searchFrom_eq_none (ic : Bool) (r : Re) (adv : Bool) (i : Nat) (rest : List Char)
    (h : ∀ j xs, xs <:+ rest → r.run ic ⟨j, xs, []⟩ = []) : r.searchFrom ic adv i rest = none := by
  induction rest generalizing adv i with
  | nil => simp [Re.searchFrom, h i [] List.suffix_rfl]
  | cons x xs ih =>
    simp only [Re.searchFrom, h i (x :: xs) List.suffix_rfl, List.filter_nil, List.head?_nil]
    exact ih false (i + 1) fun j ys hys => h j ys (hys.trans (List.suffix_cons x xs))

/-- `re.sub` with a pattern that matches nowhere returns its input. -/
lemma sub_eq_self (ic : Bool) (r : Re) (repl : Cursor → List Char) (s : String)
    (h : ∀ j xs, xs <:+ s.data → r.run ic ⟨j, xs, []⟩ = []) : r.sub ic repl s = s := by
  simp only [Re.sub, Re.subLoop, searchFrom_eq_none ic r false 0 s.data h]

/-- The first way `r{m,}` over a class matches is the whole run, if it is long enough. -/
lemma Cursor.backOff_head? (c : Cursor) (m n : Nat) :
    (c.backOff m n).head? = if m ≤ n then some (c.skip n) else none := by
  rw [Cursor.backOff, List.range_succ, List.reverse_append, List.reverse_singleton, List.singleton_append,
    List.filter_cons]
  by_cases hm : m ≤ n
  · simp [hm]
  · have hnil : ((List.range n).reverse.filter (m ≤ ·)) = [] :=
      List.filter_eq_nil_iff.2 fun k hk => by simp at hk ⊢; omega
    simp [hm, hnil]

/-- A literal followed by `t`: `t` runs after the literal, when the input starts with it. -/
lemma run_lit_seq (ic : Bool) (w : List Char) (t : Re) (c : Cursor) :
    (Re.seq (Re.lit w) t).run ic c =
      match litMatch ic w c.rest with
      | some xs => t.run ic { c with pos := c.pos + w.length, rest := xs }
      | none => [] := by
  rw [Re.run, run_lit]
  cases litMatch ic w c.rest <;> simp

/-- Without `re.IGNORECASE` a literal matches exactly the inputs that start with it. -/
lemma litMatch_false_eq_some (w xs ys : List Char) : litMatch false w xs = some ys ↔ xs = w ++ ys := by
  induction w generalizing xs with
  | nil => simp [litMatch, eq_comm]
  | cons c w ih =>
    cases xs with
    | nil => simp [litMatch]
    | cons x xs =>
      by_cases hx : x = c
      · subst hx; simp [litMatch, charMatches, ih]
      · simp [litMatch, charMatches, hx]

/-- The first match of `literal(class{m,})`, the class group numbered `k`: the literal, then
the whole run of class characters after it, when it is long enough. -/
lemma run_lit_group_head? (w : List Char) (k m : Nat) (q : Char → Bool) (c : Cursor) :
    ((Re.seq (Re.lit w) (Re.group k (Re.atLeast m (.set q)))).run false c).head? =
      match litMatch false w c.rest with
      | some ys =>
        let n := (ys.takeWhile q).length
        if m ≤ n then
          some ⟨c.pos + w.length + n, ys.drop n, (k, c.pos + w.length, c.pos + w.length + n) :: c.caps⟩
        else none
      | none => none := by
  rw [run_lit_seq]
  cases litMatch false w c.rest with
  | none => rfl
  | some ys =>
    simp only [Re.run, run_atLeast_set, List.head?_map, Cursor.backOff_head?]
    have hq : setMatches false q = q := funext fun x => by simp [setMatches]
    rw [hq]
    split <;> rfl

/-- `re.match` of a pattern anchored with `^` runs the rest of the pattern from the start. -/
lemma pyMatch_bol_seq (ic : Bool) (t : Re) (s : String) :
    (Re.seq .bol t).pyMatch ic s = (t.run ic ⟨0, s.data, []⟩).head? := by
  simp [Re.pyMatch, Re.run]

/-- A match of `literal(class{m,})`: the input starts with the literal, and the group holds the
whole run of class characters after it. -/
lemma head?_lit_group_eq_some {w : List Char} {k m : Nat} {q : Char → Bool} {c d : Cursor}
    (h : ((Re.seq (Re.lit w) (Re.group k (Re.atLeast m (.set q)))).run false c).head? = some d) :
    ∃ ys, c.rest = w ++ ys ∧ m ≤ (ys.takeWhile q).length ∧
      d.caps = (k, c.pos + w.length, c.pos + w.length + (ys.takeWhile q).length) :: c.caps := by
  rw [run_lit_group_head?] at h
  split at h
  · rename_i ys hys
    dsimp only at h
    split at h
    · cases h
      exact ⟨ys, (litMatch_false_eq_some w _ ys).1 hys, ‹_›, rfl⟩
    · cases h
  · cases h

/-- A pattern that starts with a literal whose first character is outside the class `p`
cannot match where a character of `p` comes next. -/
lemma run_lit_seq_of_class {p : Char → Bool} {w₀ : Char} {ws : List Char} (hw : p w₀ = false)
    (t : Re) (d : Cursor) (x : Char) (xs : List Char) (hd : d.rest = x :: xs)
    (hx : setMatches false p x = true) : (Re.seq (Re.lit (w₀ :: ws)) t).run false d = [] := by
  have hne : charMatches false w₀ x = false := by
    have : x ≠ w₀ := fun e => by simp [setMatches, e, hw] at hx
    simp [charMatches, this]
  rw [run_lit_seq, hd]
  simp [litMatch, hne]

/-- The text of the group `k` of a match whose latest capture is that group. -/
lemma Cursor.group_cons (d : Cursor) (s : List Char) (k a b : Nat)
    (rest : List (Nat × Nat × Nat)) (h : d.caps = (k, a, b) :: rest) :
    d.group s k = some ((s.drop a).take (b - a)) := by
  simp [Cursor.group, h]

/-! ## Patterns whose classes agree on the input -/

/-- Two patterns of one shape whose classes agree, under the flag `ic`, on every character
that `A` admits. -/
inductive Re.Agree (ic : Bool) (A : Char → Prop) : Re → Re → Prop
  | empty : Re.Agree ic A .empty .empty
  | char (c : Char) : Re.Agree ic A (.char c) (.char c)
  | set {p q : Char → Bool} (h : ∀ x, A x → setMatches ic p x = setMatches ic q x) :
      Re.Agree ic A (.set p) (.set q)
  | seq {r r' t t' : Re} :
      Re.Agree ic A r r' → Re.Agree ic A t t' → Re.Agree ic A (.seq r t) (.seq r' t')
  | alt {r r' t t' : Re} :
      Re.Agree ic A r r' → Re.Agree ic A t t' → Re.Agree ic A (.alt r t) (.alt r' t')
  | star {r r' : Re} : Re.Agree ic A r r' → Re.Agree ic A (.star r) (.star r')
  | group (k : Nat) {r r' : Re} : Re.Agree ic A r r' → Re.Agree ic A (.group k r) (.group k r')
  | bol : Re.Agree ic A .bol .bol
  | eol : Re.Agree ic A .eol .eol

/-- Every pattern agrees with itself. -/
lemma Re.Agree.refl (ic : Bool) (A : Char → Prop) : ∀ r : Re, Re.Agree ic A r r
  | .empty => .empty
  | .char c => .char c
  | .set _ => .set fun _ _ => rfl
  | .seq r t => .seq (refl ic A r) (refl ic A t)
  | .alt r t => .alt (refl ic A r) (refl ic A t)
  | .star r => .star (refl ic A r)
  | .group k r => .group k (refl ic A r)
  | .bol => .bol
  | .eol => .eol

/-- `r{m,}` of two agreeing patterns. -/
lemma Re.Agree.atLeast {ic : Bool} {A : Char → Prop} {r r' : Re} (h : Re.Agree ic A r r') :
    ∀ m, Re.Agree ic A (Re.atLeast m r) (Re.atLeast m r')
  | 0 => .star h
  | m + 1 => .seq h (atLeast h m)

section Agree

variable {A : Char → Prop}

/-- Two matchers that agree from every cursor whose input `A` admits, and reach only such
cursors, give the same continuation over a list of such cursors. -/
lemma flatMap_congr_of_input {f g : Cursor → List Cursor}
    (h : ∀ c : Cursor, (∀ x ∈ c.rest, A x) → f c = g c ∧ ∀ d ∈ f c, ∀ x ∈ d.rest, A x) :
    ∀ l : List Cursor, (∀ c ∈ l, ∀ x ∈ c.rest, A x) →
      l.flatMap f = l.flatMap g ∧ ∀ d ∈ l.flatMap f, ∀ x ∈ d.rest, A x
  | [], _ => ⟨rfl, by simp⟩
  | c :: l, hl => by
    obtain ⟨hc, hcA⟩ := h c (hl c (List.mem_cons_self c l))
    obtain ⟨ih, ihA⟩ := flatMap_congr_of_input h l fun d hd => hl d (List.mem_cons_of_mem c hd)
    simp only [List.flatMap_cons, List.mem_append]
    exact ⟨by rw [hc, ih], fun d hd => hd.elim (hcA d) (ihA d)⟩

/-- Reading one character leaves only input that `A` admits. -/
lemma advance_input {c : Cursor} {x : Char} {xs : List Char} (hxs : c.rest = x :: xs)
    (hc : ∀ y ∈ c.rest, A y) (b : Bool) :
    ∀ d ∈ (if b then [c.advance xs] else []), ∀ y ∈ d.rest, A y := by
  cases b <;> simp only [Cursor.advance, if_true, List.mem_singleton, List.not_mem_nil]
  · simp
  · rintro d rfl y hy
    exact hc y (by simp [hxs, hy])

/-- A repetition of two such bodies. -/
lemma starRun_congr {body body' : Cursor → List Cursor}
    (h : ∀ c : Cursor, (∀ x ∈ c.rest, A x) → body c = body' c ∧ ∀ d ∈ body c, ∀ x ∈ d.rest, A x) :
    ∀ (n : Nat) (c : Cursor), (∀ x ∈ c.rest, A x) →
      starRun body n c = starRun body' n c ∧ ∀ d ∈ starRun body n c, ∀ x ∈ d.rest, A x
  | 0, c, hc => ⟨rfl, by simpa [starRun] using hc⟩
  | n + 1, c, hc => by
    obtain ⟨hb, hbA⟩ := h c hc
    obtain ⟨ih, ihA⟩ := flatMap_congr_of_input (starRun_congr h n) ((body c).filter fun d => c.pos < d.pos)
      fun d hd => hbA d (List.mem_of_mem_filter hd)
    simp only [starRun, List.mem_append, List.mem_singleton]
    refine ⟨by rw [← hb, ih], fun d hd => ?_⟩
    rcases hd with hd | rfl
    · exact ihA d hd
    · exact hc

/-- Two patterns whose classes agree on the characters `A` admits match alike on input that
`A` admits, and leave only such input. -/
lemma Re.run_congr {ic : Bool} {r r' : Re} (hr : Re.Agree ic A r r') :
    ∀ c : Cursor, (∀ x ∈ c.rest, A x) →
      r.run ic c = r'.run ic c ∧ ∀ d ∈ r.run ic c, ∀ x ∈ d.rest, A x := by
  induction hr with
  | empty => exact fun c hc => ⟨rfl, by simpa [Re.run] using hc⟩
  | char ch =>
    intro c hc
    refine ⟨rfl, ?_⟩
    simp only [Re.run]
    split
    · exact advance_input (by assumption) hc _
    · simp
  | @set p q hpq =>
    intro c hc
    simp only [Re.run]
    split
    · rename_i x xs hxs
      rw [hpq x (hc x (by simp [hxs]))]
      exact ⟨rfl, advance_input hxs hc _⟩
    · simp
  | seq _ _ ihr iht =>
    intro c hc
    obtain ⟨hr, hrA⟩ := ihr c hc
    simp only [Re.run]
    rw [← hr]
    exact flatMap_congr_of_input iht _ hrA
  | alt _ _ ihr iht =>
    intro c hc
    obtain ⟨hr, hrA⟩ := ihr c hc
    obtain ⟨ht, htA⟩ := iht c hc
    simp only [Re.run, List.mem_append]
    exact ⟨by rw [hr, ht], fun d hd => hd.elim (hrA d) (htA d)⟩
  | star _ ih => exact fun c hc => starRun_congr ih _ c hc
  | group k _ ih =>
    intro c hc
    obtain ⟨hr, hrA⟩ := ih c hc
    simp only [Re.run, List.mem_map]
    exact ⟨by rw [hr], fun _ ⟨d, hd, he⟩ => he ▸ hrA d hd⟩
  | bol => intro c hc; refine ⟨rfl, fun d hd => ?_⟩; simp only [Re.run] at hd; split at hd <;> simp_all
  | eol => intro c hc; refine ⟨rfl, fun d hd => ?_⟩; simp only [Re.run] at hd; split at hd <;> simp_all

end Agree

end Python

end AzureLinuxAgent
