import AzureLinuxAgent.Python.Regex

/-!
# The command line (`agent.parse_args`)

`parse_args` walks the arguments and matches each against a chain of patterns with
`re.match`, which anchors a match at the start of the argument but not at its end. Two of the
patterns capture a value: `configuration-path:([\w/\.\-_]+)` and
`setup-firewall=(?P<endpoint>[\d.]{7,})`. A greedy class repetition stops at the first
character outside the class, so the value is the longest prefix of the rest of the argument
made of class characters, not the whole rest of the argument.

`parseArgs_values` states what every returned value is, for every argument list, and
`parseArgs_truncates` runs the code on arguments whose values are cut short.
`parseArgs_stops_at_unknown` shows that the `break` of the last branch makes everything after
the first unknown argument unread, and `startArgs_round_trip` that the daemon `start` launches
parses the configuration path back.
-/

namespace AzureLinuxAgent

namespace Agent

open Python

/-! ## The patterns -/

/-- `AgentCommands`. -/
structure AgentCommands where
  deprovisionUser : String := "deprovision+user"
  deprovision : String := "deprovision"
  daemon : String := "daemon"
  start : String := "start"
  registerService : String := "register-service"
  runExthandlers : String := "run-exthandlers"
  version : String := "version"
  showConfig : String := "show-configuration"
  help : String := "help"
  collectLogs : String := "collect-logs"
  setupFirewall : String := "setup-firewall"
  provision : String := "provision"

/-- The values of `AgentCommands`. -/
def agentCommands : AgentCommands := {}

/-- The class of the characters `-` and `/` that may lead an option. -/
def isDash (c : Char) : Bool := c == '-' || c == '/'

/-- `[\w/\.\-_]`. -/
def isConfPathChar (u : UnicodeData) (c : Char) : Bool :=
  u.word c || c == '/' || c == '.' || c == '-' || c == '_'

/-- `[\d.]`. -/
def isEndpointChar (u : UnicodeData) (c : Char) : Bool := u.digit c || c == '.'

/-- `configuration-path:([\w/\.\-_]+)` after any number of dashes and slashes, from the start. -/
def configurationPathRe (u : UnicodeData) : Re :=
  .seq .bol (.seq (.star (.set isDash))
    (.seq (Re.lit "configuration-path:".data) (.group 1 (Re.atLeast 1 (.set (isConfPathChar u))))))

/-- `regex_cmd_format.format(cmd)`: the command after a group of dashes and slashes, from the
start, for a command without pattern characters. -/
def regexCmd (cmd : String) : Re := .seq .bol (.seq (.group 1 (.star (.set isDash))) (Re.lit cmd.data))

/-- The pattern of `deprovision+user`, whose `+` the source escapes. -/
def deprovisionUserRe : Re := regexCmd "deprovision+user"

/-- `(help|usage|\?)` after a group of dashes and slashes, from the start. -/
def helpRe : Re :=
  .seq .bol (.seq (.group 1 (.star (.set isDash)))
    (.group 2 (Re.alts [Re.lit "help".data, Re.lit "usage".data, .char '?'])))

/-- `setup-firewall=(?P<endpoint>[\d.]{7,})` after a group of dashes and slashes, from the
start; the endpoint is group 2. -/
def setupFirewallRe (u : UnicodeData) : Re :=
  .seq .bol (.seq (.group 1 (.star (.set isDash)))
    (.seq (Re.lit "setup-firewall=".data) (.group 2 (Re.atLeast 7 (.set (isEndpointChar u))))))

/-- `re.match(r, arg) is not None`. -/
def reMatches (r : Re) (arg : String) : Bool := (r.pyMatch false arg).isSome

/-- `m.group(k)` of a match of `arg`, for a group that takes part in every match. -/
def groupText (m : Cursor) (arg : String) (k : Nat) : String := ⟨(m.group arg.data k).getD []⟩

/-- `v` is the value an argument `arg` gives the option `opt`: `arg` is `opt` after a run of
dashes and slashes, and `v` is the longest prefix of what follows made of characters of the
class `cls`, at least `least` of them. -/
def IsOptionValue (opt : String) (cls : Char → Bool) (least : Nat) (arg v : String) : Prop :=
  ∃ pre rest, arg.data = pre ++ opt.data ++ rest ∧ (∀ c ∈ pre, isDash c = true) ∧
    v.data = rest.takeWhile cls ∧ least ≤ v.length

/-- The tail `opt(cls{least,})` of an argument pattern, run after the leading dashes and
slashes, finds the value the argument gives the option. -/
lemma isOptionValue_of_head? {opt : String} {cls : Char → Bool} {least k n : Nat} {arg : String}
    {c d : Cursor} (hpos : c.pos = n) (hrest : c.rest = arg.data.drop n)
    (hn : n = (arg.data.takeWhile isDash).length)
    (h : ((Re.seq (Re.lit opt.data) (Re.group k (Re.atLeast least (.set cls)))).run false c).head? =
      some d) :
    IsOptionValue opt cls least arg (groupText d arg k) := by
  obtain ⟨ys, hys, hlen, hcaps⟩ := head?_lit_group_eq_some h
  rw [hrest] at hys
  have hdrop : arg.data.drop (n + opt.data.length) = ys := by
    rw [← List.drop_drop, hys, List.drop_left]
  have hvalue : groupText d arg k = ⟨ys.takeWhile cls⟩ := by
    rw [groupText, Cursor.group_cons d _ _ _ _ _ hcaps, hpos, hdrop, Nat.add_sub_cancel_left,
      ← List.prefix_iff_eq_take.1 (List.takeWhile_prefix cls)]
    rfl
  refine ⟨arg.data.take n, ys, ?_, fun x hx => ?_, by rw [hvalue], by rw [hvalue]; exact hlen⟩
  · rw [List.append_assoc, ← hys, List.take_append_drop]
  · rw [hn, ← List.prefix_iff_eq_take.1 (List.takeWhile_prefix isDash)] at hx
    exact List.mem_takeWhile_imp hx

/-- A match of `configuration-path:([\w/\.\-_]+)`: its group is the configuration path the
argument gives. -/
lemma configurationPathRe_pyMatch {u : UnicodeData} {arg : String} {m : Cursor}
    (h : (configurationPathRe u).pyMatch false arg = some m) :
    IsOptionValue "configuration-path:" (isConfPathChar u) 1 arg (groupText m arg 1) := by
  rw [configurationPathRe, pyMatch_bol_seq, run_star_seq _ _ _ _
    fun d x xs hd hx => run_lit_seq_of_class (by decide) _ d x xs hd hx] at h
  exact isOptionValue_of_head? (Nat.zero_add _) rfl (by simp) h

/-- A match of `setup-firewall=(?P<endpoint>[\d.]{7,})`: its group 2 is the endpoint the
argument gives. -/
lemma setupFirewallRe_pyMatch {u : UnicodeData} {arg : String} {m : Cursor}
    (h : (setupFirewallRe u).pyMatch false arg = some m) :
    IsOptionValue "setup-firewall=" (isEndpointChar u) 7 arg (groupText m arg 2) := by
  rw [setupFirewallRe, pyMatch_bol_seq, run_group_star_seq _ _ _ _ _
    fun d x xs hd hx => run_lit_seq_of_class (by decide) _ d x xs hd hx] at h
  exact isOptionValue_of_head? (Nat.zero_add _) rfl (by simp) h

/-! ## The parser -/

/-- The tuple `parse_args` returns. -/
structure ParsedArgs where
  cmd : String
  force : Bool
  verbose : Bool
  debug : Bool
  confFilePath : Option String
  logCollectorFullMode : Bool
  endpoint : Option String
  deriving DecidableEq, Repr

/-- The values `parse_args` starts from. -/
def ParsedArgs.initial : ParsedArgs :=
  ⟨agentCommands.help, false, false, false, none, false, none⟩

/-- How one turn of the loop ends: on to the next argument, or out of the loop. -/
inductive ArgStep where
  | next (st : ParsedArgs)
  | stop (st : ParsedArgs)
  deriving DecidableEq

/-- The values after a turn of the loop. -/
def ArgStep.st : ArgStep → ParsedArgs
  | .next st => st
  | .stop st => st

/-- The `elif` branches after the configuration path that set a command or a flag, in the
order of the source: the pattern each tries, and what it sets. -/
def optionBranches : List (Re × (ParsedArgs → ParsedArgs)) :=
  [(deprovisionUserRe, fun st => { st with cmd := agentCommands.deprovisionUser }),
   (regexCmd agentCommands.deprovision, fun st => { st with cmd := agentCommands.deprovision }),
   (regexCmd agentCommands.daemon, fun st => { st with cmd := agentCommands.daemon }),
   (regexCmd agentCommands.start, fun st => { st with cmd := agentCommands.start }),
   (regexCmd agentCommands.registerService, fun st => { st with cmd := agentCommands.registerService }),
   (regexCmd agentCommands.runExthandlers, fun st => { st with cmd := agentCommands.runExthandlers }),
   (regexCmd agentCommands.version, fun st => { st with cmd := agentCommands.version }),
   (regexCmd "verbose", fun st => { st with verbose := true }),
   (regexCmd "debug", fun st => { st with debug := true }),
   (regexCmd "force", fun st => { st with force := true }),
   (regexCmd agentCommands.showConfig, fun st => { st with cmd := agentCommands.showConfig }),
   (helpRe, fun st => { st with cmd := agentCommands.help }),
   (regexCmd agentCommands.collectLogs, fun st => { st with cmd := agentCommands.collectLogs }),
   (regexCmd "full", fun st => { st with logCollectorFullMode := true })]

/-- The `elif` chain after the configuration path, for a non-empty argument: the first branch
whose pattern matches, and last `setup-firewall=`, whose failure ends the loop with `Help`. -/
def parseOption (u : UnicodeData) (st : ParsedArgs) (arg : String) : ArgStep :=
  match optionBranches.find? (fun b => reMatches b.1 arg) with
  | some b => .next (b.2 st)
  | none =>
    match (setupFirewallRe u).pyMatch false arg with
    | some m => .next { st with cmd := agentCommands.setupFirewall, endpoint := some (groupText m arg 2) }
    | none => .stop { st with cmd := agentCommands.help }

/-- The branches that set a command or a flag leave the configuration path and the endpoint
as they are. -/
lemma optionBranches_keep : ∀ b ∈ optionBranches, ∀ st,
    (b.2 st).confFilePath = st.confFilePath ∧ (b.2 st).endpoint = st.endpoint := by
  simp [optionBranches]

/-- The options after the configuration path leave it as it is. -/
lemma parseOption_confFilePath (u : UnicodeData) (st : ParsedArgs) (arg : String) :
    (parseOption u st arg).st.confFilePath = st.confFilePath := by
  unfold parseOption
  split
  · exact (optionBranches_keep _ (List.mem_of_find?_eq_some ‹_›) st).1
  · split <;> rfl

/-- The only option after the configuration path that sets the endpoint is `setup-firewall=`,
to the group `endpoint` of its match. -/
lemma parseOption_endpoint (u : UnicodeData) (st : ParsedArgs) (arg : String) :
    (parseOption u st arg).st.endpoint = st.endpoint ∨
      ∃ m, (setupFirewallRe u).pyMatch false arg = some m ∧
        (parseOption u st arg).st.endpoint = some (groupText m arg 2) := by
  unfold parseOption
  split
  · exact .inl (optionBranches_keep _ (List.mem_of_find?_eq_some ‹_›) st).2
  · split
    · exact .inr ⟨_, ‹_›, rfl⟩
    · exact .inl rfl

/-- `sys.exit(code)`. -/
structure SystemExit where
  code : Nat
  deriving DecidableEq

/-- One turn of the loop of `parse_args`; `pathExists` is `os.path.exists`. A configuration
path that does not exist exits with code 1. -/
def parseArg (u : UnicodeData) (pathExists : String → Bool) (st : ParsedArgs) (arg : String) :
    Except SystemExit ArgStep :=
  if arg = "" then .ok (.next st)
  else
    match (configurationPathRe u).pyMatch false arg with
    | some m =>
      let confFilePath := groupText m arg 1
      if pathExists confFilePath then .ok (.next { st with confFilePath := some confFilePath })
      else .error ⟨1⟩
    | none => .ok (parseOption u st arg)

/-- One turn of the loop sets the configuration path only to the path its argument gives,
and only to a path that exists. -/
lemma parseArg_confFilePath {u : UnicodeData} {pathExists : String → Bool} {st : ParsedArgs}
    {arg : String} {r : ArgStep} (h : parseArg u pathExists st arg = .ok r) {p : String}
    (hp : r.st.confFilePath = some p) :
    st.confFilePath = some p ∨
      IsOptionValue "configuration-path:" (isConfPathChar u) 1 arg p ∧ pathExists p = true := by
  unfold parseArg at h
  split_ifs at h
  · cases h; exact .inl hp
  · split at h
    · rename_i m hm
      dsimp only at h
      split_ifs at h with hex
      cases h
      cases hp
      exact .inr ⟨configurationPathRe_pyMatch hm, hex⟩
    · cases h
      rw [parseOption_confFilePath] at hp
      exact .inl hp

/-- One turn of the loop sets the endpoint only to the endpoint its argument gives. -/
lemma parseArg_endpoint {u : UnicodeData} {pathExists : String → Bool} {st : ParsedArgs}
    {arg : String} {r : ArgStep} (h : parseArg u pathExists st arg = .ok r) {e : String}
    (he : r.st.endpoint = some e) :
    st.endpoint = some e ∨ IsOptionValue "setup-firewall=" (isEndpointChar u) 7 arg e := by
  unfold parseArg at h
  split_ifs at h
  · cases h; exact .inl he
  · split at h
    · dsimp only at h
      split_ifs at h
      cases h
      exact .inl he
    · cases h
      rcases parseOption_endpoint u st arg with hsame | ⟨m, hm, hset⟩
      · exact .inl (hsame ▸ he)
      · rw [hset] at he
        cases he
        exact .inr (setupFirewallRe_pyMatch hm)

/-- The loop of `parse_args` over the remaining arguments. -/
def parseArgsLoop (u : UnicodeData) (pathExists : String → Bool) :
    ParsedArgs → List String → Except SystemExit ParsedArgs
  | st, [] => .ok st
  | st, arg :: args =>
    match parseArg u pathExists st arg with
    | .ok (.next st') => parseArgsLoop u pathExists st' args
    | .ok (.stop st') => .ok st'
    | .error e => .error e

/-- `parse_args(sys_args)`. -/
def parseArgs (u : UnicodeData) (pathExists : String → Bool) (sysArgs : List String) :
    Except SystemExit ParsedArgs :=
  parseArgsLoop u pathExists ParsedArgs.initial sysArgs

/-- A value the loop returns in the field `field` was there before or was given by one of the
arguments, when every turn of the loop sets the field only to a value its argument gives. -/
lemma parseArgsLoop_field {u : UnicodeData} {pathExists : String → Bool}
    (field : ParsedArgs → Option String) (Gives : String → String → Prop)
    (hstep : ∀ st arg r v, parseArg u pathExists st arg = .ok r → field r.st = some v →
      field st = some v ∨ Gives arg v) :
    ∀ (args : List String) (st st' : ParsedArgs), parseArgsLoop u pathExists st args = .ok st' →
      ∀ v, field st' = some v → field st = some v ∨ ∃ arg ∈ args, Gives arg v
  | [], st, st', h, v, hv => by cases h; exact .inl hv
  | arg :: args, st, st', h, v, hv => by
    unfold parseArgsLoop at h
    split at h
    · rename_i st'' hnext
      rcases parseArgsLoop_field field Gives hstep args st'' st' h v hv with hv | ⟨a, ha, hgives⟩
      · rcases hstep st arg _ v hnext hv with hv | hgives
        · exact .inl hv
        · exact .inr ⟨arg, List.mem_cons_self _ _, hgives⟩
      · exact .inr ⟨a, List.mem_cons_of_mem _ ha, hgives⟩
    · rename_i st'' hstop
      cases h
      rcases hstep st arg _ v hstop hv with hv | hgives
      · exact .inl hv
      · exact .inr ⟨arg, List.mem_cons_self _ _, hgives⟩
    · cases h

/-- What `parse_args` returns, for every argument list: a configuration path is the longest
prefix made of characters of `[\w/\.\-_]` of what follows `configuration-path:` in one of the
arguments, and exists; an endpoint is the longest prefix made of characters of `[\d.]` of what
follows `setup-firewall=` in one of the arguments, at least seven characters long. -/
theorem parseArgs_values (u : UnicodeData) (pathExists : String → Bool) (sysArgs : List String)
    (st : ParsedArgs) (h : parseArgs u pathExists sysArgs = .ok st) :
    (∀ p, st.confFilePath = some p → ∃ arg ∈ sysArgs,
      IsOptionValue "configuration-path:" (isConfPathChar u) 1 arg p ∧ pathExists p = true) ∧
    ∀ e, st.endpoint = some e → ∃ arg ∈ sysArgs,
      IsOptionValue "setup-firewall=" (isEndpointChar u) 7 arg e := by
  refine ⟨fun p hp => ?_, fun e he => ?_⟩
  · rcases parseArgsLoop_field ParsedArgs.confFilePath _
      (fun _ _ _ _ h hv => parseArg_confFilePath h hv) sysArgs _ st h p hp with hinit | hgiven
    · cases hinit
    · exact hgiven
  · rcases parseArgsLoop_field ParsedArgs.endpoint _
      (fun _ _ _ _ h hv => parseArg_endpoint h hv) sysArgs _ st h e he with hinit | hgiven
    · cases hinit
    · exact hgiven

/-! ## Arguments in ASCII -/

/-- An argument made of ASCII characters finds the same configuration path whatever the
Unicode tables. -/
lemma configurationPathRe_pyMatch_of_ascii (u u' : UnicodeData) {arg : String}
    (h : ∀ c ∈ arg.data, c.toNat < 128) :
    (configurationPathRe u).pyMatch false arg = (configurationPathRe u').pyMatch false arg := by
  have hcls : Re.Agree false (fun c => c.toNat < 128)
      (.set (isConfPathChar u)) (.set (isConfPathChar u')) :=
    .set fun c hc => by simp only [setMatches_false, isConfPathChar, UnicodeData.word_of_lt u u' hc]
  exact congrArg List.head? (Re.run_congr
    (.seq .bol (.seq (.refl _ _ _) (.seq (.refl _ _ _) (.group 1 (hcls.atLeast 1))))) _ h).1

/-- An argument made of ASCII characters finds the same endpoint whatever the Unicode tables. -/
lemma setupFirewallRe_pyMatch_of_ascii (u u' : UnicodeData) {arg : String}
    (h : ∀ c ∈ arg.data, c.toNat < 128) :
    (setupFirewallRe u).pyMatch false arg = (setupFirewallRe u').pyMatch false arg := by
  have hcls : Re.Agree false (fun c => c.toNat < 128)
      (.set (isEndpointChar u)) (.set (isEndpointChar u')) :=
    .set fun c hc => by simp only [setMatches_false, isEndpointChar, UnicodeData.digit_of_lt u u' hc]
  exact congrArg List.head? (Re.run_congr
    (.seq .bol (.seq (.refl _ _ _) (.seq (.refl _ _ _) (.group 2 (hcls.atLeast 7))))) _ h).1

/-- Arguments made of ASCII characters are parsed the same whatever the Unicode tables. -/
lemma parseArgsLoop_of_ascii (u u' : UnicodeData) (pathExists : String → Bool) :
    ∀ (args : List String) (st : ParsedArgs), (∀ arg ∈ args, ∀ c ∈ arg.data, c.toNat < 128) →
      parseArgsLoop u pathExists st args = parseArgsLoop u' pathExists st args
  | [], _, _ => rfl
  | arg :: args, st, h => by
    have harg : parseArg u pathExists st arg = parseArg u' pathExists st arg := by
      have hc := h arg (List.mem_cons_self _ _)
      unfold parseArg parseOption
      rw [configurationPathRe_pyMatch_of_ascii u u' hc, setupFirewallRe_pyMatch_of_ascii u u' hc]
    unfold parseArgsLoop
    rw [harg]
    split
    · exact parseArgsLoop_of_ascii u u' pathExists args _ fun a ha => h a (List.mem_cons_of_mem _ ha)
    · rfl
    · rfl

/-- The values of a run with a configuration path cut at a space. -/
theorem parseArgs_values_daemon :
    let u : UnicodeData := ⟨fun _ => false, fun _ => false⟩
    let args := ["-configuration-path:/tmp/a b", "-daemon"]
    let st : ParsedArgs := ⟨"daemon", false, false, false, some "/tmp/a", false, none⟩
    parseArgs u (fun p => p = "/tmp/a") args = .ok st ∧
      (∀ p, st.confFilePath = some p → ∃ arg ∈ args,
        IsOptionValue "configuration-path:" (isConfPathChar u) 1 arg p ∧ decide (p = "/tmp/a") = true) ∧
      ∀ e, st.endpoint = some e → ∃ arg ∈ args,
        IsOptionValue "setup-firewall=" (isEndpointChar u) 7 arg e :=
  ⟨by decide, parseArgs_values _ _ _ _ (by decide)⟩

/-- The arguments `Agent.daemon` passes to its child: `-configuration-path:{0}` with the
configuration path, if there is one. -/
def daemonChildArgs (confFilePath : Option String) : Option String :=
  confFilePath.map fun p => "-configuration-path:" ++ p

/-- Values cut at the first character outside their class: the path `/tmp/a b` becomes
`/tmp/a`, which the daemon hands to its child, and the endpoint `168.63.129.16x` becomes
`168.63.129.16`. The arguments are ASCII, so by `parseArgsLoop_of_ascii` the runs give these
values whatever the Unicode tables. -/
theorem parseArgs_truncates :
    parseArgs ⟨fun _ => false, fun _ => false⟩ (fun p => p = "/tmp/a")
        ["-configuration-path:/tmp/a b", "-daemon"] =
        .ok ⟨agentCommands.daemon, false, false, false, some "/tmp/a", false, none⟩ ∧
      daemonChildArgs (some "/tmp/a") = some "-configuration-path:/tmp/a" ∧
      parseArgs ⟨fun _ => false, fun _ => false⟩ (fun _ => true) ["-setup-firewall=168.63.129.16x"] =
        .ok ⟨agentCommands.setupFirewall, false, false, false, none, false, some "168.63.129.16"⟩ := by
  decide

/-! ## An unknown argument ends the parse -/

/-- An argument that no branch of the loop recognises: not empty, no configuration path, no
pattern of the `elif` chain, and no `setup-firewall=` with an endpoint. -/
def IsUnknownArg (u : UnicodeData) (arg : String) : Prop :=
  arg ≠ "" ∧ (configurationPathRe u).pyMatch false arg = none ∧
    optionBranches.find? (fun b => reMatches b.1 arg) = none ∧ (setupFirewallRe u).pyMatch false arg = none

/-- An unknown argument sets the command `help` and leaves the loop. -/
lemma parseArg_of_isUnknownArg {u : UnicodeData} {arg : String} (h : IsUnknownArg u arg)
    (pathExists : String → Bool) (st : ParsedArgs) :
    parseArg u pathExists st arg = .ok (.stop { st with cmd := agentCommands.help }) := by
  obtain ⟨hne, hconf, hfind, hfw⟩ := h
  simp only [parseArg, hne, if_false, hconf, parseOption, hfind, hfw]

/-- `parse_args` reads nothing after the first unknown argument: whatever follows it, even a
configuration path that does not exist, the result is the one the arguments up to it give. -/
theorem parseArgs_stops_at_unknown (u : UnicodeData) (pathExists : String → Bool)
    (pre post : List String) (arg : String) (h : IsUnknownArg u arg) :
    parseArgs u pathExists (pre ++ arg :: post) = parseArgs u pathExists (pre ++ [arg]) := by
  unfold parseArgs
  generalize ParsedArgs.initial = st
  induction pre generalizing st with
  | nil => simp only [List.nil_append, parseArgsLoop, parseArg_of_isUnknownArg h]
  | cons a pre ih =>
    simp only [List.cons_append, parseArgsLoop]
    split
    · exact ih _
    · rfl
    · rfl

/-- An unknown option before a configuration path that does not exist: the parse asks for help
and never reads the path. -/
theorem parseArgs_stops_at_unknown_missing_path :
    IsUnknownArg ⟨fun _ => false, fun _ => false⟩ "-bogus" ∧
      parseArgs ⟨fun _ => false, fun _ => false⟩ (fun _ => false)
          ["-daemon", "-bogus", "-configuration-path:/nonexistent"] =
        .ok { ParsedArgs.initial with cmd := agentCommands.help } := by
  have h : IsUnknownArg ⟨fun _ => false, fun _ => false⟩ "-bogus" := by
    refine ⟨by decide, ?_, rfl, ?_⟩ <;> exact Option.isNone_iff_eq_none.1 (by decide)
  exact ⟨h, (parseArgs_stops_at_unknown _ _ ["-daemon"] ["-configuration-path:/nonexistent"] "-bogus"
    h).trans (by decide)⟩

/-! ## The daemon that `start` launches -/

/-- The arguments `start(conf_file_path)` launches the daemon with: the program, `-daemon`, and
`-configuration-path:{0}` with the configuration path, if there is one. -/
def startArgs (program : String) (confFilePath : Option String) : List String :=
  [program, "-daemon"] ++ (confFilePath.map fun p => "-configuration-path:" ++ p).toList

/-- The pattern of the configuration path matches every argument that gives the option a
value, with that value as its group. -/
lemma configurationPathRe_pyMatch_of_value {u : UnicodeData} {arg : String} {pre rest : List Char}
    (harg : arg.data = pre ++ "configuration-path:".data ++ rest) (hpre : ∀ c ∈ pre, isDash c = true)
    (hlen : 1 ≤ (rest.takeWhile (isConfPathChar u)).length) :
    ∃ m, (configurationPathRe u).pyMatch false arg = some m ∧
      groupText m arg 1 = ⟨rest.takeWhile (isConfPathChar u)⟩ := by
  have hdash : arg.data.takeWhile isDash = pre := by
    rw [harg, List.append_assoc, List.takeWhile_append_of_pos hpre]
    simp [isDash]
  have hdrop : arg.data.drop pre.length = "configuration-path:".data ++ rest := by
    rw [harg, List.append_assoc, List.drop_left]
  rw [configurationPathRe, pyMatch_bol_seq, run_star_seq _ _ _ _
    fun d x xs hd hx => run_lit_seq_of_class (by decide) _ d x xs hd hx, run_lit_group_head?]
  simp only [setMatches_false, hdash, Cursor.skip, Nat.zero_add, hdrop,
    (litMatch_false_eq_some _ _ rest).2 rfl, if_pos hlen]
  refine ⟨_, rfl, ?_⟩
  have hgroup : (arg.data.drop (pre.length + "configuration-path:".data.length)).take
      (rest.takeWhile (isConfPathChar u)).length = rest.takeWhile (isConfPathChar u) := by
    rw [← List.drop_drop, hdrop, List.drop_left,
      ← List.prefix_iff_eq_take.1 (List.takeWhile_prefix _)]
  simp only [groupText, Cursor.group]
  exact congrArg String.mk (by simpa using hgroup)

/-- `-daemon` sets the command and nothing else. -/
lemma parseArg_daemon (u : UnicodeData) (pathExists : String → Bool) (st : ParsedArgs) :
    parseArg u pathExists st "-daemon" = .ok (.next { st with cmd := agentCommands.daemon }) := by
  have hnone : (configurationPathRe u).pyMatch false "-daemon" = none := by
    rw [configurationPathRe_pyMatch_of_ascii u ⟨fun _ => false, fun _ => false⟩ (by decide)]
    exact Option.isNone_iff_eq_none.1 (by decide)
  have hfind : optionBranches.find? (fun b => reMatches b.1 "-daemon") =
      some (regexCmd agentCommands.daemon, fun st => { st with cmd := agentCommands.daemon }) := rfl
  simp only [parseArg, if_neg (by decide : "-daemon" ≠ ""), hnone, parseOption, hfind]

/-- The daemon that `start` launches parses the arguments it is given back to the configuration
path of the agent that launched it: for every argument list that `parse_args` accepts, the
daemon's `parse_args` returns the command `daemon` with the same configuration path. -/
theorem startArgs_round_trip (u : UnicodeData) (pathExists : String → Bool) (sysArgs : List String)
    (st : ParsedArgs) (h : parseArgs u pathExists sysArgs = .ok st) (program : String) :
    parseArgs u pathExists (startArgs program st.confFilePath).tail =
      .ok { ParsedArgs.initial with cmd := agentCommands.daemon, confFilePath := st.confFilePath } := by
  cases hp : st.confFilePath with
  | none => simp [startArgs, parseArgs, parseArgsLoop, parseArg_daemon, ParsedArgs.initial]
  | some p =>
    obtain ⟨arg, -, ⟨pre, rest, harg, hpre, hvalue, hlen⟩, hexists⟩ :=
      (parseArgsLoop_field ParsedArgs.confFilePath _ (fun _ _ _ _ h hv => parseArg_confFilePath h hv)
        sysArgs _ st h p hp).resolve_left (by simp [ParsedArgs.initial])
    have hclass : ∀ c ∈ p.data, isConfPathChar u c = true := fun c hc =>
      List.mem_takeWhile_imp (hvalue ▸ hc)
    have hself : p.data.takeWhile (isConfPathChar u) = p.data := List.takeWhile_eq_self_iff.2 hclass
    obtain ⟨m, hm, hgroup⟩ := @configurationPathRe_pyMatch_of_value u ("-configuration-path:" ++ p)
      ['-'] p.data rfl (by decide) (by rw [hself]; exact hlen)
    have hne : "-configuration-path:" ++ p ≠ "" := fun h => by
      have hlength := congrArg String.length h
      have hopt : "-configuration-path:".length = 20 := by decide
      simp only [String.length_append, String.length_empty, hopt] at hlength
      omega
    have hpath : parseArg u pathExists { ParsedArgs.initial with cmd := agentCommands.daemon }
        ("-configuration-path:" ++ p) =
        .ok (.next { ParsedArgs.initial with cmd := agentCommands.daemon, confFilePath := some p }) := by
      rw [hself] at hgroup
      simp [parseArg, hne, hm, hgroup, hexists]
    show parseArgsLoop u pathExists ParsedArgs.initial ["-daemon", "-configuration-path:" ++ p] = _
    rw [parseArgsLoop, parseArg_daemon]
    dsimp only
    rw [parseArgsLoop, hpath]
    rfl

/-- The daemon launched after `-configuration-path:/tmp/a b` is given, and parses, `/tmp/a`. -/
theorem startArgs_round_trip_cut :
    parseArgs ⟨fun _ => false, fun _ => false⟩ (fun p => p = "/tmp/a")
        ["-configuration-path:/tmp/a b", "-daemon"] =
        .ok ⟨agentCommands.daemon, false, false, false, some "/tmp/a", false, none⟩ ∧
      parseArgs ⟨fun _ => false, fun _ => false⟩ (fun p => p = "/tmp/a")
          (startArgs "waagent" (some "/tmp/a")).tail =
        .ok { ParsedArgs.initial with cmd := agentCommands.daemon, confFilePath := some "/tmp/a" } :=
  ⟨by decide, startArgs_round_trip _ _ ["-configuration-path:/tmp/a b", "-daemon"]
    ⟨agentCommands.daemon, false, false, false, some "/tmp/a", false, none⟩ (by decide) "waagent"⟩

end Agent

end AzureLinuxAgent
