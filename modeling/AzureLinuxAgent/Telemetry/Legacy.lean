import AzureLinuxAgent.Telemetry.Operation

/-!
# Collecting the agent's own event files (`_CollectAndEnqueueEvents`)

Each period the agent walks the files of its events directory. A file whose name matches
`EVENT_FILE_REGEX` is read and parsed to a `TelemetryEvent` (retrying a missing file or a value
error), its message is redacted, and a legacy event (one whose name lacks the `agent_event`
group) is completed: an extension event keeps only the extension's own parameters and gets the
common parameters, and an agent event gets the common parameters it is missing. The event is
then handed to the send handler, and the file is removed in a `finally` clause. Every
exception of a file, `ServiceStoppedError` included, is caught there and the loop goes on with
the next file.

`EVENT_FILE_REGEX`, `parse_event`, `redact_event_msg`, `TelemetryEvent.is_extension_event`, the
names of `GuestAgentExtensionEventsSchema` and the common parameters of the event logger are
defined outside the sources; they are inputs of the model (`LegacyContext`). So is the order in
which Python iterates a set of names.

After the loop, `debug_info.report_debug_info()` hands the errors the loop recorded to the
event logger, and `_operation` saves an exception of `process_events` with `add_event`; both
write into the agent's events directory (`EventLogger`, `LogCall`).

`processEvents_files` shows that a period deletes every event file it can remove, whatever
reading, parsing and the send handler do, and touches no other file before the logger saves
its report; `processEvents_enqueued` that it hands over at most one event per event file; and
`updateLegacyAgentEvent_spec` that a legacy agent event gets each missing common parameter
once. `processEvents_events_from_files` says what is handed over: the redacted event of a file
the directory held, completed when legacy, so with every common parameter.
-/

namespace AzureLinuxAgent

namespace Telemetry

open Python

/-- What `_CollectAndEnqueueEvents` takes from modules that are not under src/. -/
structure LegacyContext where
  /-- `EVENT_FILE_REGEX.search(name)`: no match, or a match and whether its group
  `agent_event` took part. -/
  eventFileMatch : String → Option Bool
  /-- `parse_event` on the text of a file. -/
  parseEvent : Json → Except PyError TelemetryEvent
  /-- `redact_event_msg`. -/
  redactEventMsg : TelemetryEvent → TelemetryEvent
  /-- `TelemetryEvent.is_extension_event`. -/
  isExtensionEvent : TelemetryEvent → Bool
  /-- `GuestAgentExtensionEventsSchema.Name`, `Version`, `Operation`, `OperationSuccess`,
  `Message` and `Duration`. -/
  extensionParamNames : List String
  /-- The parameters `add_common_event_parameters` appends for an event time. -/
  commonParams : Nat → List (TelemetryEventParam Json)
  /-- The order in which Python iterates a set of names. -/
  setOrder : List String → List String

/-! ## Completing a legacy event -/

section

variable (lctx : LegacyContext)

/-- `_trim_legacy_extension_event_parameters(event)`: the parameters whose names are the
extension's own. -/
def trimLegacyExtensionEventParameters (event : TelemetryEvent) : TelemetryEvent :=
  let paramsToKeep : PyDict Unit := PyDict.ofList (lctx.extensionParamNames.map fun n => (n, ()))
  { event with parameters := event.parameters.filter fun param => param.name ∈ paramsToKeep.keys }

/-- `add_common_params_to_telemetry_event(event, event_time)`. -/
def addCommonParamsToTelemetryEvent (event : TelemetryEvent) (eventTime : Nat) : TelemetryEvent :=
  { event with parameters := event.parameters ++ lctx.commonParams eventTime }

/-- `_update_legacy_agent_event(event, event_creation_time)`: the common parameters whose names
the event lacks are appended, each with the value its name has in the dictionary of the common
parameters, in the order Python iterates the set of missing names. -/
def updateLegacyAgentEvent (event : TelemetryEvent) (eventCreationTime : Nat) : TelemetryEvent :=
  let newEventParams : PyDict Json :=
    PyDict.ofList ((lctx.commonParams eventCreationTime).map fun p => (p.name, p.value))
  let eventParams : PyDict Json := PyDict.ofList (event.parameters.map fun p => (p.name, p.value))
  let missingParams := lctx.setOrder (newEventParams.keys.filter (· ∉ eventParams.keys))
  let paramsToAdd := missingParams.filterMap fun paramName =>
    (newEventParams.get? paramName).map fun v => ⟨paramName, v⟩
  { event with parameters := event.parameters ++ paramsToAdd }

/-- A legacy event, as `process_events` completes it before handing it over. -/
def completeLegacyEvent (event : TelemetryEvent) (eventFileCreationTime : Nat) : TelemetryEvent :=
  if lctx.isExtensionEvent event then
    addCommonParamsToTelemetryEvent lctx (trimLegacyExtensionEventParameters lctx event)
      eventFileCreationTime
  else updateLegacyAgentEvent lctx event eventFileCreationTime

end

/-! ## The loop over the event files -/

section

variable {σ : Type} (enqueueEvent : σ → TelemetryEvent → σ × Except EnqueueError Unit)
  (lctx : LegacyContext) {eventDir : String} (logger : EventLogger eventDir)

/-- `_read_and_parse_event_file(event_file_path)`: the retry loop of `_read_event_file` over
reading and `parse_event`. -/
def readAndParseEventFile (f : EventFile) : Except PyError TelemetryEvent :=
  readEventFile fun attempt => f.read attempt >>= lctx.parseEvent

/-- The inner `try` block for the event file `name` of `dir`: read, redact, complete and hand
over the event. An exception leaves the state as the steps before it made it, and is returned
as the outer `try` records it in the debug info: `ServiceStoppedError` is only logged, and
reading raises `EventError` for an exception it does not retry. -/
def collectEventFile (st : CaptureState σ) (dir name : String) (isAgentEvent : Bool) :
    CaptureState σ × Option DebugInfoError :=
  match st.fs.file? dir name with
  | none => (st, some (.builtin .fileNotFoundError))
  | some f =>
    match readAndParseEventFile lctx f with
    | .error e => (st, some (if isRetryable e then .builtin e else .eventError e))
    | .ok event =>
      let event := lctx.redactEventMsg event
      let event := if isAgentEvent then event else completeLegacyEvent lctx event f.mtime
      match enqueueEvent st.handler event with
      | (h, .ok ()) => ({ st with handler := h, enqueued := st.enqueued ++ [event] }, none)
      | (h, .error .serviceStopped) => ({ st with handler := h }, none)
      | (h, .error .other) => ({ st with handler := h }, some .enqueue)

/-- One turn of the loop of `process_events`: a file whose name does not match
`EVENT_FILE_REGEX` is skipped; the others are collected, and then removed if they still exist.
An exception of `os.remove` replaces the one in flight; the outer `try` records either in the
debug info. -/
def processEventFile (st : CaptureState σ) (dir name : String) :
    CaptureState σ × Option DebugInfoError :=
  match lctx.eventFileMatch name with
  | none => (st, none)
  | some isAgentEvent =>
    match collectEventFile enqueueEvent lctx st dir name isAgentEvent with
    | (st₁, raised) =>
      if (st₁.fs.file? dir name).isSome then
        match st₁.fs.remove dir name with
        | .ok fs => ({ st₁ with fs := fs }, raised)
        | .error e => (st₁, some (.builtin e))
      else (st₁, raised)

/-- The loop of `process_events` over the names `os.listdir` gave, with the errors recorded in
the debug info so far. -/
def processEventsLoop (st : CaptureState σ) (dir : String) (debugInfo : List DebugInfoError) :
    List String → CaptureState σ × List DebugInfoError
  | [] => (st, debugInfo)
  | name :: names =>
    match processEventFile enqueueEvent lctx st dir name with
    | (st', raised) => processEventsLoop st' dir (debugInfo ++ raised.toList) names

/-- `process_events()` on the events directory `dir`, and the exception `os.listdir` raises: the
loop over the files, and then `debug_info.report_debug_info()`, which hands what the loop
recorded to the event logger. -/
def processEvents (st : CaptureState σ) (dir : String) : CaptureState σ × Option PyError :=
  match st.fs.listdir dir with
  | .error e => (st, some e)
  | .ok eventFiles =>
    match processEventsLoop enqueueEvent lctx st dir [] eventFiles with
    | (st', debugInfo) => (st'.logEvent logger (.reportDebugInfo debugInfo), none)

/-- `_CollectAndEnqueueEvents._operation()`: nothing while the send handler is stopped, and
otherwise `process_events()`, whose exception is saved with `add_event`. -/
def collectAndEnqueueOperation (stopped : σ → Bool) (st : CaptureState σ) (dir : String) :
    CaptureState σ :=
  if stopped st.handler then st
  else
    match processEvents enqueueEvent lctx logger st dir with
    | (st', some e) => st'.logEvent logger (.unhandledError e)
    | (st', none) => st'

/-! ## Every event file goes -/

/-- Collecting an event file changes the send handler and adds at most one event to the ghost
list, and nothing else. -/
lemma collectEventFile_cases (st : CaptureState σ) (dir name : String) (isAgentEvent : Bool) :
    ∃ (h : σ) (new : List TelemetryEvent), new.length ≤ 1 ∧
      (collectEventFile enqueueEvent lctx st dir name isAgentEvent).1 =
        { st with handler := h, enqueued := st.enqueued ++ new } := by
  unfold collectEventFile
  split
  · exact ⟨st.handler, [], by simp, by simp⟩
  · split
    · exact ⟨st.handler, [], by simp, by simp⟩
    · dsimp only
      split
      · exact ⟨_, [_], by simp, rfl⟩
      · exact ⟨_, [], by simp, by rw [List.append_nil]⟩
      · exact ⟨_, [], by simp, by rw [List.append_nil]⟩

/-- Collecting an event file leaves the file system as it is. -/
lemma collectEventFile_fs (st : CaptureState σ) (dir name : String) (isAgentEvent : Bool) :
    (collectEventFile enqueueEvent lctx st dir name isAgentEvent).1.fs = st.fs := by
  obtain ⟨h, new, -, he⟩ := collectEventFile_cases enqueueEvent lctx st dir name isAgentEvent
  rw [he]

/-- One turn of the loop takes files away from `dir` only. -/
lemma processEventFile_shrinksIn (st : CaptureState σ) (dir name : String) :
    st.fs.ShrinksIn dir (processEventFile enqueueEvent lctx st dir name).1.fs := by
  unfold processEventFile
  split
  · exact FileSystem.ShrinksIn.refl dir st.fs
  · rename_i isAgentEvent _
    have hfs := collectEventFile_fs enqueueEvent lctx st dir name isAgentEvent
    rcases hc : collectEventFile enqueueEvent lctx st dir name isAgentEvent with ⟨st₁, raised⟩
    rw [hc] at hfs
    dsimp only at hfs ⊢
    rw [← hfs]
    split
    · split
      · rename_i fs hrm
        exact FileSystem.shrinksIn_of_remove hrm
      · exact FileSystem.ShrinksIn.refl dir _
    · exact FileSystem.ShrinksIn.refl dir _

/-- The loop takes files away from `dir` only. -/
lemma processEventsLoop_shrinksIn (dir : String) (names : List String) :
    ∀ (st : CaptureState σ) (debugInfo : List DebugInfoError),
      st.fs.ShrinksIn dir (processEventsLoop enqueueEvent lctx st dir debugInfo names).1.fs := by
  induction names with
  | nil => exact fun st _ => FileSystem.ShrinksIn.refl dir st.fs
  | cons name names ih =>
    intro st debugInfo
    have h₁ := processEventFile_shrinksIn enqueueEvent lctx st dir name
    rcases hp : processEventFile enqueueEvent lctx st dir name with ⟨st₁, raised⟩
    rw [hp] at h₁
    rw [processEventsLoop, hp]
    exact h₁.trans (ih st₁ _)

/-- One turn of the loop takes away the files named `name` from `dir` if the name matches and
they can be removed. -/
lemma processEventFile_files? {st : CaptureState σ} {dir : String} (name : String)
    {files : List (String × EventFile)} (h : st.fs.files? dir = some files)
    (hr : ∀ f ∈ files, f.2.removable = true) :
    (processEventFile enqueueEvent lctx st dir name).1.fs.files? dir =
      some (files.filter fun f => f.1 ≠ name ∨ lctx.eventFileMatch name = none) := by
  unfold processEventFile
  split
  · rename_i hnone
    simpa [hnone] using h
  · rename_i isAgentEvent hmatch
    have hfs := collectEventFile_fs enqueueEvent lctx st dir name isAgentEvent
    rcases hc : collectEventFile enqueueEvent lctx st dir name isAgentEvent with ⟨st₁, raised⟩
    rw [hc] at hfs
    dsimp only
    have hkeep : files.filter (fun f => f.1 ≠ name ∨ lctx.eventFileMatch name = none) =
        files.filter (·.1 ≠ name) := by
      simp [hmatch]
    rw [hkeep]
    split
    · rename_i hsome
      rw [hfs] at hsome ⊢
      obtain ⟨g, hg⟩ := Option.isSome_iff_exists.1 hsome
      simp [FileSystem.remove_of_file? hg (FileSystem.removable_of_file? h hr hg),
        FileSystem.files?_erase, h]
    · rename_i hnone
      rw [hfs] at hnone ⊢
      have hno := (FileSystem.file?_eq_none_iff h).1 (by simpa using hnone)
      rw [h, List.filter_eq_self.2 fun f hf => by simpa using hno f hf]

/-- The loop over the names `names` takes away from `dir` the files whose names are among them
and match `EVENT_FILE_REGEX`, when every file of `dir` can be removed. -/
lemma processEventsLoop_files? {dir : String} (names : List String) :
    ∀ (st : CaptureState σ) (debugInfo : List DebugInfoError) (files : List (String × EventFile)),
      st.fs.files? dir = some files → (∀ f ∈ files, f.2.removable = true) →
      (processEventsLoop enqueueEvent lctx st dir debugInfo names).1.fs.files? dir =
        some (files.filter fun f => f.1 ∉ names ∨ lctx.eventFileMatch f.1 = none) := by
  induction names with
  | nil => intro st _ files h _; simpa using h
  | cons name names ih =>
    intro st debugInfo files h hr
    have h₁ := processEventFile_files? enqueueEvent lctx name h hr
    rcases hp : processEventFile enqueueEvent lctx st dir name with ⟨st₁, raised⟩
    rw [hp] at h₁
    rw [processEventsLoop, hp]
    dsimp only
    rw [ih _ _ _ h₁ fun f hf => hr f (List.mem_filter.1 hf).1, List.filter_filter]
    congr 2
    funext f
    by_cases hf : f.1 = name
    · subst hf
      by_cases hm : lctx.eventFileMatch f.1 = none <;> simp [hm]
    · simp [hf]

/-- On a directory whose files can all be removed, `process_events` deletes every file whose
name matches `EVENT_FILE_REGEX`, whatever reading, parsing and the send handler do, keeps the
other files and every other directory, and then hands its debug info to the event logger
(`report_debug_info`), which saves into its own directory. -/
theorem processEvents_files (st : CaptureState σ) (dir : String) (files : List (String × EventFile))
    (h : st.fs.files? dir = some files) (hr : ∀ f ∈ files, f.2.removable = true) :
    ∃ fs errors, fs.files? dir = some (files.filter fun f => lctx.eventFileMatch f.1 = none) ∧
      (∀ d, d ≠ dir → fs.files? d = st.fs.files? d) ∧
      (processEvents enqueueEvent lctx logger st dir).1.fs = logger.save (.reportDebugInfo errors) fs := by
  have hl : st.fs.listdir dir = .ok (files.map (·.1)) := by simp [FileSystem.listdir, h]
  have hfiles := processEventsLoop_files? enqueueEvent lctx (files.map (·.1)) st [] files h hr
  have hframe := (processEventsLoop_shrinksIn enqueueEvent lctx dir (files.map (·.1)) st []).frame
  rcases hloop : processEventsLoop enqueueEvent lctx st dir [] (files.map (·.1)) with
    ⟨st', debugInfo⟩
  rw [hloop] at hfiles hframe
  refine ⟨st'.fs, debugInfo, ?_, hframe, by simp only [processEvents, hl, hloop]; rfl⟩
  rw [hfiles]
  exact congrArg some (List.filter_congr fun f hf => by simp [List.mem_map_of_mem _ hf])

/-- The directory `/ev` holds an agent event file, a legacy event file and a file of another
name, and the send handler's `enqueue_event` raises `ServiceStoppedError`; the two event files
go, the other stays. -/
theorem processEvents_files_stopped :
    let lctx : LegacyContext := ⟨fun n => if n = "1.tld" then some false else
        if n = "2.waagent.tld" then some true else none,
      fun _ => .ok ⟨0, "", "", []⟩, id, fun _ => false, [], fun _ => [], id⟩
    let logger := EventLogger.unwritable "/var/lib/waagent/events"
    let file : EventFile := ⟨0, 0, fun _ => .ok .null, true⟩
    let files := [("1.tld", file), ("2.waagent.tld", file), ("notes.txt", file)]
    let st : CaptureState Unit := ⟨⟨[("/ev", files)]⟩, (), []⟩
    (st.fs.files? "/ev" = some files ∧ ∀ f ∈ files, f.2.removable = true) ∧
      ∃ fs errors, fs.files? "/ev" = some (files.filter fun f => lctx.eventFileMatch f.1 = none) ∧
        (∀ d, d ≠ "/ev" → fs.files? d = st.fs.files? d) ∧
        (processEvents (fun h _ => (h, .error .serviceStopped)) lctx logger st "/ev").1.fs =
          logger.save (.reportDebugInfo errors) fs := by
  intro lctx logger file files st
  exact ⟨⟨rfl, by decide⟩, processEvents_files (fun h _ => (h, .error .serviceStopped)) lctx logger st
    "/ev" files rfl (by decide)⟩

/-- One turn of the loop hands over at most one event, and none for a name that does not match
`EVENT_FILE_REGEX`. -/
lemma processEventFile_enqueued (st : CaptureState σ) (dir name : String) :
    ∃ new, (processEventFile enqueueEvent lctx st dir name).1.enqueued = st.enqueued ++ new ∧
      new.length ≤ if (lctx.eventFileMatch name).isSome then 1 else 0 := by
  unfold processEventFile
  split
  · exact ⟨[], by simp, by simp⟩
  · rename_i isAgentEvent hmatch
    obtain ⟨h, new, hlen, he⟩ := collectEventFile_cases enqueueEvent lctx st dir name isAgentEvent
    refine ⟨new, ?_, by simpa [hmatch] using hlen⟩
    rcases hc : collectEventFile enqueueEvent lctx st dir name isAgentEvent with ⟨st₁, raised⟩
    rw [hc] at he
    dsimp only at he ⊢
    subst he
    split
    · split <;> rfl
    · rfl

/-- The loop hands over at most one event for each name that matches `EVENT_FILE_REGEX`. -/
lemma processEventsLoop_enqueued (dir : String) (names : List String) :
    ∀ (st : CaptureState σ) (debugInfo : List DebugInfoError), ∃ new,
      (processEventsLoop enqueueEvent lctx st dir debugInfo names).1.enqueued = st.enqueued ++ new ∧
        new.length ≤ (names.filter fun n => (lctx.eventFileMatch n).isSome).length := by
  induction names with
  | nil => exact fun st _ => ⟨[], by simp [processEventsLoop], by simp⟩
  | cons name names ih =>
    intro st debugInfo
    obtain ⟨new₁, h₁, hlen₁⟩ := processEventFile_enqueued enqueueEvent lctx st dir name
    rcases hp : processEventFile enqueueEvent lctx st dir name with ⟨st₁, raised⟩
    rw [hp] at h₁
    obtain ⟨new₂, h₂, hlen₂⟩ := ih st₁ (debugInfo ++ raised.toList)
    have hcount : ((name :: names).filter fun n => (lctx.eventFileMatch n).isSome).length =
        (if (lctx.eventFileMatch name).isSome then 1 else 0) +
          (names.filter fun n => (lctx.eventFileMatch n).isSome).length := by
      rw [List.filter_cons]
      split <;> simp [*, Nat.add_comm]
    refine ⟨new₁ ++ new₂, by rw [processEventsLoop, hp]; dsimp only; rw [h₂, h₁, List.append_assoc], ?_⟩
    rw [List.length_append, hcount]
    omega

/-- A run of `process_events` hands over at most one event for each file whose name matches
`EVENT_FILE_REGEX`. -/
theorem processEvents_enqueued (st : CaptureState σ) (dir : String) :
    ∃ new, (processEvents enqueueEvent lctx logger st dir).1.enqueued = st.enqueued ++ new ∧
      new.length ≤
        (((st.fs.listdir dir).toOption.getD []).filter fun n => (lctx.eventFileMatch n).isSome).length := by
  cases hl : st.fs.listdir dir with
  | error e => exact ⟨[], by simp [processEvents, hl], by simp⟩
  | ok names =>
    obtain ⟨new, hnew, hlen⟩ := processEventsLoop_enqueued enqueueEvent lctx dir names st []
    rcases hloop : processEventsLoop enqueueEvent lctx st dir [] names with ⟨st', debugInfo⟩
    rw [hloop] at hnew
    dsimp only at hnew
    exact ⟨new, by simp only [processEvents, hl, hloop, CaptureState.logEvent_enqueued, hnew],
      by simpa [Except.toOption] using hlen⟩

end

/-! ## Completing a legacy agent event -/

/-- Reading back names that are all keys of a dictionary gives a parameter for each, in order. -/
lemma filterMap_get?_names {α : Type} (d : PyDict α) (names : List String)
    (h : ∀ n ∈ names, ∃ v, d.get? n = some v) :
    (names.filterMap fun n => (d.get? n).map fun v => (⟨n, v⟩ : TelemetryEventParam α)).map (·.name) =
      names := by
  induction names with
  | nil => rfl
  | cons n names ih =>
    obtain ⟨v, hv⟩ := h n (List.mem_cons_self n names)
    rw [List.filterMap_cons, hv]
    simp only [Option.map_some', List.map_cons]
    rw [ih fun m hm => h m (List.mem_cons_of_mem n hm)]

/-- `_update_legacy_agent_event` appends each common parameter whose name the event lacks,
once, with the value the dictionary of the common parameters gives its name, and keeps the
parameters the event had; this holds whatever order Python iterates the set of missing names
in. -/
theorem updateLegacyAgentEvent_spec (lctx : LegacyContext) (hperm : ∀ l, (lctx.setOrder l).Perm l)
    (event : TelemetryEvent) (eventCreationTime : Nat) :
    ∃ added, (updateLegacyAgentEvent lctx event eventCreationTime).parameters = event.parameters ++ added ∧
      (added.map (·.name)).Nodup ∧
      (∀ n, n ∈ added.map (·.name) ↔
        n ∈ (lctx.commonParams eventCreationTime).map (·.name) ∧ n ∉ event.parameters.map (·.name)) ∧
      ∀ p ∈ added, (PyDict.ofList ((lctx.commonParams eventCreationTime).map fun q => (q.name, q.value))).get?
        p.name = some p.value := by
  set newEventParams : PyDict Json :=
    PyDict.ofList ((lctx.commonParams eventCreationTime).map fun p => (p.name, p.value))
  set eventParams : PyDict Json := PyDict.ofList (event.parameters.map fun p => (p.name, p.value))
  set missing := newEventParams.keys.filter (· ∉ eventParams.keys)
  have hmissing : ∀ n ∈ lctx.setOrder missing, ∃ v, newEventParams.get? n = some v := fun n hn =>
    Option.isSome_iff_exists.1 ((PyDict.mem_keys_iff _ n).1
      (List.mem_filter.1 ((hperm missing).subset hn)).1)
  have hnames := filterMap_get?_names newEventParams _ hmissing
  refine ⟨_, rfl, ?_, fun n => ?_, fun p hp => ?_⟩
  · rw [hnames]
    exact (hperm missing).nodup_iff.2 ((PyDict.nodup newEventParams).filter _)
  · rw [hnames, (hperm missing).mem_iff, List.mem_filter, decide_eq_true_iff,
      PyDict.mem_keys_ofList, PyDict.mem_keys_ofList]
    simp
  · obtain ⟨n, -, hn⟩ := List.mem_filterMap.1 hp
    obtain ⟨v, hv, rfl⟩ := Option.map_eq_some'.1 hn
    exact hv

/-- A legacy agent event with one parameter, completed with two common parameters of which it
has one. -/
theorem updateLegacyAgentEvent_spec_one_missing :
    let lctx : LegacyContext := ⟨fun _ => none, fun _ => .error .valueError, id, fun _ => false, [],
      fun _ => [⟨"GAVersion", .str "2.2"⟩, ⟨"ContainerId", .str "c"⟩], id⟩
    let event : TelemetryEvent := ⟨1, "p", "", [⟨"GAVersion", .str "2.1"⟩]⟩
    (∀ l, (lctx.setOrder l).Perm l) ∧
      ∃ added, (updateLegacyAgentEvent lctx event 0).parameters = event.parameters ++ added ∧
        (added.map (·.name)).Nodup ∧
        (∀ n, n ∈ added.map (·.name) ↔
          n ∈ (lctx.commonParams 0).map (·.name) ∧ n ∉ event.parameters.map (·.name)) ∧
        ∀ p ∈ added, (PyDict.ofList ((lctx.commonParams 0).map fun q => (q.name, q.value))).get?
          p.name = some p.value :=
  ⟨fun l => List.Perm.refl l, updateLegacyAgentEvent_spec ⟨fun _ => none, fun _ => .error .valueError,
    id, fun _ => false, [], fun _ => [⟨"GAVersion", .str "2.2"⟩, ⟨"ContainerId", .str "c"⟩], id⟩
    (fun l => List.Perm.refl l) ⟨1, "p", "", [⟨"GAVersion", .str "2.1"⟩]⟩ 0⟩

/-! ## What a run hands over -/

/-- A legacy agent event, once completed, has a parameter for each common name. -/
lemma mem_names_updateLegacyAgentEvent (lctx : LegacyContext) (hperm : ∀ l, (lctx.setOrder l).Perm l)
    (event : TelemetryEvent) (t : Nat) {n : String} (hn : n ∈ (lctx.commonParams t).map (·.name)) :
    n ∈ (updateLegacyAgentEvent lctx event t).parameters.map (·.name) := by
  set newEventParams : PyDict Json :=
    PyDict.ofList ((lctx.commonParams t).map fun p => (p.name, p.value))
  set eventParams : PyDict Json := PyDict.ofList (event.parameters.map fun p => (p.name, p.value))
  set missing := newEventParams.keys.filter (· ∉ eventParams.keys)
  have hmissing : ∀ m ∈ lctx.setOrder missing, ∃ v, newEventParams.get? m = some v := fun m hm =>
    Option.isSome_iff_exists.1 ((PyDict.mem_keys_iff _ m).1
      (List.mem_filter.1 ((hperm missing).subset hm)).1)
  simp only [updateLegacyAgentEvent, List.map_append, List.mem_append]
  by_cases he : n ∈ event.parameters.map (·.name)
  · exact .inl he
  · right
    rw [filterMap_get?_names newEventParams _ hmissing, (hperm missing).mem_iff, List.mem_filter,
      decide_eq_true_iff, PyDict.mem_keys_ofList, PyDict.mem_keys_ofList]
    exact ⟨by simpa using hn, by simpa using he⟩

/-- So has every completed legacy event. -/
lemma mem_names_completeLegacyEvent (lctx : LegacyContext) (hperm : ∀ l, (lctx.setOrder l).Perm l)
    (event : TelemetryEvent) (t : Nat) {n : String} (hn : n ∈ (lctx.commonParams t).map (·.name)) :
    n ∈ (completeLegacyEvent lctx event t).parameters.map (·.name) := by
  unfold completeLegacyEvent
  split
  · simp only [addCommonParamsToTelemetryEvent, List.map_append, List.mem_append]
    exact .inr hn
  · exact mem_names_updateLegacyAgentEvent lctx hperm event t hn

section

variable {σ : Type} (enqueueEvent : σ → TelemetryEvent → σ × Except EnqueueError Unit)
  (lctx : LegacyContext) {eventDir : String} (logger : EventLogger eventDir)

/-- The event `e` is the event `process_events` hands over for the event file `name` with the
contents `f`: read and parsed, redacted, and completed when the file is a legacy one. -/
def EventOfFile (name : String) (f : EventFile) (e : TelemetryEvent) : Prop :=
  ∃ ev isAgentEvent, lctx.eventFileMatch name = some isAgentEvent ∧
    readAndParseEventFile lctx f = .ok ev ∧
    e = if isAgentEvent then lctx.redactEventMsg ev
      else completeLegacyEvent lctx (lctx.redactEventMsg ev) f.mtime

/-- The event `e` is the event of an event file that `dir` holds in `fs`. -/
def FromEventFile (fs : FileSystem) (dir : String) (e : TelemetryEvent) : Prop :=
  ∃ name f, (name, f) ∈ (fs.files? dir).getD [] ∧ EventOfFile lctx name f e

/-- An event of a file that is still there was one of a file that was there before. -/
lemma FromEventFile.of_shrinks {fs fs' : FileSystem} {dir : String} {e : TelemetryEvent}
    (h : fs.Shrinks fs') (he : FromEventFile lctx fs' dir e) : FromEventFile lctx fs dir e :=
  let ⟨name, f, hmem, hrest⟩ := he
  ⟨name, f, h.mem_files hmem, hrest⟩

/-- What collecting an event file hands over is that file's event. -/
lemma collectEventFile_from (st : CaptureState σ) (dir name : String) (isAgentEvent : Bool)
    (hm : lctx.eventFileMatch name = some isAgentEvent) :
    st.HandsOver (FromEventFile lctx st.fs dir)
      (collectEventFile enqueueEvent lctx st dir name isAgentEvent).1 := by
  unfold collectEventFile
  split
  · exact .of_eq rfl
  · rename_i f hf
    split
    · exact .of_eq rfl
    · rename_i ev hev
      dsimp only
      split
      · exact ⟨[_], rfl, fun e he => ⟨name, f, FileSystem.mem_files_of_file? hf, ev, isAgentEvent, hm,
          hev, List.mem_singleton.1 he⟩⟩
      · exact .of_eq rfl
      · exact .of_eq rfl

/-- So is what a turn of the loop hands over. -/
lemma processEventFile_from (st : CaptureState σ) (dir name : String) :
    st.HandsOver (FromEventFile lctx st.fs dir) (processEventFile enqueueEvent lctx st dir name).1 := by
  unfold processEventFile
  split
  · exact .of_eq rfl
  · rename_i isAgentEvent hmatch
    have h := collectEventFile_from enqueueEvent lctx st dir name isAgentEvent hmatch
    rcases hc : collectEventFile enqueueEvent lctx st dir name isAgentEvent with ⟨st₁, raised⟩
    rw [hc] at h
    dsimp only
    split
    · split <;> exact h
    · exact h

/-- Every event the loop hands over is the event of a file the directory held when it began. -/
lemma processEventsLoop_from (dir : String) (names : List String) :
    ∀ (st : CaptureState σ) (debugInfo : List DebugInfoError), st.HandsOver (FromEventFile lctx st.fs dir)
      (processEventsLoop enqueueEvent lctx st dir debugInfo names).1 := by
  induction names with
  | nil => exact fun st _ => .of_eq rfl
  | cons name names ih =>
    intro st debugInfo
    have h₁ := processEventFile_from enqueueEvent lctx st dir name
    have hshr := (processEventFile_shrinksIn enqueueEvent lctx st dir name).shrinks
    rcases hp : processEventFile enqueueEvent lctx st dir name with ⟨st₁, raised⟩
    rw [hp] at h₁ hshr
    rw [processEventsLoop, hp]
    exact h₁.trans ((ih st₁ _).mono fun e he => he.of_shrinks lctx hshr)

/-- So is every event a run of `process_events` hands over. -/
lemma processEvents_from (st : CaptureState σ) (dir : String) :
    st.HandsOver (FromEventFile lctx st.fs dir) (processEvents enqueueEvent lctx logger st dir).1 := by
  cases hl : st.fs.listdir dir with
  | error e => simp only [processEvents, hl]; exact .of_eq rfl
  | ok names =>
    have h := processEventsLoop_from enqueueEvent lctx dir names st []
    rcases hloop : processEventsLoop enqueueEvent lctx st dir [] names with ⟨st', debugInfo⟩
    rw [hloop] at h
    simp only [processEvents, hl, hloop]
    exact h

/-- Every event a run of `process_events` hands over is the event of an event file the
directory held when the run began: the event `parse_event` read from the file, passed through
`redact_event_msg`, and, for a legacy file, completed. A completed event has a parameter for each
name of the common parameters, whatever order Python iterates the set of missing names in. No
event is handed over unredacted, and none comes from elsewhere. -/
theorem processEvents_events_from_files (hperm : ∀ l, (lctx.setOrder l).Perm l)
    (st : CaptureState σ) (dir : String) :
    ∃ new, (processEvents enqueueEvent lctx logger st dir).1.enqueued = st.enqueued ++ new ∧
      ∀ e ∈ new, ∃ name f ev isAgentEvent, (name, f) ∈ (st.fs.files? dir).getD [] ∧
        lctx.eventFileMatch name = some isAgentEvent ∧ readAndParseEventFile lctx f = .ok ev ∧
        e = (if isAgentEvent then lctx.redactEventMsg ev
          else completeLegacyEvent lctx (lctx.redactEventMsg ev) f.mtime) ∧
        (isAgentEvent = false →
          ∀ n ∈ (lctx.commonParams f.mtime).map (·.name), n ∈ e.parameters.map (·.name)) := by
  obtain ⟨new, hnew, hfrom⟩ := processEvents_from enqueueEvent lctx logger st dir
  refine ⟨new, hnew, fun e he => ?_⟩
  obtain ⟨name, f, hmem, ev, isAgentEvent, hm, hread, rfl⟩ := hfrom e he
  refine ⟨name, f, ev, isAgentEvent, hmem, hm, hread, rfl, fun hlegacy n hn => ?_⟩
  rw [hlegacy, if_neg Bool.false_ne_true]
  exact mem_names_completeLegacyEvent lctx hperm _ _ hn

end

/-- A legacy agent event file: the event handed over has the common parameter `GAVersion`. -/
theorem processEvents_events_from_files_legacy :
    let lctx : LegacyContext := ⟨fun n => if n = "1.tld" then some false else none,
      fun _ => .ok ⟨1, "p", "", []⟩, id, fun _ => false, [], fun _ => [⟨"GAVersion", .str "2.2"⟩], id⟩
    let logger := EventLogger.unwritable "/var/lib/waagent/events"
    let st : CaptureState Unit := ⟨⟨[("/ev", [("1.tld", ⟨0, 5, fun _ => .ok .null, true⟩)])]⟩, (), []⟩
    (∀ l, (lctx.setOrder l).Perm l) ∧
      ∀ e ∈ (processEvents (fun h _ => (h, .ok ())) lctx logger st "/ev").1.enqueued,
        "GAVersion" ∈ e.parameters.map (·.name) := by
  intro lctx logger st
  refine ⟨fun l => List.Perm.refl l, fun e he => ?_⟩
  obtain ⟨new, hnew, hall⟩ :=
    processEvents_events_from_files (fun h _ => (h, .ok ())) lctx logger (fun l => List.Perm.refl l) st "/ev"
  rw [hnew, show st.enqueued = [] from rfl, List.nil_append] at he
  obtain ⟨name, f, ev, isAgentEvent, hmem, hm, -, -, hcomplete⟩ := hall e he
  have hfiles : (st.fs.files? "/ev").getD [] = [("1.tld", ⟨0, 5, fun _ => .ok .null, true⟩)] := rfl
  rw [hfiles, List.mem_singleton] at hmem
  obtain ⟨rfl, rfl⟩ := Prod.mk.inj hmem
  have hlegacy : isAgentEvent = false := Option.some.inj (hm.symm.trans rfl)
  exact hcomplete hlegacy "GAVersion" (List.mem_singleton_self _)

end Telemetry

end AzureLinuxAgent
