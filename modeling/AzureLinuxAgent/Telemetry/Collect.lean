import AzureLinuxAgent.Telemetry.Params
import AzureLinuxAgent.Telemetry.FileSystem

/-!
# Collecting extension events (`_ProcessExtensionEvents`)

Each period the agent walks the events directory of every extension handler.
`_capture_extension_events` lists the files named like `^(\d+)\.json$`, sorts the names in
reverse, and for each file checks its size, reads it (retrying a missing file or a value error
up to `NUM_OF_EVENT_FILE_RETRIES` times), parses every event in it and hands the resulting
telemetry event to the send handler, and deletes the file in a `finally` clause. The number of
events handed over is threaded through `_enqueue_events_and_get_count`, and both loops stop
once it reaches `_MAX_NUMBER_OF_EVENTS_PER_EXTENSION_PER_PERIOD`.
`_ensure_all_events_directories_empty` then deletes what is left in the directories.

The send handler is any state machine whose `enqueue_event` may succeed, raise
`ServiceStoppedError`, or raise another exception. A run also records, as a ghost list, the
events `enqueue_event` accepted. The file system and the event logger are those of
`Telemetry.FileSystem`: a file above the size limit, a file whose processing raised, the maximum
count reached and, in the outer `finally`, the events dropped with `InvalidExtensionEventError`
are each saved by the logger (`LogCall`).

`captureExtensionEvents_count` bounds and counts what one run hands over, for every directory
and every handler; `captureExtensionEvents_count_lags_on_stop` shows the count of a run that
`ServiceStoppedError` ends falling behind what was handed over. `captureExtensionEvents_reads_nine_first` and
`ensureAllEventsDirectoriesEmpty_stops_early` run the code where it departs from its comments.
-/

namespace AzureLinuxAgent

namespace Telemetry

open Python

/-- `_MAX_NUMBER_OF_EVENTS_PER_EXTENSION_PER_PERIOD`. -/
def maxNumberOfEventsPerExtensionPerPeriod : Nat := 360

/-- `_EXTENSION_EVENT_FILE_MAX_SIZE`. -/
def extensionEventFileMaxSize : Nat := 4 * 1024 * 1024

/-- `NUM_OF_EVENT_FILE_RETRIES`. -/
def numOfEventFileRetries : Nat := 3

/-- `_EXTENSION_EVENT_FILE_NAME_REGEX`: `^(\d+)\.json$`, compiled with `re.IGNORECASE`. -/
def extensionEventFileNameRegex (u : UnicodeData) : Re :=
  .seq .bol (.seq (.group 1 (Re.plus (.set u.digit))) (.seq (Re.lit ".json".data) .eol))

/-- What `enqueue_event` can raise. -/
inductive EnqueueError where
  | serviceStopped
  | other
  deriving DecidableEq

/-- What propagates out of `_capture_extension_events`: `ServiceStoppedError`, or an
exception of the file system. -/
inductive CaptureError where
  | serviceStopped
  | builtin (e : PyError)
  deriving DecidableEq

/-- The state a run acts on: the file system, the send handler, and the ghost list of the
events the handler accepted. -/
structure CaptureState (σ : Type) where
  fs : FileSystem
  handler : σ
  enqueued : List TelemetryEvent

namespace CaptureState

variable {σ : Type} {eventDir : String} (logger : EventLogger eventDir) (c : LogCall)
  (st : CaptureState σ)

/-- The state after the event logger saved the event of the call `c`. -/
def logEvent : CaptureState σ := { st with fs := logger.save c st.fs }

@[simp] lemma logEvent_fs : (st.logEvent logger c).fs = logger.save c st.fs := rfl

@[simp] lemma logEvent_handler : (st.logEvent logger c).handler = st.handler := rfl

@[simp] lemma logEvent_enqueued : (st.logEvent logger c).enqueued = st.enqueued := rfl

end CaptureState

/-! ## Reading an event file -/

/-- Whether `_read_event_file` retries after the exception `e`. -/
def isRetryable (e : PyError) : Bool := e == .fileNotFoundError || e == .valueError

/-- The retry loop of `_read_event_file`, at attempt `errorCount`. The loop makes at most
`NUM_OF_EVENT_FILE_RETRIES` attempts, so that much fuel is never the limit. -/
def readEventFileLoop {α : Type} (read : Nat → Except PyError α) (errorCount : Nat) :
    Nat → Except PyError α
  | 0 => read errorCount
  | fuel + 1 =>
    match read errorCount with
    | .ok v => .ok v
    | .error e =>
      if isRetryable e then
        if errorCount + 1 ≥ numOfEventFileRetries then .error e
        else readEventFileLoop read (errorCount + 1) fuel
      else .error e

/-- `_read_event_file(event_file_path)`, with what each attempt to read and parse the file
gives. -/
def readEventFile {α : Type} (read : Nat → Except PyError α) : Except PyError α :=
  readEventFileLoop read 0 numOfEventFileRetries

/-- `events if isinstance(events, list) else [events]`. -/
def Json.asList : Json → List Json
  | .arr items => items
  | v => [v]

/-! ## The capture loops -/

/-- How the body of the loop over files ends: on to the next file, or out of the loop. -/
inductive Flow where
  | next
  | stop
  deriving DecidableEq

section

variable {σ : Type} (enqueueEvent : σ → TelemetryEvent → σ × Except EnqueueError Unit)
  (ctx : TelemetryContext) (handlerName : String) {eventDir : String} (logger : EventLogger eventDir)

/-- The body of the loop over the events of a file: parse the event and hand it over. An
`InvalidExtensionEventError` is added to the events dropped (`dropped_events_with_error_count`,
as the list of the errors) and another exception is logged, both leaving the count as it is;
`ServiceStoppedError` propagates. -/
def enqueueOne (st : CaptureState σ) (count eventFileTime : Nat)
    (dropped : List InvalidExtensionEventError) (event : Json) :
    CaptureState σ × List InvalidExtensionEventError × Except CaptureError Nat :=
  match parseTelemetryEvent ctx handlerName event eventFileTime with
  | .error (.invalid e) => (st, dropped ++ [e], .ok count)
  | .error (.builtin _) => (st, dropped, .ok count)
  | .ok ev =>
    match enqueueEvent st.handler ev with
    | (h, .ok ()) =>
      ({ st with handler := h, enqueued := st.enqueued ++ [ev] }, dropped, .ok (count + 1))
    | (h, .error .serviceStopped) => ({ st with handler := h }, dropped, .error .serviceStopped)
    | (h, .error .other) => ({ st with handler := h }, dropped, .ok count)

/-- The loop over the events of a file, which stops once the count reaches the maximum. -/
def enqueueLoop (st : CaptureState σ) (count eventFileTime : Nat)
    (dropped : List InvalidExtensionEventError) :
    List Json → CaptureState σ × List InvalidExtensionEventError × Except CaptureError Nat
  | [] => (st, dropped, .ok count)
  | event :: events =>
    match enqueueOne enqueueEvent ctx handlerName st count eventFileTime dropped event with
    | (st', dropped', .ok c) =>
      if c ≥ maxNumberOfEventsPerExtensionPerPeriod then (st', dropped', .ok c)
      else enqueueLoop st' c eventFileTime dropped' events
    | (st', dropped', .error e) => (st', dropped', .error e)

/-- `_enqueue_events_and_get_count(handler_name, event_file_path, captured_events_count,
dropped_events_with_error_count)`. -/
def enqueueEventsAndGetCount (st : CaptureState σ) (f : EventFile) (capturedEventsCount : Nat)
    (droppedEventsWithErrorCount : List InvalidExtensionEventError) :
    CaptureState σ × List InvalidExtensionEventError × Except CaptureError Nat :=
  match readEventFile f.read with
  | .error e => (st, droppedEventsWithErrorCount, .error (.builtin e))
  | .ok events =>
    enqueueLoop enqueueEvent ctx handlerName st capturedEventsCount f.mtime
      droppedEventsWithErrorCount events.asList

/-- The `try` block of the loop over files, for the file `name` of `dir`, with its `except`
clauses: the state, the value of `captured_extension_events_count` after it, the events dropped,
and how it ends. A file that is too large is skipped, the maximum reached ends the loop, and an
exception other than `ServiceStoppedError` (`os.stat` raises for a file that has gone) is
logged; each of the three is saved with `add_log_event`. When an exception leaves
`_enqueue_events_and_get_count`, the assignment of the count does not happen. -/
def captureFileBody (st : CaptureState σ) (dir name : String) (count : Nat)
    (dropped : List InvalidExtensionEventError) :
    CaptureState σ × Nat × List InvalidExtensionEventError × Except CaptureError Flow :=
  match st.fs.file? dir name with
  | none => (st.logEvent logger (.fileFailed name .fileNotFoundError), count, dropped, .ok .next)
  | some f =>
    if f.size > extensionEventFileMaxSize then
      (st.logEvent logger (.fileTooLarge dir name f.size), count, dropped, .ok .next)
    else
      match enqueueEventsAndGetCount enqueueEvent ctx handlerName st f count dropped with
      | (st', dropped', .ok c) =>
        if c ≥ maxNumberOfEventsPerExtensionPerPeriod then
          (st'.logEvent logger (.maxCountReached handlerName), c, dropped', .ok .stop)
        else (st', c, dropped', .ok .next)
      | (st', dropped', .error .serviceStopped) => (st', count, dropped', .error .serviceStopped)
      | (st', dropped', .error (.builtin e)) =>
        (st'.logEvent logger (.fileFailed name e), count, dropped', .ok .next)

/-- The body of the loop over files with its `finally`: the file is removed whatever happened,
and an exception of `os.remove` replaces the one in flight. -/
def captureFile (st : CaptureState σ) (dir name : String) (count : Nat)
    (dropped : List InvalidExtensionEventError) :
    CaptureState σ × Nat × List InvalidExtensionEventError × Except CaptureError Flow :=
  let body := captureFileBody enqueueEvent ctx handlerName logger st dir name count dropped
  match body.1.fs.remove dir name with
  | .ok fs => ({ body.1 with fs := fs }, body.2)
  | .error e => (body.1, body.2.1, body.2.2.1, .error (.builtin e))

/-- The loop over the event files: the state, the count, the events dropped, and the exception
that ended it, if any. -/
def captureLoop (st : CaptureState σ) (dir : String) (count : Nat)
    (dropped : List InvalidExtensionEventError) :
    List String → CaptureState σ × Nat × List InvalidExtensionEventError × Option CaptureError
  | [] => (st, count, dropped, none)
  | name :: names =>
    match captureFile enqueueEvent ctx handlerName logger st dir name count dropped with
    | (st', c, dropped', .ok .next) => captureLoop st' dir c dropped' names
    | (st', c, dropped', .ok .stop) => (st', c, dropped', none)
    | (st', c, dropped', .error e) => (st', c, dropped', some e)

/-- The outer `finally` of `_capture_extension_events`: the events dropped, if any, are saved
with `add_log_event`. -/
def logDroppedEvents (st : CaptureState σ) (dropped : List InvalidExtensionEventError) :
    CaptureState σ :=
  if dropped.isEmpty then st else st.logEvent logger (.droppedEvents handlerName dropped)

/-- `_capture_extension_events(handler_name, handler_event_dir_path)`, from a file system and a
handler state, with an empty ghost list: the loop over the event files, and the outer `finally`,
however the loop ended. -/
def captureExtensionEvents (u : UnicodeData) (fs : FileSystem) (handler : σ)
    (handlerEventDirPath : String) : CaptureState σ × Nat × Option CaptureError :=
  let st : CaptureState σ := ⟨fs, handler, []⟩
  match fs.listdir handlerEventDirPath with
  | .error e => (st, 0, some (.builtin e))
  | .ok names =>
    let eventFiles := names.filter fun n => ((extensionEventFileNameRegex u).pyMatch true n).isSome
    match captureLoop enqueueEvent ctx handlerName logger st handlerEventDirPath 0 []
        (sortReverse eventFiles) with
    | (st', count, dropped, raised) => (logDroppedEvents handlerName logger st' dropped, count, raised)

@[simp] lemma logDroppedEvents_handler (st : CaptureState σ) (dropped : List InvalidExtensionEventError) :
    (logDroppedEvents handlerName logger st dropped).handler = st.handler := by
  unfold logDroppedEvents; split <;> rfl

@[simp] lemma logDroppedEvents_enqueued (st : CaptureState σ) (dropped : List InvalidExtensionEventError) :
    (logDroppedEvents handlerName logger st dropped).enqueued = st.enqueued := by
  unfold logDroppedEvents; split <;> rfl

/-- `_capture_extension_events` on a directory that exists is the loop over its event files, in
reverse order of their names, followed by the outer `finally`. -/
lemma captureExtensionEvents_of_loop {u : UnicodeData} {fs : FileSystem} {handler : σ}
    {dir : String} {names : List String} (h : fs.listdir dir = .ok names)
    {st' : CaptureState σ} {count : Nat} {dropped : List InvalidExtensionEventError}
    {raised : Option CaptureError}
    (hloop : captureLoop enqueueEvent ctx handlerName logger ⟨fs, handler, []⟩ dir 0 []
      (sortReverse (names.filter fun n => ((extensionEventFileNameRegex u).pyMatch true n).isSome)) =
        (st', count, dropped, raised)) :
    captureExtensionEvents enqueueEvent ctx handlerName logger u fs handler dir =
      (logDroppedEvents handlerName logger st' dropped, count, raised) := by
  simp only [captureExtensionEvents, h, hloop]

/-! ## Counting what one run hands over -/

/-- One event hands over at most one event, and counts it unless `ServiceStoppedError` is
raised, in which case it hands over none. -/
lemma enqueueOne_spec {st st' : CaptureState σ} {count t : Nat} {event : Json}
    {dropped dropped' : List InvalidExtensionEventError} {r : Except CaptureError Nat}
    (h : enqueueOne enqueueEvent ctx handlerName st count t dropped event = (st', dropped', r)) :
    ∃ new, st'.enqueued = st.enqueued ++ new ∧ new.length ≤ 1 ∧
      (r = .ok (count + new.length) ∨ (r = .error .serviceStopped ∧ new = [])) := by
  unfold enqueueOne at h
  split at h
  · cases h; exact ⟨[], by simp, by simp, .inl rfl⟩
  · cases h; exact ⟨[], by simp, by simp, .inl rfl⟩
  · split at h <;> cases h
    · exact ⟨[_], rfl, by simp, .inl rfl⟩
    · exact ⟨[], by simp, by simp, .inr ⟨rfl, rfl⟩⟩
    · exact ⟨[], by simp, by simp, .inl rfl⟩

/-- The loop over the events of a file, entered below the maximum, hands over at most what the
maximum leaves, and returns the count of what it handed over unless `ServiceStoppedError` is
raised. -/
lemma enqueueLoop_spec {t : Nat} (events : List Json) :
    ∀ {st st' : CaptureState σ} {count : Nat} {dropped dropped' : List InvalidExtensionEventError}
      {r : Except CaptureError Nat}, count < maxNumberOfEventsPerExtensionPerPeriod →
      enqueueLoop enqueueEvent ctx handlerName st count t dropped events = (st', dropped', r) →
      ∃ new, st'.enqueued = st.enqueued ++ new ∧
        count + new.length ≤ maxNumberOfEventsPerExtensionPerPeriod ∧
        (r = .ok (count + new.length) ∨ r = .error .serviceStopped) := by
  induction events with
  | nil => intro st st' count _ _ r hc h; cases h; exact ⟨[], by simp, by simp; omega, .inl rfl⟩
  | cons event events ih =>
    intro st st' count dropped dropped' r hc h
    unfold enqueueLoop at h
    rcases hone : enqueueOne enqueueEvent ctx handlerName st count t dropped event with
      ⟨st₁, dropped₁, r₁⟩
    obtain ⟨new₁, h₁, hlen₁, hr₁⟩ := enqueueOne_spec enqueueEvent ctx handlerName hone
    rw [hone] at h
    rcases hr₁ with rfl | ⟨rfl, rfl⟩
    · dsimp only at h
      split at h
      · cases h; exact ⟨new₁, h₁, by omega, .inl rfl⟩
      · obtain ⟨new₂, h₂, hlen₂, hr₂⟩ := ih (by omega) h
        refine ⟨new₁ ++ new₂, by rw [h₂, h₁, List.append_assoc], by simp; omega, ?_⟩
        simpa [Nat.add_assoc] using hr₂
    · cases h; exact ⟨[], by simpa using h₁, by simp; omega, .inr rfl⟩

/-- `_enqueue_events_and_get_count`, entered below the maximum: it hands over at most what the
maximum leaves, and returns the count it was given plus what it handed over. An exception of
the file, before the loop, hands over nothing. -/
lemma enqueueEventsAndGetCount_spec {st st' : CaptureState σ} {f : EventFile} {count : Nat}
    {dropped dropped' : List InvalidExtensionEventError} {r : Except CaptureError Nat}
    (hc : count < maxNumberOfEventsPerExtensionPerPeriod)
    (h : enqueueEventsAndGetCount enqueueEvent ctx handlerName st f count dropped = (st', dropped', r)) :
    ∃ new, st'.enqueued = st.enqueued ++ new ∧
      count + new.length ≤ maxNumberOfEventsPerExtensionPerPeriod ∧
      (r = .ok (count + new.length) ∨ r = .error .serviceStopped ∨
        (new = [] ∧ ∃ e, r = .error (.builtin e))) := by
  unfold enqueueEventsAndGetCount at h
  split at h
  · cases h; exact ⟨[], by simp, by simp; omega, .inr (.inr ⟨rfl, _, rfl⟩)⟩
  · obtain ⟨new, hnew, hlen, hr⟩ := enqueueLoop_spec enqueueEvent ctx handlerName _ hc h
    exact ⟨new, hnew, hlen, hr.imp_right .inl⟩

/-- The `try` block of the loop over files, entered below the maximum: the count after it is
at most what it was plus what was handed over, and exactly that when the block ends normally;
it goes on to the next file only below the maximum. -/
lemma captureFileBody_spec {st st' : CaptureState σ} {dir name : String} {count c : Nat}
    {dropped dropped' : List InvalidExtensionEventError} {r : Except CaptureError Flow}
    (hc : count < maxNumberOfEventsPerExtensionPerPeriod)
    (h : captureFileBody enqueueEvent ctx handlerName logger st dir name count dropped =
      (st', c, dropped', r)) :
    ∃ new, st'.enqueued = st.enqueued ++ new ∧
      count + new.length ≤ maxNumberOfEventsPerExtensionPerPeriod ∧ c ≤ count + new.length ∧
      ∀ fl, r = .ok fl → c = count + new.length ∧
        (fl = .next → c < maxNumberOfEventsPerExtensionPerPeriod) := by
  have hskip : ∃ new, st.enqueued = st.enqueued ++ new ∧
      count + new.length ≤ maxNumberOfEventsPerExtensionPerPeriod ∧ count ≤ count + new.length ∧
      ∀ fl, (.ok .next : Except CaptureError Flow) = .ok fl → count = count + new.length ∧
        (fl = .next → count < maxNumberOfEventsPerExtensionPerPeriod) :=
    ⟨[], by simp, by simp; omega, by simp, fun fl hfl => by simp; omega⟩
  unfold captureFileBody at h
  split at h
  · cases h; exact hskip
  · split at h
    · cases h; exact hskip
    · rename_i f _ _
      rcases he : enqueueEventsAndGetCount enqueueEvent ctx handlerName st f count dropped with
        ⟨st₂, dropped₂, r₂⟩
      obtain ⟨new, hnew, hlen, hr⟩ := enqueueEventsAndGetCount_spec enqueueEvent ctx handlerName hc he
      rw [he] at h
      rcases hr with rfl | rfl | ⟨rfl, e, rfl⟩
      · dsimp only at h
        split at h <;> cases h
        · exact ⟨new, hnew, hlen, le_rfl, fun fl hfl => ⟨rfl, by cases hfl; simp⟩⟩
        · exact ⟨new, hnew, hlen, le_rfl, fun fl hfl => ⟨rfl, fun _ => by omega⟩⟩
      · cases h; exact ⟨new, hnew, hlen, by omega, by simp⟩
      · cases h; exact ⟨[], hnew, by simp; omega, by simp, fun fl hfl => by simp; omega⟩

/-- The body of the loop over files, with its `finally`: as its `try` block, except that an
exception of `os.remove` ends it. -/
lemma captureFile_spec {st st' : CaptureState σ} {dir name : String} {count c : Nat}
    {dropped dropped' : List InvalidExtensionEventError} {r : Except CaptureError Flow}
    (hc : count < maxNumberOfEventsPerExtensionPerPeriod)
    (h : captureFile enqueueEvent ctx handlerName logger st dir name count dropped =
      (st', c, dropped', r)) :
    ∃ new, st'.enqueued = st.enqueued ++ new ∧
      count + new.length ≤ maxNumberOfEventsPerExtensionPerPeriod ∧ c ≤ count + new.length ∧
      ∀ fl, r = .ok fl → c = count + new.length ∧
        (fl = .next → c < maxNumberOfEventsPerExtensionPerPeriod) := by
  unfold captureFile at h
  rcases hb : captureFileBody enqueueEvent ctx handlerName logger st dir name count dropped with
    ⟨st₁, c₁, dropped₁, r₁⟩
  obtain ⟨new, hnew, hlen, hle, hr⟩ := captureFileBody_spec enqueueEvent ctx handlerName logger hc hb
  rw [hb] at h
  dsimp only at h
  split at h <;> cases h
  · exact ⟨new, hnew, hlen, hle, hr⟩
  · exact ⟨new, hnew, hlen, hle, by simp⟩

/-- The loop over files, entered below the maximum: it hands over at most what the maximum
leaves, its count is at most what it was plus what was handed over, and exactly that when
the loop ends normally. -/
lemma captureLoop_spec {dir : String} (names : List String) :
    ∀ {st st' : CaptureState σ} {count c : Nat} {dropped dropped' : List InvalidExtensionEventError}
      {raised : Option CaptureError}, count < maxNumberOfEventsPerExtensionPerPeriod →
      captureLoop enqueueEvent ctx handlerName logger st dir count dropped names =
        (st', c, dropped', raised) →
      ∃ new, st'.enqueued = st.enqueued ++ new ∧
        count + new.length ≤ maxNumberOfEventsPerExtensionPerPeriod ∧ c ≤ count + new.length ∧
        (raised = none → c = count + new.length) := by
  induction names with
  | nil =>
    intro st st' count c _ _ raised _ h
    cases h; exact ⟨[], by simp, by simp; omega, by simp, by simp⟩
  | cons name names ih =>
    intro st st' count c dropped dropped' raised hc h
    unfold captureLoop at h
    rcases hf : captureFile enqueueEvent ctx handlerName logger st dir name count dropped with
      ⟨st₁, c₁, dropped₁, r₁⟩
    obtain ⟨new₁, h₁, hlen₁, hle₁, hr₁⟩ := captureFile_spec enqueueEvent ctx handlerName logger hc hf
    rw [hf] at h
    rcases r₁ with e | fl
    · cases h; exact ⟨new₁, h₁, hlen₁, hle₁, by simp⟩
    · obtain ⟨hc₁, hnext⟩ := hr₁ fl rfl
      cases fl
      · obtain ⟨new₂, h₂, hlen₂, hle₂, hr₂⟩ := ih (hnext rfl) h
        refine ⟨new₁ ++ new₂, by rw [h₂, h₁, List.append_assoc], ?_⟩
        simp only [List.length_append]
        exact ⟨by omega, by omega, fun hn => by have := hr₂ hn; omega⟩
      · cases h; exact ⟨new₁, h₁, hlen₁, hle₁, fun _ => hc₁⟩

/-- A whole run hands over at most the maximum; its count is at most what it handed over, and
equal to it when no exception ended the run. -/
lemma captureExtensionEvents_spec (u : UnicodeData) (fs : FileSystem) (handler : σ)
    (dir : String) :
    let run := captureExtensionEvents enqueueEvent ctx handlerName logger u fs handler dir
    run.1.enqueued.length ≤ maxNumberOfEventsPerExtensionPerPeriod ∧
      run.2.1 ≤ run.1.enqueued.length ∧ (run.2.2 = none → run.2.1 = run.1.enqueued.length) := by
  dsimp only
  cases hl : fs.listdir dir with
  | error e => simp [captureExtensionEvents, hl]
  | ok names =>
    rcases hloop : captureLoop enqueueEvent ctx handlerName logger ⟨fs, handler, []⟩ dir 0 []
        (sortReverse (names.filter fun n =>
          ((extensionEventFileNameRegex u).pyMatch true n).isSome)) with ⟨st', c, dropped, raised⟩
    obtain ⟨new, hnew, hlen, hle, hr⟩ := captureLoop_spec enqueueEvent ctx handlerName logger _
      (by decide) hloop
    rw [captureExtensionEvents_of_loop enqueueEvent ctx handlerName logger hl hloop]
    simp only [logDroppedEvents_enqueued, hnew, List.nil_append] at hle hr ⊢
    exact ⟨by omega, by omega, fun hn => by rw [hr hn]; omega⟩

/-- One run of `_capture_extension_events` for any handler, over any events directory, with any
send handler and any event logger, hands over at most
`_MAX_NUMBER_OF_EVENTS_PER_EXTENSION_PER_PERIOD` events. The count threaded through
`_enqueue_events_and_get_count` is, at every call made below the maximum, the count it was given
plus the events the call handed over, and stays within the maximum; the count of the run is at
most the events handed over, and equal to it when the run ends without an exception. -/
theorem captureExtensionEvents_count :
    (∀ (st st' : CaptureState σ) (f : EventFile) (count : Nat)
      (dropped dropped' : List InvalidExtensionEventError) (r : Except CaptureError Nat),
      count < maxNumberOfEventsPerExtensionPerPeriod →
      enqueueEventsAndGetCount enqueueEvent ctx handlerName st f count dropped = (st', dropped', r) →
      ∃ new, st'.enqueued = st.enqueued ++ new ∧
        count + new.length ≤ maxNumberOfEventsPerExtensionPerPeriod ∧
        ∀ c, r = .ok c → c = count + new.length) ∧
    ∀ (u : UnicodeData) (fs : FileSystem) (handler : σ) (dir : String),
      let run := captureExtensionEvents enqueueEvent ctx handlerName logger u fs handler dir
      run.1.enqueued.length ≤ maxNumberOfEventsPerExtensionPerPeriod ∧
        run.2.1 ≤ run.1.enqueued.length ∧ (run.2.2 = none → run.2.1 = run.1.enqueued.length) := by
  refine ⟨fun st st' f count dropped dropped' r hc h => ?_,
    captureExtensionEvents_spec enqueueEvent ctx handlerName logger⟩
  obtain ⟨new, hnew, hlen, hr⟩ := enqueueEventsAndGetCount_spec enqueueEvent ctx handlerName hc h
  refine ⟨new, hnew, hlen, fun c hcr => ?_⟩
  rcases hr with h' | h' | ⟨-, e, h'⟩ <;> rw [hcr] at h' <;> cases h'
  rfl

/-- A file of two valid events, read from a count of 0 with a handler that accepts everything:
the call returns the count 2, the events it handed over. -/
theorem captureExtensionEvents_count_two_events :
    let event : Json := .obj [("Message", .str "m"), ("EventLevel", .str ""),
      ("EventPid", .str ""), ("EventTid", .str ""), ("OperationId", .str ""),
      ("TaskName", .str ""), ("Timestamp", .str ""), ("Version", .str "1.0")]
    let st : CaptureState Unit := ⟨⟨[]⟩, (), []⟩
    let f : EventFile := ⟨0, 0, fun _ => .ok (.arr [event, event]), true⟩
    let ctx : TelemetryContext := ⟨0, "", "", "", "", "", "", "", "", "", fun _ => []⟩
    let call := enqueueEventsAndGetCount (fun h _ => (h, .ok ())) ctx "h" st f 0 []
    (0 < maxNumberOfEventsPerExtensionPerPeriod ∧ call.2.2 = .ok 2) ∧
      ∃ new, call.1.enqueued = st.enqueued ++ new ∧
        0 + new.length ≤ maxNumberOfEventsPerExtensionPerPeriod ∧
        ∀ c, call.2.2 = .ok c → c = 0 + new.length := by
  intro event st f ctx call
  exact ⟨⟨by decide, rfl⟩, (captureExtensionEvents_count (fun h _ => (h, .ok ())) ctx "h"
    (EventLogger.unwritable "/var/lib/waagent/events")).1 st _ f 0 [] _ _ (by decide) rfl⟩

/-- The count of a run lags behind what it handed over when `ServiceStoppedError` ends it: the
file `1.json` holds two valid events and the send handler accepts the first and raises on the
second, so one event is handed over, and the run returns the count 0, since the assignment of
`captured_extension_events_count` is skipped. -/
theorem captureExtensionEvents_count_lags_on_stop :
    let event : Json := .obj [("Message", .str "m"), ("EventLevel", .str ""),
      ("EventPid", .str ""), ("EventTid", .str ""), ("OperationId", .str ""),
      ("TaskName", .str ""), ("Timestamp", .str ""), ("Version", .str "1.0")]
    let run := captureExtensionEvents
      (fun (h : Bool) _ => if h then (h, .error .serviceStopped) else (true, .ok ()))
      ⟨0, "", "", "", "", "", "", "", "", "", fun _ => []⟩ "h"
      (EventLogger.unwritable "/var/lib/waagent/events") ⟨fun _ => false, fun _ => false⟩
      ⟨[("/ev", [("1.json", ⟨0, 0, fun _ => .ok (.arr [event, event]), true⟩)])]⟩ false "/ev"
    run.1.enqueued.length = 1 ∧ run.2.1 = 0 ∧ run.2.2 = some .serviceStopped := by
  decide

/-- A file that is read without error is a run of the loop over its events. -/
lemma enqueueEventsAndGetCount_of_read {st : CaptureState σ} {f : EventFile} {count : Nat}
    {dropped : List InvalidExtensionEventError} {events : Json}
    (h : readEventFile f.read = .ok events) :
    enqueueEventsAndGetCount enqueueEvent ctx handlerName st f count dropped =
      enqueueLoop enqueueEvent ctx handlerName st count f.mtime dropped events.asList := by
  simp [enqueueEventsAndGetCount, h]

/-- A file within the size limit whose events bring the count to the maximum ends the loop:
the event logger saves the maximum reached, and the file is removed. -/
lemma captureFile_of_max {st st' : CaptureState σ} {dir name : String} {f : EventFile}
    {count c : Nat} {dropped dropped' : List InvalidExtensionEventError} {fs : FileSystem}
    (hf : st.fs.file? dir name = some f) (hsize : f.size ≤ extensionEventFileMaxSize)
    (he : enqueueEventsAndGetCount enqueueEvent ctx handlerName st f count dropped =
      (st', dropped', .ok c))
    (hc : maxNumberOfEventsPerExtensionPerPeriod ≤ c)
    (hrm : (logger.save (.maxCountReached handlerName) st'.fs).remove dir name = .ok fs) :
    captureFile enqueueEvent ctx handlerName logger st dir name count dropped =
      ({ st' with fs := fs }, c, dropped', .ok .stop) := by
  simp [captureFile, captureFileBody, hf, Nat.not_lt.2 hsize, he, hc, hrm, CaptureState.logEvent]

/-- A name of ASCII characters that fold to ASCII is matched alike whatever the Unicode tables. -/
lemma extensionEventFileNameRegex_pyMatch_of_ascii (u u' : UnicodeData) {n : String}
    (h : ∀ x ∈ n.data, x.toNat < 128 ∧ (foldCase x).toNat < 128) :
    (extensionEventFileNameRegex u).pyMatch true n =
      (extensionEventFileNameRegex u').pyMatch true n := by
  have hd : Re.Agree true (fun x => x.toNat < 128 ∧ (foldCase x).toNat < 128)
      (.set u.digit) (.set u'.digit) :=
    .set fun x hx => by
      simp only [setMatches, UnicodeData.digit_of_lt u u' hx.1, UnicodeData.digit_of_lt u u' hx.2]
  exact congrArg List.head?
    (Re.run_congr (.seq .bol (.seq (.group 1 (.seq hd (.star hd))) (.refl _ _ _))) _ h).1

/-- With a handler that accepts everything, the loop over copies of one valid event hands
over copies of its telemetry event until the count reaches the maximum. -/
lemma enqueueLoop_replicate {ev : Json} {tev : TelemetryEvent} {t : Nat}
    (hparse : parseTelemetryEvent ctx handlerName ev t = .ok tev)
    (hacc : ∀ h, enqueueEvent h tev = (h, .ok ())) (dropped : List InvalidExtensionEventError) :
    ∀ (n count : Nat) (st : CaptureState σ), count < maxNumberOfEventsPerExtensionPerPeriod →
      maxNumberOfEventsPerExtensionPerPeriod ≤ count + n →
      enqueueLoop enqueueEvent ctx handlerName st count t dropped (List.replicate n ev) =
        ({ st with enqueued := st.enqueued ++
            List.replicate (maxNumberOfEventsPerExtensionPerPeriod - count) tev },
          dropped, .ok maxNumberOfEventsPerExtensionPerPeriod)
  | 0, count, _, hc, hn => absurd hn (by omega)
  | n + 1, count, st, hc, hn => by
    have hone : enqueueOne enqueueEvent ctx handlerName st count t dropped ev =
        ({ st with enqueued := st.enqueued ++ [tev] }, dropped, .ok (count + 1)) := by
      simp [enqueueOne, hparse, hacc]
    rw [List.replicate_succ, enqueueLoop, hone]
    dsimp only
    split
    · rw [show count + 1 = maxNumberOfEventsPerExtensionPerPeriod by omega,
        show maxNumberOfEventsPerExtensionPerPeriod - count = 1 by omega]
      rfl
    · rw [enqueueLoop_replicate hparse hacc dropped n (count + 1) _ (by omega) (by omega),
        show maxNumberOfEventsPerExtensionPerPeriod - count =
          (maxNumberOfEventsPerExtensionPerPeriod - (count + 1)) + 1 by omega,
        List.replicate_succ, List.append_assoc, List.singleton_append]

end

/-! ## Emptying the events directories -/

/-- The loop over the residue files of one directory: every file is removed, and a failed
removal is logged and skipped. -/
def removeResidue (fs : FileSystem) (dir : String) : List String → FileSystem
  | [] => fs
  | name :: names =>
    match fs.remove dir name with
    | .ok fs' => removeResidue fs' dir names
    | .error _ => removeResidue fs dir names

/-- The loop over the directories of `_ensure_all_events_directories_empty`: a directory that
does not exist (`not os.path.exists`) returns from the function, and the files of one that
does (`os.listdir`) are removed. -/
def ensureLoop (fs : FileSystem) : List (String × String) → FileSystem
  | [] => fs
  | (_, eventDirPath) :: rest =>
    match fs.files? eventDirPath with
    | none => fs
    | some residue => ensureLoop (removeResidue fs eventDirPath (residue.map (·.1))) rest

/-- `_ensure_all_events_directories_empty(extension_events_directories)`. -/
def ensureAllEventsDirectoriesEmpty (fs : FileSystem)
    (extensionEventsDirectories : List (String × String)) : FileSystem :=
  if extensionEventsDirectories.isEmpty then fs else ensureLoop fs extensionEventsDirectories

/-! ## Where collection departs from its comments -/

/-- The names `9.json` and `10.json` sort as strings, so `9.json` is read first: when it holds
360 valid events and the handler accepts everything, the run hands over 360 events and stops,
and `10.json`, the newer file, is left unread in the directory, whatever the event logger of
the agent's events directory saves. -/
theorem captureExtensionEvents_reads_nine_first (u : UnicodeData) (ctx : TelemetryContext)
    (handlerName : String) (logger : EventLogger "/var/lib/waagent/events") :
    let event (m : String) : Json := .obj [("Message", .str m), ("EventLevel", .str ""),
      ("EventPid", .str ""), ("EventTid", .str ""), ("OperationId", .str ""),
      ("TaskName", .str ""), ("Timestamp", .str ""), ("Version", .str "1.0")]
    let file (events : List Json) : EventFile := ⟨1024, 0, fun _ => .ok (.arr events), true⟩
    let run := captureExtensionEvents (fun (h : Unit) _ => (h, .ok ())) ctx handlerName logger u
      ⟨[("/ev", [("10.json", file [event "newer"]),
        ("9.json", file (List.replicate 360 (event "older")))])]⟩ () "/ev"
    run.2.1 = 360 ∧ run.1.enqueued.length = 360 ∧ run.1.fs.listdir "/ev" = .ok ["10.json"] ∧
      run.2.2 = none := by
  intro event file run
  let older := List.replicate 360 (event "older")
  let fs : FileSystem := ⟨[("/ev", [("10.json", file [event "newer"]), ("9.json", file older)])]⟩
  obtain ⟨valid, hvalid⟩ : ∃ valid, parseEventAndEnsureItIsValid (event "older") = .ok valid :=
    ⟨_, rfl⟩
  obtain ⟨tev, hparse⟩ := parseTelemetryEvent_of_valid hvalid ctx handlerName 0
  have hread : readEventFile (file older).read = .ok (.arr older) := rfl
  have he : enqueueEventsAndGetCount (fun (h : Unit) _ => (h, .ok ())) ctx handlerName
      ⟨fs, (), []⟩ (file older) 0 [] = (⟨fs, (), [] ++ List.replicate (360 - 0) tev⟩, [], .ok 360) := by
    rw [enqueueEventsAndGetCount_of_read _ _ _ hread]
    exact enqueueLoop_replicate (fun (h : Unit) _ => (h, .ok ())) ctx handlerName hparse
      (fun _ => rfl) [] 360 0 _ (by decide) (by decide)
  -- the logger writes elsewhere, so `9.json` is still there to be removed
  have hne : ("/ev" : String) ≠ "/var/lib/waagent/events" := by decide
  have hfiles : fs.files? "/ev" = some [("10.json", file [event "newer"]), ("9.json", file older)] :=
    rfl
  have hsaved := logger.frame (.maxCountReached handlerName) fs "/ev" hne
  have hrm : (logger.save (.maxCountReached handlerName) fs).remove "/ev" "9.json" =
      .ok ((logger.save (.maxCountReached handlerName) fs).erase "/ev" "9.json") :=
    FileSystem.remove_of_file? (by rw [logger.file?_save hne]; rfl) rfl
  have hfile := captureFile_of_max (fun (h : Unit) _ => (h, .ok ())) ctx handlerName logger
    (show fs.file? "/ev" "9.json" = some (file older) from rfl)
    (by simp only [file, extensionEventFileMaxSize]; omega) he le_rfl hrm
  have hl : fs.listdir "/ev" = .ok ["10.json", "9.json"] := rfl
  have hnames : sortReverse (["10.json", "9.json"].filter fun n =>
      ((extensionEventFileNameRegex u).pyMatch true n).isSome) = ["9.json", "10.json"] := by
    rw [List.filter_congr fun n hn => by
      rw [extensionEventFileNameRegex_pyMatch_of_ascii u ⟨fun _ => false, fun _ => false⟩ (by
        simp only [List.mem_cons, List.mem_singleton, List.not_mem_nil, or_false] at hn
        rcases hn with rfl | rfl <;> decide)]]
    decide
  have hloop : captureLoop (fun (h : Unit) _ => (h, .ok ())) ctx handlerName logger ⟨fs, (), []⟩
      "/ev" 0 [] ["9.json", "10.json"] =
        (⟨(logger.save (.maxCountReached handlerName) fs).erase "/ev" "9.json", (),
          [] ++ List.replicate (360 - 0) tev⟩, 360, [], none) := by
    rw [captureLoop, hfile]
  rw [← hnames] at hloop
  have hrun : run = (⟨(logger.save (.maxCountReached handlerName) fs).erase "/ev" "9.json", (),
      [] ++ List.replicate (360 - 0) tev⟩, 360, none) :=
    captureExtensionEvents_of_loop _ _ _ logger hl hloop
  rw [hrun]
  refine ⟨rfl, by rw [List.nil_append, List.length_replicate], ?_, rfl⟩
  simp only [FileSystem.listdir, FileSystem.files?_erase, hsaved, hfiles]
  decide

/-- A listed directory that no longer exists ends the cleanup: the residue file of the
directory listed after it stays, and it goes when the missing directory is not listed. -/
theorem ensureAllEventsDirectoriesEmpty_stops_early :
    let residue : EventFile := ⟨0, 0, fun _ => .ok .null, true⟩
    (ensureAllEventsDirectoriesEmpty ⟨[("/b/events", [("1.json", residue)])]⟩
        [("A", "/a/events"), ("B", "/b/events")]).listdir "/b/events" = .ok ["1.json"] ∧
      (ensureAllEventsDirectoriesEmpty ⟨[("/b/events", [("1.json", residue)])]⟩
        [("B", "/b/events")]).listdir "/b/events" = .ok [] := by
  decide

end Telemetry

end AzureLinuxAgent
