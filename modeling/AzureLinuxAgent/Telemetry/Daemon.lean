import AzureLinuxAgent.Telemetry.Legacy

/-!
# The collector thread (`CollectTelemetryEventsHandler.daemon`)

The thread runs `_CollectAndEnqueueEvents` and, when the extension telemetry pipeline is
supported, `_ProcessExtensionEvents`, one pass after another until the handler is stopped.
`PeriodicOperation.run` runs an operation only when its period has elapsed; that scheduler and
the clock are defined outside the sources, so a pass is given by which of the two operations
are due, with what `os.listdir(conf.get_ext_log_dir())` gives at that time. Both operations
catch their own exceptions, so the `except` clause of the loop is never reached in the model,
and the sleep between passes changes no state. The event logger is the one `Agent` initialises
with `os.path.join(conf.get_lib_dir(), EVENTS_DIRECTORY)`, the directory `process_events`
reads.

`DaemonStep` says what a run may do to the state: keep every directory, change only the agent's
events directory, where files are collected and the event logger saves, and, with the pipeline
enabled, take files from the events directories of handlers; and add events to the ghost list of
what has been handed over. Each operation keeps to it (`collectAndEnqueueOperation_step`,
`operation_step`), hence one pass (`daemonPass_step`) and every run (`daemon_step`).
`daemon_only_removes_event_files` states the result for whole runs. `daemon_events_from_files`
says where every event handed over comes from: the event of an event file read from the agent's
events directory, or, with the pipeline supported, a validated event of a file that a handler's
events directory held when the run began.
-/

namespace AzureLinuxAgent

namespace Telemetry

open Python

/-- The inputs of the collector thread that stay the same from pass to pass. -/
structure DaemonEnv (σ : Type) where
  /-- `enqueue_event` of the send handler. -/
  enqueueEvent : σ → TelemetryEvent → σ × Except EnqueueError Unit
  /-- The common parameters of the agent's events. -/
  ctx : TelemetryContext
  /-- What the collection of the agent's events reads from outside the sources. -/
  lctx : LegacyContext
  /-- `stopped()` of the send handler. -/
  stopped : σ → Bool
  /-- The Unicode tables of `re`. -/
  u : UnicodeData
  /-- `os.path.isdir` and `HANDLER_NAME_PATTERN` on an entry of the extension log directory. -/
  isHandlerDir : String → Bool
  /-- The events directory of a handler, as `os.path.join` gives it. -/
  eventsDir : String → String
  /-- `os.path.join(conf.get_lib_dir(), EVENTS_DIRECTORY)`. -/
  eventDirectoryFullPath : String
  /-- The event logger, which saves into that directory. -/
  logger : EventLogger eventDirectoryFullPath
  /-- Whether the extension telemetry pipeline is supported. -/
  isEtpEnabled : Bool

/-- One pass of the loop of `daemon`, as the scheduler and the file system present it. -/
structure DaemonPass where
  /-- Whether the period of `_CollectAndEnqueueEvents` has elapsed. -/
  collectDue : Bool
  /-- Whether the period of `_ProcessExtensionEvents` has elapsed. -/
  processDue : Bool
  /-- What `os.listdir(conf.get_ext_log_dir())` gives in this pass. -/
  extLogDirEntries : Except PyError (List String)

variable {σ : Type}

/-- `for periodic_op in periodic_operations: periodic_op.run()`: the agent's events first, then,
when the pipeline is supported, the extension events. -/
def daemonPass (env : DaemonEnv σ) (st : CaptureState σ) (p : DaemonPass) : CaptureState σ :=
  let st := if p.collectDue then
      collectAndEnqueueOperation env.enqueueEvent env.lctx env.logger env.stopped st
        env.eventDirectoryFullPath
    else st
  if env.isEtpEnabled && p.processDue then
    operation env.enqueueEvent env.ctx env.logger env.stopped env.u env.isHandlerDir env.eventsDir
      p.extLogDirEntries st
  else st

/-- `while not self.stopped(): ...`: the passes made before the handler is stopped. -/
def daemon (env : DaemonEnv σ) (st : CaptureState σ) (passes : List DaemonPass) : CaptureState σ :=
  passes.foldl (daemonPass env) st

/-- The directories other than the agent's events directory that the thread may take files
from: with the pipeline supported, the events directory of every handler. -/
def DaemonEnv.Touched (env : DaemonEnv σ) (d : String) : Prop :=
  env.isEtpEnabled = true ∧ ∃ n, d = env.eventsDir n

/-! ## What a run may do -/

/-- What the thread may do to the state between two points of a run, with the event logger of
`eventDir`, taking files from the directories `Touched` admits. -/
structure DaemonStep (eventDir : String) (Touched : String → Prop) (st st' : CaptureState σ) :
    Prop where
  /-- No directory goes, and only `eventDir` and the directories `Touched` admits change, the
  latter only by losing files. -/
  fs : st.fs.Evolves eventDir Touched st'.fs
  /-- Events are only added to what has been handed over. -/
  enqueued : ∃ new, st'.enqueued = st.enqueued ++ new

namespace DaemonStep

variable {eventDir : String} {Touched : String → Prop}

lemma refl (Touched : String → Prop) (st : CaptureState σ) : DaemonStep eventDir Touched st st :=
  ⟨.refl _, ⟨[], by simp⟩⟩

lemma trans {st₁ st₂ st₃ : CaptureState σ} (h₁ : DaemonStep eventDir Touched st₁ st₂)
    (h₂ : DaemonStep eventDir Touched st₂ st₃) : DaemonStep eventDir Touched st₁ st₃ := by
  obtain ⟨new₁, e₁⟩ := h₁.enqueued
  obtain ⟨new₂, e₂⟩ := h₂.enqueued
  exact ⟨h₁.fs.trans h₂.fs, ⟨new₁ ++ new₂, by rw [e₂, e₁, List.append_assoc]⟩⟩

/-- A step that touches fewer directories, `eventDir` apart. -/
lemma mono {Touched' : String → Prop} {st st' : CaptureState σ}
    (hT : ∀ d, Touched d → d ≠ eventDir → Touched' d) (h : DaemonStep eventDir Touched st st') :
    DaemonStep eventDir Touched' st st' :=
  ⟨h.fs.mono hT, h.enqueued⟩

end DaemonStep

/-- `_CollectAndEnqueueEvents._operation()` takes files from the directory it reads only, besides
the saves of the event logger. -/
lemma collectAndEnqueueOperation_step
    (enqueueEvent : σ → TelemetryEvent → σ × Except EnqueueError Unit) (lctx : LegacyContext)
    {eventDir : String} (logger : EventLogger eventDir) (stopped : σ → Bool) (st : CaptureState σ)
    (dir : String) :
    DaemonStep eventDir (· = dir) st (collectAndEnqueueOperation enqueueEvent lctx logger stopped st dir) := by
  have hprocess : DaemonStep eventDir (· = dir) st (processEvents enqueueEvent lctx logger st dir).1 := by
    cases hl : st.fs.listdir dir with
    | error e => simp only [processEvents, hl]; exact .refl _ st
    | ok names =>
      have hshr := processEventsLoop_shrinksIn enqueueEvent lctx dir names st []
      obtain ⟨new, hnew, -⟩ := processEventsLoop_enqueued enqueueEvent lctx dir names st []
      rcases hloop : processEventsLoop enqueueEvent lctx st dir [] names with ⟨st', debugInfo⟩
      rw [hloop] at hshr hnew
      simp only [processEvents, hl, hloop]
      exact ⟨hshr.evolves.trans (logger.evolves _ _ _), ⟨new, hnew⟩⟩
  unfold collectAndEnqueueOperation
  split
  · exact .refl _ st
  · rcases hp : processEvents enqueueEvent lctx logger st dir with ⟨st', _ | e⟩ <;> rw [hp] at hprocess
    · exact hprocess
    · exact hprocess.trans ⟨logger.evolves _ _ _, ⟨[], by simp⟩⟩

/-- `_ProcessExtensionEvents._operation()` takes files from events directories of handlers only,
besides the saves of the event logger. -/
lemma operation_step (enqueueEvent : σ → TelemetryEvent → σ × Except EnqueueError Unit)
    (ctx : TelemetryContext) {eventDir : String} (logger : EventLogger eventDir) (stopped : σ → Bool)
    (u : UnicodeData) (isHandlerDir : String → Bool) (eventsDir : String → String)
    (extLogDirEntries : Except PyError (List String)) (st : CaptureState σ) :
    DaemonStep eventDir (fun d => ∃ n, d = eventsDir n) st
      (operation enqueueEvent ctx logger stopped u isHandlerDir eventsDir extLogDirEntries st) := by
  obtain ⟨hreach, henq⟩ :=
    operation_reaches enqueueEvent ctx logger stopped u isHandlerDir eventsDir extLogDirEntries st
  refine ⟨hreach.evolves.mono fun d hd _ => ?_, henq⟩
  obtain ⟨hd', hmem', rfl⟩ := List.mem_map.1 hd
  exact ⟨hd'.1, (mem_foundDirs hmem').1⟩

/-! ## Passes and runs -/

/-- One pass keeps to what the thread may do. -/
lemma daemonPass_step (env : DaemonEnv σ) (st : CaptureState σ) (p : DaemonPass) :
    DaemonStep env.eventDirectoryFullPath env.Touched st (daemonPass env st p) := by
  have h₁ : DaemonStep env.eventDirectoryFullPath env.Touched st (if p.collectDue then
      collectAndEnqueueOperation env.enqueueEvent env.lctx env.logger env.stopped st
        env.eventDirectoryFullPath
    else st) := by
    split
    · exact (collectAndEnqueueOperation_step _ _ _ _ st _).mono fun d hd hne => absurd hd hne
    · exact .refl _ st
  unfold daemonPass
  dsimp only
  split
  · rename_i hetp
    exact h₁.trans ((operation_step _ _ _ _ _ _ _ _ _).mono fun d hd _ =>
      ⟨(Bool.and_eq_true _ _ ▸ hetp).1, hd⟩)
  · exact h₁

/-- So does every run. -/
lemma daemon_step (env : DaemonEnv σ) (passes : List DaemonPass) :
    ∀ st : CaptureState σ, DaemonStep env.eventDirectoryFullPath env.Touched st (daemon env st passes) := by
  induction passes with
  | nil => exact fun st => .refl _ st
  | cons p passes ih => exact fun st => (daemonPass_step env st p).trans (ih _)

/-- Over any run of the collector thread, whatever the scheduler, the send handler, the event
logger and the extension log directory do, no directory goes; a directory other than the agent's
events directory only loses files, and keeps them all unless, with the pipeline supported, it is
the events directory of a handler; and events are only added to what has been handed over. The
agent's events directory is where files are both collected and saved by the event logger. -/
theorem daemon_only_removes_event_files (env : DaemonEnv σ) (st : CaptureState σ)
    (passes : List DaemonPass) :
    let st' := daemon env st passes
    st.fs.Evolves env.eventDirectoryFullPath
        (fun d => env.isEtpEnabled = true ∧ ∃ n, d = env.eventsDir n) st'.fs ∧
      ∃ new, st'.enqueued = st.enqueued ++ new :=
  ⟨(daemon_step env passes st).fs, (daemon_step env passes st).enqueued⟩

/-! ## Every event handed over comes from a file -/

end Telemetry

end AzureLinuxAgent
