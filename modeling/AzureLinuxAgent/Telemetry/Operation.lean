import AzureLinuxAgent.Telemetry.Collect

/-!
# One period of extension event collection (`_ProcessExtensionEvents._operation`)

Each period the agent skips the run if the send handler has stopped; otherwise it finds the
events directory of every extension handler (`_get_extension_events_dir_with_handler_name`),
captures the events of each in turn, and in a `finally` clause empties all the directories it
found, unless a `ServiceStoppedError` ended the loop over handlers, in which case the files are
kept for the next period.

The file system changes by `os.remove` and by what the event logger saves: the unknown
exception of a period (`add_event`) and the logger calls of each capture. The logger writes
only into its own directory, the agent's events directory (`EventLogger`), so a period keeps
every directory, a directory other than the logger's only loses files, and a directory that is
neither found nor the logger's is untouched (`FileSystem.Evolves`, `operation_frame`).

`operation_events_per_handler` splits what one period hands over into one batch per handler
directory, each within `_MAX_NUMBER_OF_EVENTS_PER_EXTENSION_PER_PERIOD`;
`operation_empties_events_dirs` shows that a period that does not meet `ServiceStoppedError`
leaves every directory it found empty when the files can be removed. `operation_from`
attributes every event a period hands over to a file of a handler's events directory whose
event passed `_parse_event_and_ensure_it_is_valid` (`CaptureState.HandsOver`,
`FromExtensionFile`). `operation_keeps_unread_files_on_stop` shows that a period interrupted by
`ServiceStoppedError` keeps, as its comment intends, every file it had not begun to read.

`os.listdir(conf.get_ext_log_dir())` and the test of each entry (`os.path.isdir` and
`HANDLER_NAME_PATTERN`, which is defined outside the sources) are inputs of the model, as is the
path `os.path.join` gives for the events directory of a handler.
-/

namespace AzureLinuxAgent

namespace Telemetry

open Python

/-! ## Where what is handed over comes from -/

namespace CaptureState

variable {σ : Type}

/-- Between `st` and `st'` events were only added to what has been handed over, and each of
them satisfies `P`. -/
def HandsOver (P : TelemetryEvent → Prop) (st st' : CaptureState σ) : Prop :=
  ∃ new, st'.enqueued = st.enqueued ++ new ∧ ∀ e ∈ new, P e

variable {P Q : TelemetryEvent → Prop} {st₁ st₂ st₃ : CaptureState σ}

lemma HandsOver.of_eq (h : st₂.enqueued = st₁.enqueued) : st₁.HandsOver P st₂ :=
  ⟨[], by simp [h], by simp⟩

lemma HandsOver.trans (h₁ : st₁.HandsOver P st₂) (h₂ : st₂.HandsOver P st₃) :
    st₁.HandsOver P st₃ := by
  obtain ⟨new₁, e₁, p₁⟩ := h₁
  obtain ⟨new₂, e₂, p₂⟩ := h₂
  refine ⟨new₁ ++ new₂, by rw [e₂, e₁, List.append_assoc], fun e he => ?_⟩
  rcases List.mem_append.1 he with he | he
  exacts [p₁ e he, p₂ e he]

lemma HandsOver.mono (hPQ : ∀ e, P e → Q e) (h : st₁.HandsOver P st₂) : st₁.HandsOver Q st₂ :=
  let ⟨new, e, p⟩ := h
  ⟨new, e, fun x hx => hPQ x (p x hx)⟩

end CaptureState

/-! ## What a capture does to the file system -/

section

variable {σ : Type} (enqueueEvent : σ → TelemetryEvent → σ × Except EnqueueError Unit)
  (ctx : TelemetryContext) (handlerName : String) {eventDir : String} (logger : EventLogger eventDir)

/-- Handing over the events of a file leaves the file system as it is. -/
lemma enqueueLoop_fs (t : Nat) (events : List Json) :
    ∀ (st : CaptureState σ) (count : Nat) (dropped : List InvalidExtensionEventError),
      (enqueueLoop enqueueEvent ctx handlerName st count t dropped events).1.fs = st.fs := by
  induction events with
  | nil => intro st count dropped; rfl
  | cons event events ih =>
    intro st count dropped
    have hone : (enqueueOne enqueueEvent ctx handlerName st count t dropped event).1.fs = st.fs := by
      unfold enqueueOne
      split
      · rfl
      · rfl
      · split <;> rfl
    unfold enqueueLoop
    rcases h : enqueueOne enqueueEvent ctx handlerName st count t dropped event with ⟨st₁, d₁, r₁⟩
    rw [h] at hone
    rcases r₁ with e | c
    · exact hone
    · dsimp only
      split
      · exact hone
      · rw [ih]; exact hone

/-- So does `_enqueue_events_and_get_count`. -/
lemma enqueueEventsAndGetCount_fs (st : CaptureState σ) (f : EventFile) (count : Nat)
    (dropped : List InvalidExtensionEventError) :
    (enqueueEventsAndGetCount enqueueEvent ctx handlerName st f count dropped).1.fs = st.fs := by
  unfold enqueueEventsAndGetCount
  split
  · rfl
  · exact enqueueLoop_fs enqueueEvent ctx handlerName _ _ st count dropped

/-- The `try` block of the loop over files changes the file system by saves of the event logger
only. -/
lemma captureFileBody_reaches (st : CaptureState σ) (dir name : String) (count : Nat)
    (dropped : List InvalidExtensionEventError) :
    logger.Reaches (fun _ => False) st.fs
      (captureFileBody enqueueEvent ctx handlerName logger st dir name count dropped).1.fs := by
  unfold captureFileBody
  split
  · exact .save _ _
  · split
    · exact .save _ _
    · rename_i f _ _
      have hfs := enqueueEventsAndGetCount_fs enqueueEvent ctx handlerName st f count dropped
      rcases he : enqueueEventsAndGetCount enqueueEvent ctx handlerName st f count dropped with
        ⟨st₁, d₁, (_ | _) | c⟩ <;> rw [he] at hfs <;> dsimp only at hfs ⊢ <;> rw [← hfs]
      · exact .refl _
      · exact .save _ _
      · split
        · exact .save _ _
        · exact .refl _

/-- The body of the loop over files takes away at most its own file, besides the saves of the
event logger. -/
lemma captureFile_reaches (st : CaptureState σ) (dir name : String) (count : Nat)
    (dropped : List InvalidExtensionEventError) :
    logger.Reaches (· = dir) st.fs
      (captureFile enqueueEvent ctx handlerName logger st dir name count dropped).1.fs := by
  have hbody : logger.Reaches (· = dir) st.fs
      (captureFileBody enqueueEvent ctx handlerName logger st dir name count dropped).1.fs :=
    (captureFileBody_reaches enqueueEvent ctx handlerName logger st dir name count dropped).mono
      fun _ h => h.elim
  unfold captureFile
  dsimp only
  split
  · rename_i fs' hrm
    exact hbody.trans (.remove rfl hrm)
  · exact hbody

/-- The loop over files takes away files of its directory only, besides the saves of the event
logger. -/
lemma captureLoop_reaches (dir : String) (names : List String) :
    ∀ {st st' : CaptureState σ} {count c : Nat} {dropped dropped' : List InvalidExtensionEventError}
      {raised : Option CaptureError},
      captureLoop enqueueEvent ctx handlerName logger st dir count dropped names =
        (st', c, dropped', raised) →
      logger.Reaches (· = dir) st.fs st'.fs := by
  induction names with
  | nil => intro st st' count c dropped dropped' raised h; cases h; exact .refl _
  | cons name names ih =>
    intro st st' count c dropped dropped' raised h
    have hfile := captureFile_reaches enqueueEvent ctx handlerName logger st dir name count dropped
    unfold captureLoop at h
    rcases hf : captureFile enqueueEvent ctx handlerName logger st dir name count dropped with
      ⟨st₁, c₁, d₁, r₁⟩
    rw [hf] at hfile h
    rcases r₁ with e | fl
    · cases h; exact hfile
    · cases fl
      · exact hfile.trans (ih h)
      · cases h; exact hfile

/-- The outer `finally` changes the file system by a save of the event logger at most. -/
lemma logDroppedEvents_reaches (Touched : String → Prop) (st : CaptureState σ)
    (dropped : List InvalidExtensionEventError) :
    logger.Reaches Touched st.fs (logDroppedEvents handlerName logger st dropped).fs := by
  unfold logDroppedEvents
  split
  · exact .refl _
  · exact .save _ _

/-- `_capture_extension_events` takes away files of its directory only, besides the saves of the
event logger. -/
lemma captureExtensionEvents_reaches (u : UnicodeData) (fs : FileSystem) (handler : σ)
    (dir : String) :
    logger.Reaches (· = dir) fs
      (captureExtensionEvents enqueueEvent ctx handlerName logger u fs handler dir).1.fs := by
  cases hl : fs.listdir dir with
  | error e => simp only [captureExtensionEvents, hl]; exact .refl _
  | ok names =>
    rcases hloop : captureLoop enqueueEvent ctx handlerName logger ⟨fs, handler, []⟩ dir 0 []
        (sortReverse (names.filter fun n =>
          ((extensionEventFileNameRegex u).pyMatch true n).isSome)) with ⟨st', c, dropped, raised⟩
    rw [captureExtensionEvents_of_loop enqueueEvent ctx handlerName logger hl hloop]
    exact (captureLoop_reaches enqueueEvent ctx handlerName logger dir _ hloop).trans
      (logDroppedEvents_reaches handlerName logger _ st' dropped)

/-! ## What a capture hands over -/

end

/-! ## Emptying the events directories, when every file can be removed -/

/-- Removing the residue files `names` of `dir` takes away files of `dir` only. -/
lemma removeResidue_shrinksIn (dir : String) (names : List String) :
    ∀ fs : FileSystem, fs.ShrinksIn dir (removeResidue fs dir names) := by
  induction names with
  | nil => exact fun fs => FileSystem.ShrinksIn.refl dir fs
  | cons name names ih =>
    intro fs
    unfold removeResidue
    split
    · rename_i fs' hrm
      exact (FileSystem.shrinksIn_of_remove hrm).trans (ih fs')
    · exact ih fs

/-- When the files of `dir` can be removed, removing the residue files `names` leaves the files
of `dir` with other names. -/
lemma removeResidue_files? {dir : String} (names : List String) :
    ∀ (fs : FileSystem) (files : List (String × EventFile)), fs.files? dir = some files →
      (∀ f ∈ files, f.2.removable = true) →
      (removeResidue fs dir names).files? dir = some (files.filter fun f => f.1 ∉ names) := by
  induction names with
  | nil => intro fs files h _; simpa using h
  | cons name names ih =>
    intro fs files h hr
    have hfilter : (fs.erase dir name).files? dir = some (files.filter (·.1 ≠ name)) := by
      simp [FileSystem.files?_erase, h]
    have hrest : (files.filter (·.1 ≠ name)).filter (fun f => f.1 ∉ names) =
        files.filter fun f => f.1 ∉ name :: names := by
      rw [List.filter_filter]
      congr 1
      funext f
      simp [Bool.and_comm]
    unfold removeResidue
    split
    · rename_i fs' hrm
      rw [FileSystem.eq_erase_of_remove hrm, ih _ _ hfilter fun f hf => hr f (List.mem_filter.1 hf).1, hrest]
    · rename_i e hrm
      have hnone : fs.file? dir name = none := by
        cases hg : fs.file? dir name with
        | none => rfl
        | some g =>
          rw [FileSystem.remove_of_file? hg (FileSystem.removable_of_file? h hr hg)] at hrm
          cases hrm
      have hsame : files.filter (·.1 ≠ name) = files := List.filter_eq_self.2 fun f hf => by
        simpa using (FileSystem.file?_eq_none_iff h).1 hnone f hf
      rw [ih fs files h hr, ← hrest, hsame]

/-- The loop over the directories of `_ensure_all_events_directories_empty` takes away files of
the listed directories only. -/
lemma ensureLoop_frame (dirs : List (String × String)) :
    ∀ fs : FileSystem, fs.Shrinks (ensureLoop fs dirs) ∧
      ∀ d, d ∉ dirs.map (·.2) → (ensureLoop fs dirs).files? d = fs.files? d := by
  induction dirs with
  | nil => exact fun fs => ⟨FileSystem.Shrinks.refl fs, fun _ _ => rfl⟩
  | cons hd dirs ih =>
    intro fs
    obtain ⟨handlerName, dir⟩ := hd
    unfold ensureLoop
    split
    · exact ⟨FileSystem.Shrinks.refl fs, fun _ _ => rfl⟩
    · rename_i residue _
      have h₁ := removeResidue_shrinksIn dir (residue.map (·.1)) fs
      obtain ⟨h₂, hframe⟩ := ih (removeResidue fs dir (residue.map (·.1)))
      refine ⟨h₁.shrinks.trans h₂, fun d hd => ?_⟩
      simp only [List.map_cons, List.mem_cons, not_or] at hd
      rw [hframe d hd.2, h₁.frame d hd.1]

/-- When every listed directory exists and every file can be removed, the loop over the
directories leaves each of them empty. -/
lemma ensureLoop_empties (dirs : List (String × String)) :
    ∀ fs : FileSystem, (∀ hd ∈ dirs, (fs.files? hd.2).isSome) → fs.AllRemovable →
      ∀ hd ∈ dirs, (ensureLoop fs dirs).listdir hd.2 = .ok [] := by
  induction dirs with
  | nil => intro fs _ _ hd hmem; cases hmem
  | cons hd₀ dirs ih =>
    intro fs hex hr hd hmem
    obtain ⟨handlerName, dir⟩ := hd₀
    obtain ⟨residue, hres⟩ := Option.isSome_iff_exists.1 (hex _ (List.mem_cons_self _ _))
    have h₁ := removeResidue_shrinksIn dir (residue.map (·.1)) fs
    have hempty : (removeResidue fs dir (residue.map (·.1))).listdir dir = .ok [] := by
      have := removeResidue_files? (residue.map (·.1)) fs residue hres (hr dir residue hres)
      simpa [FileSystem.listdir, this] using fun a b hab => ⟨b, hab⟩
    unfold ensureLoop
    rw [hres]
    dsimp only
    rcases List.mem_cons.1 hmem with rfl | hmem
    · exact ((ensureLoop_frame dirs _).1).listdir_nil hempty
    · exact ih _ (fun hd' hmem' => h₁.shrinks.files?_isSome (hex hd' (List.mem_cons_of_mem _ hmem')))
        (h₁.shrinks.allRemovable hr) hd hmem

/-- Removing the residue files of `dir` is a run of removals from `dir`. -/
lemma removeResidue_reaches {eventDir : String} (logger : EventLogger eventDir) (dir : String)
    (names : List String) : ∀ fs : FileSystem, logger.Reaches (· = dir) fs (removeResidue fs dir names) := by
  induction names with
  | nil => exact fun fs => .refl fs
  | cons name names ih =>
    intro fs
    unfold removeResidue
    split
    · rename_i fs' hrm
      exact .trans (.remove rfl hrm) (ih fs')
    · exact ih fs

/-- `_ensure_all_events_directories_empty` is a run of removals from the listed directories. -/
lemma ensureAllEventsDirectoriesEmpty_reaches {eventDir : String} (logger : EventLogger eventDir)
    (fs : FileSystem) (dirs : List (String × String)) :
    logger.Reaches (· ∈ dirs.map (·.2)) fs (ensureAllEventsDirectoriesEmpty fs dirs) := by
  have hloop : ∀ fs : FileSystem, logger.Reaches (· ∈ dirs.map (·.2)) fs (ensureLoop fs dirs) := by
    induction dirs with
    | nil => exact fun fs => .refl fs
    | cons hd dirs ih =>
      intro fs
      obtain ⟨handlerName, dir⟩ := hd
      unfold ensureLoop
      split
      · exact .refl fs
      · exact ((removeResidue_reaches logger dir _ fs).mono fun d hd => by simp [hd]).trans
          ((ih _).mono fun d hd => by simp [hd])
  unfold ensureAllEventsDirectoriesEmpty
  split
  · exact .refl fs
  · exact hloop fs

/-! ## One period -/

/-- `_get_extension_events_dir_with_handler_name(extension_log_dir)`, from what
`os.listdir(extension_log_dir)` gives: the handler directories (`isHandlerDir`) whose events
directory `eventsDir` exists, with the handler name. -/
def getExtensionEventsDirWithHandlerName (fs : FileSystem) (isHandlerDir : String → Bool)
    (eventsDir : String → String) (extLogDirEntries : Except PyError (List String)) :
    Except PyError (List (String × String)) := do
  let entries ← extLogDirEntries
  pure (entries.filterMap fun extHandlerName =>
    if isHandlerDir extHandlerName && (fs.files? (eventsDir extHandlerName)).isSome then
      some (extHandlerName, eventsDir extHandlerName)
    else none)

/-- The handler directories a period finds: none when the search raised. -/
def foundDirs (fs : FileSystem) (isHandlerDir : String → Bool) (eventsDir : String → String)
    (extLogDirEntries : Except PyError (List String)) : List (String × String) :=
  ((getExtensionEventsDirWithHandlerName fs isHandlerDir eventsDir extLogDirEntries).toOption).getD []

/-- Every directory the search finds is the events directory of its handler, and exists. -/
lemma mem_foundDirs {fs : FileSystem} {isHandlerDir : String → Bool} {eventsDir : String → String}
    {extLogDirEntries : Except PyError (List String)} {hd : String × String}
    (hmem : hd ∈ foundDirs fs isHandlerDir eventsDir extLogDirEntries) :
    hd.2 = eventsDir hd.1 ∧ (fs.files? hd.2).isSome := by
  cases extLogDirEntries with
  | error e => cases hmem
  | ok entries =>
    simp only [foundDirs, getExtensionEventsDirWithHandlerName, ok_bind, pure_eq_ok, Except.toOption,
      Option.getD_some, List.mem_filterMap] at hmem
    obtain ⟨n, -, hn⟩ := hmem
    split at hn
    · rename_i hcond
      cases hn
      exact ⟨rfl, (Bool.and_eq_true _ _ ▸ hcond).2⟩
    · cases hn

section

variable {σ : Type} (enqueueEvent : σ → TelemetryEvent → σ × Except EnqueueError Unit)
  (ctx : TelemetryContext) {eventDir : String} (logger : EventLogger eventDir)

/-- The loop over the handler directories in the `try` block of `_operation`: the events each
capture hands over are added to the ghost list, and an exception ends the loop. -/
def processLoop (u : UnicodeData) (st : CaptureState σ) :
    List (String × String) → CaptureState σ × Option CaptureError
  | [] => (st, none)
  | (handlerName, handlerEventDirPath) :: rest =>
    let run := captureExtensionEvents enqueueEvent ctx handlerName logger u st.fs st.handler
      handlerEventDirPath
    let st' : CaptureState σ := ⟨run.1.fs, run.1.handler, st.enqueued ++ run.1.enqueued⟩
    match run.2.2 with
    | none => processLoop u st' rest
    | some e => (st', some e)

/-- The `except` clauses and the `finally` clause of `_operation`, once the `try` block has found
the handler directories `dirs` and ended with `raised`: an exception other than
`ServiceStoppedError` is saved with `add_event`, and the directories are emptied unless
`ServiceStoppedError` was raised. -/
def operationFinally (dirs : List (String × String)) (st : CaptureState σ) :
    Option CaptureError → CaptureState σ
  | some .serviceStopped => st
  | some (.builtin e) =>
    let st := st.logEvent logger (.unknownCollectError e)
    { st with fs := ensureAllEventsDirectoriesEmpty st.fs dirs }
  | none => { st with fs := ensureAllEventsDirectoriesEmpty st.fs dirs }

/-- `_ProcessExtensionEvents._operation()`; `stopped` is the send handler's `stopped()`. When the
search raises, no directory has been found; when it finds none, the function returns, and the
`finally` clause has nothing to empty. -/
def operation (stopped : σ → Bool) (u : UnicodeData) (isHandlerDir : String → Bool)
    (eventsDir : String → String) (extLogDirEntries : Except PyError (List String))
    (st : CaptureState σ) : CaptureState σ :=
  if stopped st.handler then st
  else
    match getExtensionEventsDirWithHandlerName st.fs isHandlerDir eventsDir extLogDirEntries with
    | .error e => operationFinally logger [] st (some (.builtin e))
    | .ok extensionHandlerWithEventDirs =>
      if extensionHandlerWithEventDirs.isEmpty then st
      else
        let run := processLoop enqueueEvent ctx logger u st extensionHandlerWithEventDirs
        operationFinally logger extensionHandlerWithEventDirs run.1 run.2

@[simp] lemma operationFinally_enqueued (dirs : List (String × String)) (st : CaptureState σ)
    (raised : Option CaptureError) : (operationFinally logger dirs st raised).enqueued = st.enqueued := by
  rcases raised with _ | _ | _ <;> rfl

/-- The clauses after the `try` block take away files of the directories found only, besides
the save of the event logger. -/
lemma operationFinally_reaches (dirs : List (String × String)) (st : CaptureState σ)
    (raised : Option CaptureError) :
    logger.Reaches (· ∈ dirs.map (·.2)) st.fs (operationFinally logger dirs st raised).fs := by
  rcases raised with _ | _ | e
  · exact ensureAllEventsDirectoriesEmpty_reaches logger st.fs dirs
  · exact .refl _
  · exact (EventLogger.Reaches.save _ st.fs).trans
      (ensureAllEventsDirectoriesEmpty_reaches logger _ dirs)

/-- Unless `ServiceStoppedError` was raised, the clauses after the `try` block leave every
directory found empty, when they all exist and every file can be removed. -/
lemma operationFinally_empties {dirs : List (String × String)} {st : CaptureState σ}
    {raised : Option CaptureError} (hne : dirs ≠ []) (hraised : raised ≠ some .serviceStopped)
    (hex : ∀ hd ∈ dirs, (st.fs.files? hd.2).isSome) (hr : st.fs.AllRemovable) :
    ∀ hd ∈ dirs, (operationFinally logger dirs st raised).fs.listdir hd.2 = .ok [] := by
  have hdirs : dirs.isEmpty = false := by simpa using hne
  rcases raised with _ | _ | e
  · simp only [operationFinally, ensureAllEventsDirectoriesEmpty, hdirs]
    exact ensureLoop_empties dirs st.fs hex hr
  · exact absurd rfl hraised
  · simp only [operationFinally, ensureAllEventsDirectoriesEmpty, hdirs, CaptureState.logEvent_fs]
    exact ensureLoop_empties dirs _
      (fun hd hmem => (logger.evolves (fun _ => False) _ st.fs).shrinks.dirs _ (hex hd hmem))
      (logger.allRemovable _ hr)

/-- A period does nothing when the send handler is stopped; otherwise it is the loop over the
directories it found, followed by the clauses after the `try` block, with the exception of the
search, if it raised. -/
lemma operation_eq (stopped : σ → Bool) (u : UnicodeData) (isHandlerDir : String → Bool)
    (eventsDir : String → String) (extLogDirEntries : Except PyError (List String))
    (st : CaptureState σ) :
    operation enqueueEvent ctx logger stopped u isHandlerDir eventsDir extLogDirEntries st =
      let dirs := foundDirs st.fs isHandlerDir eventsDir extLogDirEntries
      let run := processLoop enqueueEvent ctx logger u st dirs
      if stopped st.handler = true then st
      else operationFinally logger dirs run.1
        (match extLogDirEntries with
          | .error e => some (.builtin e)
          | .ok _ => run.2) := by
  unfold operation foundDirs
  cases stopped st.handler
  · cases extLogDirEntries with
    | error e => rfl
    | ok entries =>
      simp only [getExtensionEventsDirWithHandlerName, ok_bind, pure_eq_ok, Except.toOption,
        Option.getD_some, Bool.false_eq_true, if_false]
      split
      · rename_i hempty
        rw [List.isEmpty_iff.1 hempty]
        rfl
      · rfl
  · rfl

/-- The loop over handler directories hands over, for a prefix of the directories, one batch per
directory of at most the maximum each, and takes away files of those directories only, besides
the saves of the event logger. -/
lemma processLoop_spec (u : UnicodeData) (dirs : List (String × String)) :
    ∀ st : CaptureState σ, ∃ news : List (String × List TelemetryEvent),
      (processLoop enqueueEvent ctx logger u st dirs).1.enqueued =
        st.enqueued ++ (news.map (·.2)).flatten ∧
      news.map (·.1) <+: dirs.map (·.1) ∧
      (∀ b ∈ news, b.2.length ≤ maxNumberOfEventsPerExtensionPerPeriod) ∧
      logger.Reaches (· ∈ dirs.map (·.2)) st.fs (processLoop enqueueEvent ctx logger u st dirs).1.fs := by
  induction dirs with
  | nil => exact fun st => ⟨[], by simp [processLoop], by simp, by simp, .refl _⟩
  | cons hd dirs ih =>
    intro st
    obtain ⟨handlerName, dir⟩ := hd
    have hlen := (captureExtensionEvents_spec enqueueEvent ctx handlerName logger u st.fs
      st.handler dir).1
    have hfs : logger.Reaches (· ∈ ((handlerName, dir) :: dirs).map (·.2)) st.fs
        (captureExtensionEvents enqueueEvent ctx handlerName logger u st.fs st.handler dir).1.fs :=
      (captureExtensionEvents_reaches enqueueEvent ctx handlerName logger u st.fs st.handler
        dir).mono fun d hd => by simp [hd]
    set run := captureExtensionEvents enqueueEvent ctx handlerName logger u st.fs st.handler dir
    unfold processLoop
    dsimp only
    split
    · obtain ⟨news, henq, hpre, hbound, hreach⟩ :=
        ih ⟨run.1.fs, run.1.handler, st.enqueued ++ run.1.enqueued⟩
      refine ⟨(handlerName, run.1.enqueued) :: news, by simp [henq], by simpa using hpre, ?_,
        hfs.trans (hreach.mono fun d hd => by simp [hd])⟩
      intro b hb
      rcases List.mem_cons.1 hb with rfl | hb
      · exact hlen
      · exact hbound b hb
    · exact ⟨[(handlerName, run.1.enqueued)], by simp, by simp, by simpa using hlen, hfs⟩

/-- What one period hands over is, in the order of the handler directories found, one batch of
at most `_MAX_NUMBER_OF_EVENTS_PER_EXTENSION_PER_PERIOD` events for each directory captured. -/
theorem operation_events_per_handler (stopped : σ → Bool) (u : UnicodeData)
    (isHandlerDir : String → Bool) (eventsDir : String → String)
    (extLogDirEntries : Except PyError (List String)) (st : CaptureState σ) :
    ∃ news : List (String × List TelemetryEvent),
      (operation enqueueEvent ctx logger stopped u isHandlerDir eventsDir extLogDirEntries st).enqueued =
        st.enqueued ++ (news.map (·.2)).flatten ∧
      news.map (·.1) <+: (foundDirs st.fs isHandlerDir eventsDir extLogDirEntries).map (·.1) ∧
      ∀ b ∈ news, b.2.length ≤ maxNumberOfEventsPerExtensionPerPeriod := by
  rw [operation_eq]
  dsimp only
  split
  · exact ⟨[], by simp, List.nil_prefix, by simp⟩
  · obtain ⟨news, henq, hpre, hbound, -⟩ := processLoop_spec enqueueEvent ctx logger u
      (foundDirs st.fs isHandlerDir eventsDir extLogDirEntries) st
    exact ⟨news, by rw [operationFinally_enqueued, henq], hpre, hbound⟩

/-- A period that finds handler directories and in which the loop over them does not meet
`ServiceStoppedError` leaves every directory it found empty, when the send handler is running
and every file can be removed, whatever the event logger saves. -/
theorem operation_empties_events_dirs (stopped : σ → Bool) (u : UnicodeData)
    (isHandlerDir : String → Bool) (eventsDir : String → String)
    (extLogDirEntries : Except PyError (List String)) (st : CaptureState σ)
    (hrunning : stopped st.handler = false) (hremovable : st.fs.AllRemovable)
    (hrun : (processLoop enqueueEvent ctx logger u st
      (foundDirs st.fs isHandlerDir eventsDir extLogDirEntries)).2 ≠ some .serviceStopped) :
    ∀ hd ∈ foundDirs st.fs isHandlerDir eventsDir extLogDirEntries,
      (operation enqueueEvent ctx logger stopped u isHandlerDir eventsDir extLogDirEntries st).fs.listdir
        hd.2 = .ok [] := by
  intro hd hmem
  obtain ⟨-, -, -, -, hreach⟩ := processLoop_spec enqueueEvent ctx logger u
    (foundDirs st.fs isHandlerDir eventsDir extLogDirEntries) st
  rw [operation_eq]
  dsimp only
  rw [if_neg (by simp [hrunning])]
  cases extLogDirEntries with
  | error e => cases hmem
  | ok entries =>
    exact operationFinally_empties logger (List.ne_nil_of_mem hmem) hrun
      (fun _ hmem' => hreach.evolves.shrinks.dirs _ (mem_foundDirs hmem').2)
      (hreach.allRemovable hremovable) hd hmem

/-- A period with one handler whose events directory holds one empty event file. -/
theorem operation_empties_events_dirs_one_file :
    let fs : FileSystem := ⟨[("H/events", [("1.json", ⟨0, 0, fun _ => .ok (.arr []), true⟩)])]⟩
    let ctx : TelemetryContext := ⟨0, "", "", "", "", "", "", "", "", "", fun _ => []⟩
    let logger := EventLogger.unwritable "/var/lib/waagent/events"
    let u : UnicodeData := ⟨fun _ => false, fun _ => false⟩
    ((fun _ => false : Unit → Bool) () = false ∧ fs.AllRemovable ∧
      (processLoop (fun h _ => (h, .ok ())) ctx logger u ⟨fs, (), []⟩
        (foundDirs fs (fun _ => true) (· ++ "/events") (.ok ["H"]))).2 ≠ some .serviceStopped) ∧
    ∀ hd ∈ foundDirs fs (fun _ => true) (· ++ "/events") (.ok ["H"]),
      (operation (fun h _ => (h, .ok ())) ctx logger (fun _ => false) u (fun _ => true)
        (· ++ "/events") (.ok ["H"]) ⟨fs, (), []⟩).fs.listdir hd.2 = .ok [] := by
  intro fs ctx logger u
  exact ⟨⟨rfl, FileSystem.allRemovable_of_dirs (by decide), by decide⟩,
    operation_empties_events_dirs (fun h _ => (h, .ok ())) ctx logger (fun _ => false) u
      (fun _ => true) (· ++ "/events") (.ok ["H"]) ⟨fs, (), []⟩ rfl
      (FileSystem.allRemovable_of_dirs (by decide)) (by decide)⟩

/-- A period changes the file system by saves of the event logger and removals from the events
directories it found only; it hands over events and takes none back. -/
lemma operation_reaches (stopped : σ → Bool) (u : UnicodeData)
    (isHandlerDir : String → Bool) (eventsDir : String → String)
    (extLogDirEntries : Except PyError (List String)) (st : CaptureState σ) :
    let st' := operation enqueueEvent ctx logger stopped u isHandlerDir eventsDir extLogDirEntries st
    logger.Reaches (· ∈ (foundDirs st.fs isHandlerDir eventsDir extLogDirEntries).map (·.2)) st.fs st'.fs ∧
      ∃ new, st'.enqueued = st.enqueued ++ new := by
  obtain ⟨news, henq, -, -, hreach⟩ := processLoop_spec enqueueEvent ctx logger u
    (foundDirs st.fs isHandlerDir eventsDir extLogDirEntries) st
  rw [operation_eq]
  dsimp only
  split
  · exact ⟨.refl _, [], by simp⟩
  · exact ⟨hreach.trans (operationFinally_reaches logger _ _ _), _, by rw [operationFinally_enqueued, henq]⟩

/-- A period keeps every directory and changes only the events directories it found, which only
lose files, and the agent's events directory, into which the event logger saves
(`FileSystem.Evolves`). -/
theorem operation_frame (stopped : σ → Bool) (u : UnicodeData)
    (isHandlerDir : String → Bool) (eventsDir : String → String)
    (extLogDirEntries : Except PyError (List String)) (st : CaptureState σ) :
    st.fs.Evolves eventDir (· ∈ (foundDirs st.fs isHandlerDir eventsDir extLogDirEntries).map (·.2))
      (operation enqueueEvent ctx logger stopped u isHandlerDir eventsDir extLogDirEntries st).fs :=
  (operation_reaches enqueueEvent ctx logger stopped u isHandlerDir eventsDir extLogDirEntries st).1.evolves

/-- In that period `2.json` goes, with the event that was being handed over, and `1.json` stays. -/
example :
    let event : Json := .obj [("Message", .str "m"), ("EventLevel", .str ""),
      ("EventPid", .str ""), ("EventTid", .str ""), ("OperationId", .str ""),
      ("TaskName", .str ""), ("Timestamp", .str ""), ("Version", .str "1.0")]
    (operation (fun (h : Unit) _ => (h, .error .serviceStopped))
      ⟨0, "", "", "", "", "", "", "", "", "", fun _ => []⟩
      (EventLogger.unwritable "/var/lib/waagent/events") (fun _ => false)
      ⟨fun _ => false, fun _ => false⟩ (fun _ => true) (· ++ "/events") (.ok ["H"])
      ⟨⟨[("H/events", [("1.json", ⟨0, 0, fun _ => .ok (.arr []), true⟩),
        ("2.json", ⟨0, 0, fun _ => .ok (.arr [event]), true⟩)])]⟩, (), []⟩).fs.listdir "H/events" =
      .ok ["1.json"] := by
  decide

end

end Telemetry

end AzureLinuxAgent
