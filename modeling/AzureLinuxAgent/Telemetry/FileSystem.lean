import AzureLinuxAgent.Telemetry.Event

/-!
# The file system and the event logger

The collector lists the events directories and removes their files with `os.remove`; the event
logger of `azurelinuxagent.common.event`, which `add_event` and `add_log_event` call, writes
event files into the agent's events directory. This module models both.

The file system is a list of directories, each with its files in the order `os.listdir` gives
them. Removing files keeps every directory and each with part of its files
(`FileSystem.Shrinks`). The event logger is defined outside the sources, so it is an input of
the model (`EventLogger`): the file system after each call the collector makes to it
(`LogCall`), with what `save_event` does as its fields. It writes into its own directory only,
never removes that directory, and writes files the agent can remove. A run of the collector
with the logger keeps every directory, and a directory other than the logger's only loses
files, and only when the run reads it (`FileSystem.Evolves`).
-/

namespace AzureLinuxAgent

namespace Telemetry

open Python

/-- A file of an events directory: its size, its modification time, what each attempt to open,
decode and parse it gives, and whether `os.remove` can delete it. -/
structure EventFile where
  size : Nat
  mtime : Nat
  read : Nat → Except PyError Json
  removable : Bool

/-- The directories that exist, each with its files by name in `os.listdir` order. -/
structure FileSystem where
  dirs : List (String × List (String × EventFile))

namespace FileSystem

/-- The files of the directory `dir`, if it exists. -/
def files? (fs : FileSystem) (dir : String) : Option (List (String × EventFile)) :=
  (fs.dirs.find? (·.1 = dir)).map (·.2)

/-- `os.listdir(dir)`. -/
def listdir (fs : FileSystem) (dir : String) : Except PyError (List String) :=
  match fs.files? dir with
  | some files => .ok (files.map (·.1))
  | none => .error .fileNotFoundError

/-- The file `name` of the directory `dir`, if it is there. -/
def file? (fs : FileSystem) (dir name : String) : Option EventFile :=
  ((fs.files? dir).bind fun files => files.find? (·.1 = name)).map (·.2)

/-- The file system without the file `name` of the directory `dir`. -/
def erase (fs : FileSystem) (dir name : String) : FileSystem :=
  ⟨fs.dirs.map fun d => if d.1 = dir then (d.1, d.2.filter (·.1 ≠ name)) else d⟩

/-- `os.remove(os.path.join(dir, name))`. -/
def remove (fs : FileSystem) (dir name : String) : Except PyError FileSystem :=
  match fs.file? dir name with
  | none => .error .fileNotFoundError
  | some f => if f.removable then .ok (fs.erase dir name) else .error .permissionError

end FileSystem

/-! ## The file system only loses files -/

namespace FileSystem

/-- Removing a file from `dir` changes the files of `dir` only. -/
lemma files?_erase (fs : FileSystem) (dir name d : String) :
    (fs.erase dir name).files? d =
      (fs.files? d).map fun files => if d = dir then files.filter (·.1 ≠ name) else files := by
  have hfst : ((fun x => decide (x.1 = d)) ∘ fun e : String × List (String × EventFile) =>
      if e.1 = dir then (e.1, e.2.filter (·.1 ≠ name)) else e) = fun x => decide (x.1 = d) := by
    funext e
    simp only [Function.comp]
    split <;> rfl
  simp only [files?, erase, List.find?_map, hfst]
  cases hx : fs.dirs.find? (·.1 = d) with
  | none => rfl
  | some e =>
    have he : e.1 = d := by simpa using List.find?_some hx
    simp only [Option.map_some', he]
    split <;> rfl

/-- Removing a file from `dir` leaves the other directories as they are. -/
lemma files?_erase_of_ne (fs : FileSystem) {dir d : String} (name : String) (h : d ≠ dir) :
    (fs.erase dir name).files? d = fs.files? d := by
  rw [files?_erase]
  simp [h]

/-- `fs'` is `fs` with some files taken away: the same directories, each with part of its
files. -/
structure Shrinks (fs fs' : FileSystem) : Prop where
  names : fs'.dirs.map (·.1) = fs.dirs.map (·.1)
  files : ∀ d files', fs'.files? d = some files' → ∃ files, fs.files? d = some files ∧ files' ⊆ files

lemma Shrinks.refl (fs : FileSystem) : fs.Shrinks fs :=
  ⟨rfl, fun _ files' h => ⟨files', h, List.Subset.refl _⟩⟩

lemma Shrinks.trans {fs₁ fs₂ fs₃ : FileSystem} (h₁ : fs₁.Shrinks fs₂) (h₂ : fs₂.Shrinks fs₃) :
    fs₁.Shrinks fs₃ :=
  ⟨h₂.names.trans h₁.names, fun d files₃ h => by
    obtain ⟨files₂, h₂', hsub₂⟩ := h₂.files d files₃ h
    obtain ⟨files₁, h₁', hsub₁⟩ := h₁.files d files₂ h₂'
    exact ⟨files₁, h₁', hsub₂.trans hsub₁⟩⟩

/-- The directory `d` exists exactly when it is one of the names of the directories. -/
lemma files?_isSome_iff (fs : FileSystem) (d : String) :
    (fs.files? d).isSome ↔ d ∈ fs.dirs.map (·.1) := by
  simp [files?, List.find?_isSome]

lemma shrinks_erase (fs : FileSystem) (dir name : String) : fs.Shrinks (fs.erase dir name) := by
  refine ⟨by simp only [erase, List.map_map]; congr 1; funext e; simp only [Function.comp]; split <;> rfl, ?_⟩
  intro d files' h
  rw [files?_erase] at h
  obtain ⟨files, hfiles, rfl⟩ := Option.map_eq_some'.1 h
  refine ⟨files, hfiles, ?_⟩
  split
  · exact fun x hx => (List.mem_filter.1 hx).1
  · exact List.Subset.refl _

/-- The file `name` of a directory that exists. -/
lemma file?_eq {fs : FileSystem} {dir : String} {files : List (String × EventFile)}
    (h : fs.files? dir = some files) (name : String) :
    fs.file? dir name = (files.find? (·.1 = name)).map (·.2) := by
  simp [file?, h]

/-- A directory that exists has no file `name` exactly when none of its files has that name. -/
lemma file?_eq_none_iff {fs : FileSystem} {dir name : String} {files : List (String × EventFile)}
    (h : fs.files? dir = some files) : fs.file? dir name = none ↔ ∀ f ∈ files, f.1 ≠ name := by
  simp [file?_eq h, List.find?_eq_none]

/-- A file of a directory whose files can all be removed can be removed. -/
lemma removable_of_file? {fs : FileSystem} {dir name : String} {files : List (String × EventFile)}
    {g : EventFile} (h : fs.files? dir = some files) (hr : ∀ f ∈ files, f.2.removable = true)
    (hg : fs.file? dir name = some g) : g.removable = true := by
  rw [file?_eq h] at hg
  obtain ⟨p, hp, rfl⟩ := Option.map_eq_some'.1 hg
  exact hr p (List.mem_of_find?_eq_some hp)

/-- Removing a file that is there and can be removed erases it. -/
lemma remove_of_file? {fs : FileSystem} {dir name : String} {g : EventFile}
    (hg : fs.file? dir name = some g) (hr : g.removable = true) :
    fs.remove dir name = .ok (fs.erase dir name) := by
  simp [remove, hg, hr]

/-- A removal that succeeds erases the file. -/
lemma eq_erase_of_remove {fs fs' : FileSystem} {dir name : String}
    (h : fs.remove dir name = .ok fs') : fs' = fs.erase dir name := by
  unfold remove at h
  split at h
  · cases h
  · split at h
    · exact (Except.ok.inj h).symm
    · cases h

/-- A removal that succeeds takes a file away. -/
lemma shrinks_of_remove {fs fs' : FileSystem} {dir name : String} (h : fs.remove dir name = .ok fs') :
    fs.Shrinks fs' :=
  eq_erase_of_remove h ▸ shrinks_erase fs dir name

/-- A removal that succeeds leaves the other directories as they are. -/
lemma files?_of_remove {fs fs' : FileSystem} {dir name d : String} (h : fs.remove dir name = .ok fs')
    (hd : d ≠ dir) : fs'.files? d = fs.files? d := by
  rw [eq_erase_of_remove h]
  exact files?_erase_of_ne fs name hd

/-- Taking files away keeps every directory. -/
lemma Shrinks.files?_isSome {fs fs' : FileSystem} (h : fs.Shrinks fs') {d : String}
    (hd : (fs.files? d).isSome) : (fs'.files? d).isSome := by
  rw [files?_isSome_iff] at hd ⊢
  rwa [h.names]

/-- Every file of the file system can be removed. -/
def AllRemovable (fs : FileSystem) : Prop := ∀ d files, fs.files? d = some files → ∀ f ∈ files, f.2.removable = true

/-- A file system whose directories hold only files that can be removed. -/
lemma allRemovable_of_dirs {fs : FileSystem} (h : ∀ dd ∈ fs.dirs, ∀ f ∈ dd.2, f.2.removable = true) :
    fs.AllRemovable := fun d files hd f hf => by
  obtain ⟨dd, hdd, rfl⟩ := Option.map_eq_some'.1 hd
  exact h dd (List.mem_of_find?_eq_some hdd) f hf

/-- A directory that holds a file exists. -/
lemma exists_files?_of_file? {fs : FileSystem} {dir name : String} {g : EventFile}
    (hg : fs.file? dir name = some g) : ∃ files, fs.files? dir = some files := by
  cases h : fs.files? dir with
  | none => simp [file?, h] at hg
  | some files => exact ⟨files, rfl⟩

/-- When every file can be removed, removing a file that is there erases it. -/
lemma remove_of_allRemovable {fs : FileSystem} {dir name : String} {g : EventFile}
    (hr : fs.AllRemovable) (hg : fs.file? dir name = some g) :
    fs.remove dir name = .ok (fs.erase dir name) :=
  let ⟨files, hfiles⟩ := exists_files?_of_file? hg
  remove_of_file? hg (removable_of_file? hfiles (hr dir files hfiles) hg)

lemma Shrinks.allRemovable {fs fs' : FileSystem} (h : fs.Shrinks fs') (hr : fs.AllRemovable) :
    fs'.AllRemovable := fun d files' hd f hf => by
  obtain ⟨files, hfiles, hsub⟩ := h.files d files' hd
  exact hr d files hfiles f (hsub hf)

/-- An empty directory stays empty. -/
lemma Shrinks.listdir_nil {fs fs' : FileSystem} (h : fs.Shrinks fs') {d : String}
    (hd : fs.listdir d = .ok []) : fs'.listdir d = .ok [] := by
  unfold listdir at hd ⊢
  split at hd
  · rename_i files hfiles
    have hnil : files = [] := List.map_eq_nil_iff.1 (Except.ok.inj hd)
    split
    · rename_i files' hfiles'
      obtain ⟨_, h₀, hsub⟩ := h.files d files' hfiles'
      rw [hfiles, hnil] at h₀
      cases h₀
      rw [List.eq_nil_of_subset_nil hsub]
      rfl
    · rename_i hnone
      have hsome : (fs.files? d).isSome := by simp [hfiles]
      simpa [hnone] using h.files?_isSome hsome
  · cases hd

/-- Files taken away from a directory whose files all pass a test leave files that pass it. -/
lemma Shrinks.forall_files? {fs fs' : FileSystem} (h : fs.Shrinks fs') {d : String}
    {files : List (String × EventFile)} (hd : fs.files? d = some files)
    {P : String × EventFile → Prop} (hP : ∀ f ∈ files, P f) :
    ∃ files', fs'.files? d = some files' ∧ ∀ f ∈ files', P f := by
  obtain ⟨files', hfiles'⟩ := Option.isSome_iff_exists.1 (h.files?_isSome (by rw [hd]; rfl))
  obtain ⟨files₀, h₀, hsub⟩ := h.files d files' hfiles'
  rw [hd] at h₀
  cases h₀
  exact ⟨files', hfiles', fun f hf => hP f (hsub hf)⟩

/-- `fs'` is `fs` with some files of the directory `dir` taken away. -/
structure ShrinksIn (dir : String) (fs fs' : FileSystem) : Prop where
  shrinks : fs.Shrinks fs'
  frame : ∀ d, d ≠ dir → fs'.files? d = fs.files? d

lemma ShrinksIn.refl (dir : String) (fs : FileSystem) : fs.ShrinksIn dir fs :=
  ⟨Shrinks.refl fs, fun _ _ => rfl⟩

lemma ShrinksIn.trans {dir : String} {fs₁ fs₂ fs₃ : FileSystem} (h₁ : fs₁.ShrinksIn dir fs₂)
    (h₂ : fs₂.ShrinksIn dir fs₃) : fs₁.ShrinksIn dir fs₃ :=
  ⟨h₁.shrinks.trans h₂.shrinks, fun d hd => (h₂.frame d hd).trans (h₁.frame d hd)⟩

/-- A removal that succeeds takes a file away from its directory. -/
lemma shrinksIn_of_remove {fs fs' : FileSystem} {dir name : String} (h : fs.remove dir name = .ok fs') :
    fs.ShrinksIn dir fs' :=
  ⟨shrinks_of_remove h, fun _ hd => files?_of_remove h hd⟩

/-- A file of `d` in `fs'` was a file of `d` in `fs`, when `d` in `fs'` holds part of its files
in `fs`. -/
lemma mem_files_of_subset {fs fs' : FileSystem} {d : String}
    (h : ∀ files', fs'.files? d = some files' → ∃ files, fs.files? d = some files ∧ files' ⊆ files)
    {p : String × EventFile} (hp : p ∈ (fs'.files? d).getD []) : p ∈ (fs.files? d).getD [] := by
  cases hd : fs'.files? d with
  | none => simp [hd] at hp
  | some files' =>
    obtain ⟨files, hfiles, hsub⟩ := h files' hd
    rw [hd, Option.getD_some] at hp
    rw [hfiles, Option.getD_some]
    exact hsub hp

/-- A file that is still there after files were taken away was there before. -/
lemma Shrinks.mem_files {fs fs' : FileSystem} (h : fs.Shrinks fs') {d : String}
    {p : String × EventFile} (hp : p ∈ (fs'.files? d).getD []) : p ∈ (fs.files? d).getD [] :=
  mem_files_of_subset (h.files d) hp

/-- The file `file?` finds is one of the files of the directory. -/
lemma mem_files_of_file? {fs : FileSystem} {dir name : String} {f : EventFile}
    (h : fs.file? dir name = some f) : (name, f) ∈ (fs.files? dir).getD [] := by
  obtain ⟨files, hd⟩ := exists_files?_of_file? h
  rw [file?_eq hd] at h
  obtain ⟨p, hp, rfl⟩ := Option.map_eq_some'.1 h
  have hname : p.1 = name := by simpa using List.find?_some hp
  rw [hd, Option.getD_some, ← hname]
  exact List.mem_of_find?_eq_some hp

end FileSystem
/-! ## A run of the collector with the event logger -/

namespace FileSystem

variable {eventDir : String}

/-- `fs'` is `fs` after files were taken away and events were saved into `eventDir`: no
directory goes, and every directory other than `eventDir` keeps part of its files. -/
structure ShrinksExcept (eventDir : String) (fs fs' : FileSystem) : Prop where
  dirs : ∀ d, (fs.files? d).isSome → (fs'.files? d).isSome
  files : ∀ d, d ≠ eventDir → ∀ files', fs'.files? d = some files' →
    ∃ files, fs.files? d = some files ∧ files' ⊆ files

lemma ShrinksExcept.refl (fs : FileSystem) : fs.ShrinksExcept eventDir fs :=
  ⟨fun _ h => h, fun _ _ files' h => ⟨files', h, List.Subset.refl _⟩⟩

lemma ShrinksExcept.trans {fs₁ fs₂ fs₃ : FileSystem} (h₁ : fs₁.ShrinksExcept eventDir fs₂)
    (h₂ : fs₂.ShrinksExcept eventDir fs₃) : fs₁.ShrinksExcept eventDir fs₃ :=
  ⟨fun d h => h₂.dirs d (h₁.dirs d h), fun d hd files₃ h => by
    obtain ⟨files₂, h₂', hsub₂⟩ := h₂.files d hd files₃ h
    obtain ⟨files₁, h₁', hsub₁⟩ := h₁.files d hd files₂ h₂'
    exact ⟨files₁, h₁', hsub₂.trans hsub₁⟩⟩

lemma Shrinks.shrinksExcept {fs fs' : FileSystem} (h : fs.Shrinks fs') : fs.ShrinksExcept eventDir fs' :=
  ⟨fun _ hd => h.files?_isSome hd, fun d _ => h.files d⟩

/-- A file of a directory other than `eventDir` that is still there was there before. -/
lemma ShrinksExcept.mem_files {fs fs' : FileSystem} (h : fs.ShrinksExcept eventDir fs') {d : String}
    (hd : d ≠ eventDir) {p : String × EventFile} (hp : p ∈ (fs'.files? d).getD []) :
    p ∈ (fs.files? d).getD [] :=
  mem_files_of_subset (h.files d hd) hp

/-- `fs'` is `fs` after files were taken from the directories `Touched` admits and events were
saved into `eventDir`: no directory goes, a directory other than `eventDir` only loses files, and
one that `Touched` does not admit keeps them all. -/
structure Evolves (eventDir : String) (Touched : String → Prop) (fs fs' : FileSystem) : Prop where
  shrinks : fs.ShrinksExcept eventDir fs'
  frame : ∀ d, ¬ Touched d → d ≠ eventDir → fs'.files? d = fs.files? d

variable {Touched : String → Prop}

lemma Evolves.refl (fs : FileSystem) : fs.Evolves eventDir Touched fs :=
  ⟨ShrinksExcept.refl fs, fun _ _ _ => rfl⟩

lemma Evolves.trans {fs₁ fs₂ fs₃ : FileSystem} (h₁ : fs₁.Evolves eventDir Touched fs₂)
    (h₂ : fs₂.Evolves eventDir Touched fs₃) : fs₁.Evolves eventDir Touched fs₃ :=
  ⟨h₁.shrinks.trans h₂.shrinks, fun d hd hne => (h₂.frame d hd hne).trans (h₁.frame d hd hne)⟩

/-- A run that touches fewer directories, `eventDir` apart. -/
lemma Evolves.mono {Touched' : String → Prop} {fs fs' : FileSystem}
    (hT : ∀ d, Touched d → d ≠ eventDir → Touched' d) (h : fs.Evolves eventDir Touched fs') :
    fs.Evolves eventDir Touched' fs' :=
  ⟨h.shrinks, fun d hd hne => h.frame d (fun h' => hd (hT d h' hne)) hne⟩

lemma ShrinksIn.evolves {dir : String} {fs fs' : FileSystem} (h : fs.ShrinksIn dir fs') :
    fs.Evolves eventDir (· = dir) fs' :=
  ⟨h.shrinks.shrinksExcept, fun d hd _ => h.frame d hd⟩

end FileSystem

/-! ## The event logger -/

/-- An exception that `process_events` records in its `CollectOrReportEventDebugInfo`, with
`update_unicode_error` or `update_op_error`. -/
inductive DebugInfoError where
  /-- One of the file system, or of reading an event file that was retried. -/
  | builtin (e : PyError)
  /-- The `EventError` that `_read_and_parse_event_file` raises for an exception it does not
  retry. -/
  | eventError (e : PyError)
  /-- One other than `ServiceStoppedError` that `enqueue_event` raised. -/
  | enqueue
  deriving DecidableEq

/-- A call of the collector that saves an event whatever the configuration of the logger, an
`add_event` or an `add_log_event(..., forced=True)`, by its place in
`collect_telemetry_events.py`, with the values its message is formatted from. The warnings and
errors of `logger` reach the events directory only through the telemetry appender, which `Agent`
installs when `send_logs_to_telemetry()` holds, a switch defined outside the sources; they are
left out. -/
inductive LogCall where
  /-- `add_event(op=ExtensionTelemetryEventProcessing, ...)` of `_ProcessExtensionEvents._operation`,
  for an exception other than `ServiceStoppedError` (line 129). -/
  | unknownCollectError (error : PyError)
  /-- The `add_log_event` of `_event_file_size_allowed` for a file above the size limit
  (line 167). -/
  | fileTooLarge (handlerEventDirPath eventFile : String) (eventFileSize : Nat)
  /-- The `add_log_event` of `_capture_extension_events` once the count reaches the maximum
  (line 207). -/
  | maxCountReached (handlerName : String)
  /-- The `add_log_event` of `_capture_extension_events` for a file whose processing raised an
  exception other than `ServiceStoppedError` (line 218). -/
  | fileFailed (eventFile : String) (error : PyError)
  /-- The `add_log_event` of the outer `finally` of `_capture_extension_events` for the events
  dropped with `InvalidExtensionEventError`, which the message counts by their text (line 230). -/
  | droppedEvents (handlerName : String) (dropped : List InvalidExtensionEventError)
  /-- `add_event(op=UnhandledError, ...)` of `_CollectAndEnqueueEvents._operation` (line 442). -/
  | unhandledError (error : PyError)
  /-- `debug_info.report_debug_info()` at the end of `process_events`, which adds an event for
  the errors it recorded (line 500). -/
  | reportDebugInfo (errors : List DebugInfoError)

/-- The event logger of `azurelinuxagent.common.event`, which `Agent` initialises with the
agent's events directory `eventDir`; it is defined outside the sources. `save c fs` is the file
system after the call `c`: `save_event` writes the event as a new file of `eventDir`, creating
the directory when it is missing, and removes the oldest files there when it holds too many; an
error of its own is logged, not raised. The other fields are what the collector relies on. -/
structure EventLogger (eventDir : String) where
  /-- The file system after a call. -/
  save : LogCall → FileSystem → FileSystem
  /-- Every other directory is left as it is. -/
  frame : ∀ c fs d, d ≠ eventDir → (save c fs).files? d = fs.files? d
  /-- The directory, once it exists, stays. -/
  keeps_dir : ∀ c fs, (fs.files? eventDir).isSome → ((save c fs).files? eventDir).isSome
  /-- A file left in the directory was there before, or is one the logger wrote, which the agent
  can remove. -/
  removable : ∀ c fs p, p ∈ ((save c fs).files? eventDir).getD [] →
    p ∈ (fs.files? eventDir).getD [] ∨ p.2.removable = true

namespace EventLogger

variable {eventDir : String} (logger : EventLogger eventDir)

/-- A logger whose every save fails, as when its directory cannot be created: the error is
logged and the file system stays as it is. -/
def unwritable (eventDir : String) : EventLogger eventDir :=
  ⟨fun _ fs => fs, fun _ _ _ _ => rfl, fun _ _ h => h, fun _ _ _ h => .inl h⟩

/-- A save keeps every directory and changes none but the logger's. -/
lemma evolves (Touched : String → Prop) (c : LogCall) (fs : FileSystem) :
    fs.Evolves eventDir Touched (logger.save c fs) := by
  refine ⟨⟨fun d hd => ?_, fun d hd files' h => ⟨files', by rwa [logger.frame c fs d hd] at h,
    List.Subset.refl _⟩⟩, fun d _ hd => logger.frame c fs d hd⟩
  by_cases h : d = eventDir
  · subst h
    exact logger.keeps_dir c fs hd
  · rwa [logger.frame c fs d h]

/-- When every file can be removed, so can every file after a save. -/
lemma allRemovable (c : LogCall) {fs : FileSystem} (hr : fs.AllRemovable) :
    (logger.save c fs).AllRemovable := by
  intro d files hd f hf
  by_cases h : d = eventDir
  · subst h
    rcases logger.removable c fs f (by rw [hd]; exact hf) with hold | hnew
    · cases hfs : fs.files? d with
      | none => rw [hfs] at hold; cases hold
      | some files₀ => rw [hfs, Option.getD_some] at hold; exact hr d files₀ hfs f hold
    · exact hnew
  · rw [logger.frame c fs d h] at hd
    exact hr d files hd f hf

/-- A save leaves the files of other directories as they are. -/
lemma file?_save {c : LogCall} {fs : FileSystem} {d : String} (hd : d ≠ eventDir) (name : String) :
    (logger.save c fs).file? d name = fs.file? d name := by
  simp only [FileSystem.file?, logger.frame c fs d hd]

/-- `fs'` is reached from `fs` by what a run of the collector does to the file system: saves of
the event logger, and removals of files of the directories `Touched` admits. -/
inductive Reaches (Touched : String → Prop) : FileSystem → FileSystem → Prop
  | refl (fs : FileSystem) : Reaches Touched fs fs
  | save (c : LogCall) (fs : FileSystem) : Reaches Touched fs (logger.save c fs)
  | remove {fs fs' : FileSystem} {dir name : String} :
      Touched dir → fs.remove dir name = .ok fs' → Reaches Touched fs fs'
  | trans {fs₁ fs₂ fs₃ : FileSystem} :
      Reaches Touched fs₁ fs₂ → Reaches Touched fs₂ fs₃ → Reaches Touched fs₁ fs₃

variable {logger} {Touched : String → Prop} {fs fs' : FileSystem}

/-- A run that touches fewer directories. -/
lemma Reaches.mono {Touched' : String → Prop} (hT : ∀ d, Touched d → Touched' d)
    (h : logger.Reaches Touched fs fs') : logger.Reaches Touched' fs fs' := by
  induction h with
  | refl fs => exact .refl fs
  | save c fs => exact .save c fs
  | remove hd hrm => exact .remove (hT _ hd) hrm
  | trans _ _ ih₁ ih₂ => exact ih₁.trans ih₂

/-- What a run reaches keeps every directory, and changes only the directories it touches and
the logger's, those only by taking files away. -/
lemma Reaches.evolves (h : logger.Reaches Touched fs fs') : fs.Evolves eventDir Touched fs' := by
  induction h with
  | refl fs => exact .refl fs
  | save c fs => exact logger.evolves Touched c fs
  | remove hd hrm =>
    exact (FileSystem.shrinksIn_of_remove hrm).evolves.mono (by rintro d rfl -; exact hd)
  | trans _ _ ih₁ ih₂ => exact ih₁.trans ih₂

/-- When every file can be removed, so can every file of what a run reaches. -/
lemma Reaches.allRemovable (h : logger.Reaches Touched fs fs') (hr : fs.AllRemovable) :
    fs'.AllRemovable := by
  induction h with
  | refl fs => exact hr
  | save c fs => exact logger.allRemovable c hr
  | remove _ hrm => exact (FileSystem.shrinks_of_remove hrm).allRemovable hr
  | trans _ _ ih₁ ih₂ => exact ih₂ (ih₁ hr)

end EventLogger

end Telemetry

end AzureLinuxAgent
