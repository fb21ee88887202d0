import AzureLinuxAgent.Telemetry.Event

/-!
# Building the telemetry event (`_parse_telemetry_event`)

A valid extension event becomes a `TelemetryEvent`: the event logger adds its common
parameters, and `_replace_or_add_param_in_event` then overwrites the parameters whose names
are keys of a dictionary of eight values taken from the extension event, and appends the keys
left over. The scan pops each key it uses from the dictionary while it walks the parameter
list, so the keys still in the dictionary after the scan are exactly those no parameter has.

`replaceOrAddParamInEvent_eq` computes the result of the scan in one formula, from which
`replaceOrAddParamInEvent_spec` reads off that no parameter is lost or duplicated.
-/

namespace AzureLinuxAgent

namespace Telemetry

open Python

/-- `TelemetryEventParam(name, value)`; the class is not under src/. -/
structure TelemetryEventParam (α : Type) where
  name : String
  value : α
  deriving DecidableEq, Repr

section

variable {α : Type}

/-! ## Replacing and adding parameters -/

/-- One turn of the scan: a parameter whose name is a key takes the value popped from the
dictionary. -/
def replaceStep (d : PyDict α) (param : TelemetryEventParam α) :
    TelemetryEventParam α × PyDict α :=
  match d.get? param.name with
  | some v => ({ param with value := v }, d.erase param.name)
  | none => (param, d)

/-- `for param in event.parameters: ...`: the parameters after the scan, and what is left of
the dictionary. -/
def replaceLoop : PyDict α → List (TelemetryEventParam α) → List (TelemetryEventParam α) × PyDict α
  | d, [] => ([], d)
  | d, p :: ps =>
    let (p', d') := replaceStep d p
    let (ps', d'') := replaceLoop d' ps
    (p' :: ps', d'')

/-- `_replace_or_add_param_in_event(event, replace_or_add_params)`, on the parameter list. -/
def replaceOrAddParamInEvent (parameters : List (TelemetryEventParam α))
    (replaceOrAddParams : PyDict α) : List (TelemetryEventParam α) :=
  let scanned := replaceLoop replaceOrAddParams parameters
  if scanned.2.items.isEmpty then scanned.1
  else scanned.1 ++ scanned.2.items.map fun kv => ⟨kv.1, kv.2⟩

/-- The parameter `param` after the scan: the value of its name in `d`, if it is a key. -/
def replacedParam (d : PyDict α) (param : TelemetryEventParam α) : TelemetryEventParam α :=
  match d.get? param.name with
  | some v => { param with value := v }
  | none => param

/-- The items of `d` whose key no parameter of `ps` has. -/
def unusedItems (d : PyDict α) (ps : List (TelemetryEventParam α)) : List (String × α) :=
  d.items.filter fun kv => kv.1 ∉ ps.map (·.name)

lemma replaceLoop_cons (d : PyDict α) (p : TelemetryEventParam α) (ps : List (TelemetryEventParam α)) :
    replaceLoop d (p :: ps) =
      ((replaceStep d p).1 :: (replaceLoop (replaceStep d p).2 ps).1,
        (replaceLoop (replaceStep d p).2 ps).2) := rfl

lemma replaceStep_of_some {d : PyDict α} {p : TelemetryEventParam α} {v : α}
    (h : d.get? p.name = some v) : replaceStep d p = ({ p with value := v }, d.erase p.name) := by
  simp [replaceStep, h]

lemma replaceStep_of_none {d : PyDict α} {p : TelemetryEventParam α} (h : d.get? p.name = none) :
    replaceStep d p = (p, d) := by
  simp [replaceStep, h]

/-- The scan over parameters with distinct names: every parameter is replaced from the
dictionary it started with, and the keys left are those no parameter has. -/
lemma replaceLoop_eq (d : PyDict α) (ps : List (TelemetryEventParam α))
    (hps : (ps.map (·.name)).Nodup) :
    (replaceLoop d ps).1 = ps.map (replacedParam d) ∧
      (replaceLoop d ps).2.items = unusedItems d ps := by
  induction ps generalizing d with
  | nil => exact ⟨rfl, by simp [replaceLoop, unusedItems]⟩
  | cons p ps ih =>
    rw [List.map_cons, List.nodup_cons] at hps
    have hfresh : ∀ q ∈ ps, q.name ≠ p.name := fun q hq e => hps.1 (e ▸ List.mem_map_of_mem _ hq)
    rw [replaceLoop_cons, List.map_cons]
    cases hp : d.get? p.name with
    | some v =>
      obtain ⟨ih1, ih2⟩ := ih (d.erase p.name) hps.2
      rw [replaceStep_of_some hp]
      refine ⟨?_, ?_⟩
      · rw [ih1, replacedParam, hp]
        exact congrArg _ (List.map_congr_left fun q hq => by simp [replacedParam, hfresh q hq])
      · rw [ih2]
        simp only [unusedItems, PyDict.erase, List.filter_filter, List.map_cons, List.mem_cons]
        exact List.filter_congr fun kv _ => by by_cases h : kv.1 = p.name <;> simp [h]
    | none =>
      obtain ⟨ih1, ih2⟩ := ih d hps.2
      rw [replaceStep_of_none hp]
      refine ⟨by rw [ih1, replacedParam, hp], ?_⟩
      have hnot : p.name ∉ d.keys := fun hk => by
        have := (PyDict.mem_keys_iff d _).1 hk
        simp [hp] at this
      rw [ih2]
      simp only [unusedItems, List.map_cons, List.mem_cons]
      refine List.filter_congr fun kv hkv => ?_
      have : kv.1 ≠ p.name := fun e => hnot (e ▸ List.mem_map_of_mem Prod.fst hkv)
      simp [this]

/-- The result of `_replace_or_add_param_in_event` on parameters with distinct names: each
parameter replaced in place, then the unused items appended in the dictionary's order. -/
lemma replaceOrAddParamInEvent_eq (ps : List (TelemetryEventParam α)) (d : PyDict α)
    (hps : (ps.map (·.name)).Nodup) :
    replaceOrAddParamInEvent ps d =
      ps.map (replacedParam d) ++ (unusedItems d ps).map fun kv => ⟨kv.1, kv.2⟩ := by
  obtain ⟨h1, h2⟩ := replaceLoop_eq d ps hps
  simp only [replaceOrAddParamInEvent, h1, h2]
  split
  · rename_i hnil
    rw [List.isEmpty_iff.1 hnil, List.map_nil, List.append_nil]
  · rfl

@[simp] lemma replacedParam_name (d : PyDict α) (p : TelemetryEventParam α) :
    (replacedParam d p).name = p.name := by
  unfold replacedParam; split <;> rfl

lemma unusedItems_map_fst (d : PyDict α) (ps : List (TelemetryEventParam α)) :
    (unusedItems d ps).map Prod.fst = d.keys.filter fun k => k ∉ ps.map (·.name) := by
  rw [PyDict.keys, List.filter_map]; rfl

/-- On parameters with distinct names, `_replace_or_add_param_in_event` loses and duplicates
no parameter: the names stay distinct and are the old names and the dictionary's keys, every
parameter named by a key has that key's value, every other parameter is kept as it was, and
the original parameters come first, in their order. -/
theorem replaceOrAddParamInEvent_spec (ps : List (TelemetryEventParam α)) (d : PyDict α)
    (hps : (ps.map (·.name)).Nodup) :
    ((replaceOrAddParamInEvent ps d).map (·.name)).Nodup ∧
      (∀ n, n ∈ (replaceOrAddParamInEvent ps d).map (·.name) ↔ n ∈ ps.map (·.name) ∨ n ∈ d.keys) ∧
      (∀ p ∈ replaceOrAddParamInEvent ps d, p.name ∈ d.keys → d.get? p.name = some p.value) ∧
      (∀ p ∈ ps, p.name ∉ d.keys → p ∈ replaceOrAddParamInEvent ps d) ∧
      ((replaceOrAddParamInEvent ps d).take ps.length).map (·.name) = ps.map (·.name) := by
  have hnames : (replaceOrAddParamInEvent ps d).map (·.name) =
      ps.map (·.name) ++ d.keys.filter fun k => k ∉ ps.map (·.name) := by
    rw [replaceOrAddParamInEvent_eq ps d hps, List.map_append, List.map_map, List.map_map,
      ← unusedItems_map_fst]
    simp [Function.comp_def]
  refine ⟨?_, fun n => ?_, fun p hp hk => ?_, fun p hp hk => ?_, ?_⟩
  · rw [hnames, List.nodup_append]
    exact ⟨hps, d.nodup.filter _, fun a ha hb => (List.mem_filter.1 hb).2 |> of_decide_eq_true <| ha⟩
  · rw [hnames, List.mem_append, List.mem_filter]
    by_cases h : n ∈ ps.map (·.name) <;> simp [h]
  · rw [replaceOrAddParamInEvent_eq ps d hps, List.mem_append] at hp
    rcases hp with hp | hp
    · obtain ⟨q, -, rfl⟩ := List.mem_map.1 hp
      rw [replacedParam_name] at hk ⊢
      obtain ⟨v, hv⟩ := Option.isSome_iff_exists.1 ((PyDict.mem_keys_iff d _).1 hk)
      simp [replacedParam, hv]
    · obtain ⟨kv, hkv, rfl⟩ := List.mem_map.1 hp
      exact d.get?_of_mem (List.mem_of_mem_filter hkv)
  · have hnone : d.get? p.name = none :=
      Option.not_isSome_iff_eq_none.1 fun hs => hk ((PyDict.mem_keys_iff d _).2 hs)
    rw [replaceOrAddParamInEvent_eq ps d hps]
    exact List.mem_append_left _ (List.mem_map.2 ⟨p, hp, by simp [replacedParam, hnone]⟩)
  · rw [List.map_take, hnames, List.take_left' (List.length_map _ _)]

/-- Two parameters, one of which a key names, and a key no parameter has. -/
theorem replaceOrAddParamInEvent_spec_overlap :
    let ps : List (TelemetryEventParam Nat) := [⟨"a", 1⟩, ⟨"b", 2⟩]
    let d : PyDict Nat := ⟨[("b", 3), ("c", 4)], by decide⟩
    (ps.map (·.name)).Nodup ∧ replaceOrAddParamInEvent ps d = [⟨"a", 1⟩, ⟨"b", 3⟩, ⟨"c", 4⟩] ∧
      ((replaceOrAddParamInEvent ps d).map (·.name)).Nodup ∧
      (∀ n, n ∈ (replaceOrAddParamInEvent ps d).map (·.name) ↔ n ∈ ps.map (·.name) ∨ n ∈ d.keys) ∧
      (∀ p ∈ replaceOrAddParamInEvent ps d, p.name ∈ d.keys → d.get? p.name = some p.value) ∧
      (∀ p ∈ ps, p.name ∉ d.keys → p ∈ replaceOrAddParamInEvent ps d) ∧
      ((replaceOrAddParamInEvent ps d).take ps.length).map (·.name) = ps.map (·.name) :=
  ⟨by decide, by decide, replaceOrAddParamInEvent_spec _ _ (by decide)⟩

/-- The dictionary literal `{k1: v1, ..., kn: vn}`: the pairs assigned from left to right. -/
def PyDict.ofList (l : List (String × α)) : PyDict α :=
  l.foldl (fun d kv => d.setItem kv.1 kv.2) PyDict.empty

/-- The keys of a dictionary literal are the keys it lists. -/
lemma PyDict.mem_keys_ofList (l : List (String × α)) (k : String) :
    k ∈ (PyDict.ofList l).keys ↔ k ∈ l.map (·.1) := by
  suffices h : ∀ d : PyDict α, k ∈ (l.foldl (fun d kv => d.setItem kv.1 kv.2) d).keys ↔
      k ∈ d.keys ∨ k ∈ l.map (·.1) by
    simpa [PyDict.ofList, PyDict.empty, PyDict.keys] using h PyDict.empty
  induction l with
  | nil => simp
  | cons kv l ih =>
    intro d
    rw [List.foldl_cons, ih, PyDict.keys_setItem]
    split
    · rename_i hkv
      by_cases hk : k = kv.1
      · subst hk; simp [hkv]
      · simp [hk]
    · simp [or_assoc]

end

/-! ## The telemetry event of an extension event -/

/-- What `_parse_telemetry_event` takes from modules that are not under src/: the event and
provider ids of a log event, the names of `GuestAgentGenericLogsSchema`, and the common
parameters the event logger adds for a file time. -/
structure TelemetryContext where
  telemetryLogEventId : Nat
  telemetryLogProviderId : String
  eventName : String
  capabilityUsed : String
  taskName : String
  context1 : String
  context2 : String
  context3 : String
  eventPid : String
  eventTid : String
  commonParams : Nat → List (TelemetryEventParam Json)

/-- `TelemetryEvent`; the class is not under src/. -/
structure TelemetryEvent where
  eventId : Nat
  providerId : String
  fileType : String
  parameters : List (TelemetryEventParam Json)

/-- A value of a validated event as the Python object it is: a string, or `None`. -/
def Json.ofOption : Option String → Json
  | some s => .str s
  | none => .null

/-- `"{0}".format(v)` for a value of a validated event. -/
def formatValue : Option String → String
  | some s => s
  | none => "None"

/-- `extension_event[k.lower()]`, which raises `KeyError` when the field is missing. -/
def eventField (extensionEvent : PyDict (Option String)) (k : String) :
    Except EventError (Option String) :=
  match extensionEvent.get? (lower k) with
  | some v => .ok v
  | none => .error (.builtin .keyError)

/-- `_parse_telemetry_event(handler_name, extension_unparsed_event, event_file_time)`. -/
def parseTelemetryEvent (ctx : TelemetryContext) (handlerName : String)
    (extensionUnparsedEvent : Json) (eventFileTime : Nat) : Except EventError TelemetryEvent := do
  let extensionEvent ← parseEventAndEnsureItIsValid extensionUnparsedEvent
  let version ← eventField extensionEvent "Version"
  let eventLevel ← eventField extensionEvent "EventLevel"
  let taskName ← eventField extensionEvent "TaskName"
  let message ← eventField extensionEvent "Message"
  let timestamp ← eventField extensionEvent "Timestamp"
  let operationId ← eventField extensionEvent "OperationId"
  let eventPid ← eventField extensionEvent "EventPid"
  let eventTid ← eventField extensionEvent "EventTid"
  let replaceOrAddParams : PyDict Json := PyDict.ofList
    [(ctx.eventName, .str (handlerName ++ "-" ++ formatValue version)),
      (ctx.capabilityUsed, Json.ofOption eventLevel),
      (ctx.taskName, Json.ofOption taskName),
      (ctx.context1, Json.ofOption message),
      (ctx.context2, Json.ofOption timestamp),
      (ctx.context3, Json.ofOption operationId),
      (ctx.eventPid, Json.ofOption eventPid),
      (ctx.eventTid, Json.ofOption eventTid)]
  pure { eventId := ctx.telemetryLogEventId, providerId := ctx.telemetryLogProviderId,
         fileType := "json",
         parameters := replaceOrAddParamInEvent (ctx.commonParams eventFileTime) replaceOrAddParams }

/-- A field of a valid event can be read. -/
lemma eventField_of_valid {ev : Json} {event : PyDict (Option String)}
    (h : parseEventAndEnsureItIsValid ev = .ok event) (k : String)
    (hk : lower k ∈ extensionEventRequiredFields) : ∃ v, eventField event k = .ok (some v) := by
  obtain ⟨v, hv⟩ := (parseEventAndEnsureItIsValid_spec h).2.1 _ hk
  exact ⟨v, by simp [eventField, hv]⟩

/-- Building the telemetry event adds no failure: it succeeds whenever validation does. -/
lemma parseTelemetryEvent_of_valid {ev : Json} {event : PyDict (Option String)}
    (h : parseEventAndEnsureItIsValid ev = .ok event) (ctx : TelemetryContext)
    (handlerName : String) (eventFileTime : Nat) :
    ∃ tev, parseTelemetryEvent ctx handlerName ev eventFileTime = .ok tev := by
  have field := eventField_of_valid h
  obtain ⟨_, h₁⟩ := field "Version" (by decide)
  obtain ⟨_, h₂⟩ := field "EventLevel" (by decide)
  obtain ⟨_, h₃⟩ := field "TaskName" (by decide)
  obtain ⟨_, h₄⟩ := field "Message" (by decide)
  obtain ⟨_, h₅⟩ := field "Timestamp" (by decide)
  obtain ⟨_, h₆⟩ := field "OperationId" (by decide)
  obtain ⟨_, h₇⟩ := field "EventPid" (by decide)
  obtain ⟨_, h₈⟩ := field "EventTid" (by decide)
  simp only [parseTelemetryEvent, h, h₁, h₂, h₃, h₄, h₅, h₆, h₇, h₈, ok_bind]
  exact ⟨_, rfl⟩

end Telemetry

end AzureLinuxAgent
