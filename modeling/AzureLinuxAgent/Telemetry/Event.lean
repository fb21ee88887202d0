import AzureLinuxAgent.Python.Dict
import AzureLinuxAgent.TextUtil.Redact

/-!
# Validating an extension event (`_parse_event_and_ensure_it_is_valid`)

An extension writes its telemetry as JSON objects with the fields of `ExtensionEventSchema`.
`_ProcessExtensionEvents._parse_event_and_ensure_it_is_valid` keeps the fields whose lowercase
name is one of `_EXTENSION_EVENT_REQUIRED_FIELDS`, cleans each value (strip and redact a
string, print an integer process or thread id), cuts the message to
`_EXTENSION_EVENT_MAX_MSG_LEN` characters, and then walks the required fields in order,
raising `InvalidExtensionEventError` when one is missing or when the size of the fields
walked so far exceeds `_EXTENSION_EVENT_MAX_SIZE`.

The size is compared with the limit before the length of the current field is added, so the
last field walked, `version`, is never weighed. `parseEventAndEnsureItIsValid_spec` states what
the walk does guarantee, and `parseEventAndEnsureItIsValid_oversize` runs the code on an event
whose version alone is 6144 characters long: it is accepted.
-/

namespace AzureLinuxAgent

namespace Telemetry

open Python TextUtil

/-- A JSON value as `json.loads` returns it. An object is its items in order. No modelled
function reads the value of a float, so it is left out. -/
inductive Json where
  | null
  | bool (b : Bool)
  | int (n : Int)
  | float
  | str (s : String)
  | arr (items : List Json)
  | obj (items : List (String × Json))

/-- `v.items()`: only a JSON object has items. -/
def Json.items : Json → Except PyError (List (String × Json))
  | .obj items => .ok items
  | _ => .error .attributeError

/-- The attributes of `ExtensionEventSchema`, in the order of the class body. -/
def extensionEventSchema : List String :=
  ["Version", "Timestamp", "TaskName", "EventLevel", "Message", "EventPid", "EventTid",
    "OperationId"]

/-- `_EXTENSION_EVENT_REQUIRED_FIELDS`: `dir` lists the attributes of the class sorted by name,
and the lowercase names of those that are not dunder names are kept. -/
def extensionEventRequiredFields : List String := (sorted extensionEventSchema).map lower

/-- `_EXTENSION_EVENT_MAX_SIZE`. -/
def extensionEventMaxSize : Nat := 1024 * 6

/-- `_EXTENSION_EVENT_MAX_MSG_LEN`. -/
def extensionEventMaxMsgLen : Nat := 1024 * 3

lemma extensionEventRequiredFields_eq :
    extensionEventRequiredFields = ["eventlevel", "eventpid", "eventtid", "message", "operationid",
      "taskname", "timestamp", "version"] := by
  decide

/-- `InvalidExtensionEventError`, by the message it is raised with. The class and its
constants `MissingKeyError`, `EmptyMessageError` and `OversizeEventError` are not under src/;
each constructor keeps what the code formats after the constant. -/
inductive InvalidExtensionEventError where
  /-- `"{0}: {1} not found".format(MissingKeyError, key)`. -/
  | missingKey (key : String)
  /-- `"{0}: {1} should not be empty".format(EmptyMessageError, key)`. -/
  | emptyMessage (key : String)
  /-- `"{0}: max event size allowed: {1}".format(OversizeEventError, maxSize)`. -/
  | oversizeEvent (maxSize : Nat)
  deriving DecidableEq, Repr

/-- `str(error)`, given the values of the three class constants. -/
def InvalidExtensionEventError.text (missingKeyError emptyMessageError oversizeEventError : String) :
    InvalidExtensionEventError → String
  | .missingKey key => missingKeyError ++ ": " ++ key ++ " not found"
  | .emptyMessage key => emptyMessageError ++ ": " ++ key ++ " should not be empty"
  | .oversizeEvent n => oversizeEventError ++ ": max event size allowed: " ++ toString n

/-- What parsing one event raises: the validation error, or a built-in exception. -/
inductive EventError where
  | invalid (e : InvalidExtensionEventError)
  | builtin (e : PyError)
  deriving DecidableEq

/-! ## The validator -/

/-- `_clean_value(k, v)`. `None` is kept; an integer `EventPid` or `EventTid` becomes its
decimal text (a `bool` is an `int` in Python and prints as `True` or `False`); any other value
is stripped and redacted, which raises `AttributeError` unless it is a string. -/
def cleanValue (k : String) : Json → Except PyError (Option String)
  | .null => .ok none
  | .int n =>
    if lower k ∈ [lower "EventPid", lower "EventTid"] then .ok (some (toString n))
    else .error .attributeError
  | .bool b =>
    if lower k ∈ [lower "EventPid", lower "EventTid"] then .ok (some (if b then "True" else "False"))
    else .error .attributeError
  | .str s => .ok (some (redactSasToken (strip s)))
  | _ => .error .attributeError

/-- One item of `dict((k.lower(), _clean_value(k, v)) for k, v in extension_event.items()
if k.lower() in _EXTENSION_EVENT_REQUIRED_FIELDS)`. -/
def selectStep (event : PyDict (Option String)) (kv : String × Json) :
    Except PyError (PyDict (Option String)) :=
  if lower kv.1 ∈ extensionEventRequiredFields then do
    let v ← cleanValue kv.1 kv.2
    pure (event.setItem (lower kv.1) v)
  else pure event

/-- The dictionary of the required fields of an event, with cleaned values. -/
def selectFields (extensionEvent : Json) : Except PyError (PyDict (Option String)) := do
  let items ← extensionEvent.items
  items.foldlM selectStep PyDict.empty

/-- One turn of the loop over the required fields: a missing field raises, the size so far is
checked, and the length of the field is added (`len(None)` raises `TypeError`). -/
def sizeStep (event : PyDict (Option String)) (eventSize : Nat) (requiredKey : String) :
    Except EventError Nat :=
  match event.get? requiredKey with
  | none => .error (.invalid (.missingKey requiredKey))
  | some v =>
    if eventSize > extensionEventMaxSize then .error (.invalid (.oversizeEvent extensionEventMaxSize))
    else
      match v with
      | some s => .ok (eventSize + s.length)
      | none => .error (.builtin .typeError)

/-- `_parse_event_and_ensure_it_is_valid(extension_event)`. -/
def parseEventAndEnsureItIsValid (extensionEvent : Json) :
    Except EventError (PyDict (Option String)) := do
  let event ← (selectFields extensionEvent).mapError .builtin
  let messageKey := lower "Message"
  match event.get? messageKey with
  | none => throw (.invalid (.missingKey "Message"))
  | some none => throw (.builtin .typeError)
  | some (some m) =>
    let m : String := ⟨slice m.data 0 extensionEventMaxMsgLen⟩
    let event := event.setItem messageKey (some m)
    if m.length = 0 then throw (.invalid (.emptyMessage "Message"))
    let _ ← extensionEventRequiredFields.foldlM (sizeStep event) 0
    pure event

/-- The length of the string a field holds, and `0` when it holds none. -/
def valueLength (event : PyDict (Option String)) (k : String) : Nat :=
  match event.get? k with
  | some (some s) => s.length
  | _ => 0

/-- The total length of the fields `keys` of an event. -/
def eventSize (event : PyDict (Option String)) : List String → Nat
  | [] => 0
  | k :: keys => valueLength event k + eventSize event keys

/-! ## What validation guarantees -/

lemma extensionEventRequiredFields_nodup : extensionEventRequiredFields.Nodup := by
  rw [extensionEventRequiredFields_eq]; decide

/-- Every key of the selected dictionary is a required field. -/
lemma selectFields_keys {ev : Json} {event : PyDict (Option String)}
    (h : selectFields ev = .ok event) : ∀ k ∈ event.keys, k ∈ extensionEventRequiredFields := by
  obtain ⟨items, -, h⟩ := bind_eq_ok.1 h
  refine foldlM_inv (fun d => ∀ k ∈ d.keys, k ∈ extensionEventRequiredFields) items _ _ ?_
    (by simp [PyDict.empty, PyDict.keys]) h
  intro d kv d' _ hd hstep
  unfold selectStep at hstep
  split at hstep
  · obtain ⟨v, -, hv⟩ := bind_eq_ok.1 hstep
    cases hv
    intro k hk
    rw [PyDict.keys_setItem] at hk
    split at hk
    · exact hd k hk
    · rcases List.mem_append.1 hk with hk | hk
      · exact hd k hk
      · rw [List.mem_singleton.1 hk]; assumption
  · cases hstep; exact hd

/-- One turn of the size loop that goes on: the field holds a string and the size so far is
within the limit. -/
lemma sizeStep_eq_ok {event : PyDict (Option String)} {s t : Nat} {k : String}
    (h : sizeStep event s k = .ok t) :
    ∃ v, event.get? k = some (some v) ∧ s ≤ extensionEventMaxSize ∧ t = s + v.length := by
  unfold sizeStep at h
  split at h
  · cases h
  · split at h
    · cases h
    · split at h
      · cases h; exact ⟨_, ‹_›, by omega, rfl⟩
      · cases h

/-- A size loop that goes through: every field holds a string, and before each field the
fields walked so far are within the limit. -/
lemma sizeLoop_ok (event : PyDict (Option String)) (keys : List String) (s t : Nat)
    (h : keys.foldlM (sizeStep event) s = .ok t) :
    (∀ k ∈ keys, ∃ v, event.get? k = some (some v)) ∧
      ∀ j < keys.length, s + eventSize event (keys.take j) ≤ extensionEventMaxSize := by
  induction keys generalizing s with
  | nil => exact ⟨by simp, by simp⟩
  | cons k keys ih =>
    rw [List.foldlM_cons] at h
    obtain ⟨s', hs', hrest⟩ := bind_eq_ok.1 h
    obtain ⟨v, hv, hle, rfl⟩ := sizeStep_eq_ok hs'
    obtain ⟨hall, hsize⟩ := ih _ hrest
    refine ⟨fun k' hk' => ?_, fun j hj => ?_⟩
    · rcases List.mem_cons.1 hk' with rfl | hk'
      · exact ⟨v, hv⟩
      · exact hall k' hk'
    · cases j with
      | zero => simpa [eventSize] using hle
      | succ j =>
        have := hsize j (by simpa using hj)
        simp only [eventSize, List.take_succ_cons, valueLength, hv] at this ⊢
        omega

/-- What an event that passes validation satisfies: its keys are the required fields, each
holding a string; its message is non-empty and at most `_EXTENSION_EVENT_MAX_MSG_LEN` long;
and before each field the size loop visits, the fields visited so far fit in
`_EXTENSION_EVENT_MAX_SIZE`. -/
lemma parseEventAndEnsureItIsValid_spec {ev : Json} {event : PyDict (Option String)}
    (h : parseEventAndEnsureItIsValid ev = .ok event) :
    event.keys.Perm extensionEventRequiredFields ∧
      (∀ k ∈ extensionEventRequiredFields, ∃ v, event.get? k = some (some v)) ∧
      (∃ m, event.get? "message" = some (some m) ∧ 0 < m.length ∧
        m.length ≤ extensionEventMaxMsgLen) ∧
      ∀ j < extensionEventRequiredFields.length,
        eventSize event (extensionEventRequiredFields.take j) ≤ extensionEventMaxSize := by
  obtain ⟨sel, hsel, h⟩ := bind_eq_ok.1 h
  rw [mapError_eq_ok] at hsel
  have hmsg : lower "Message" = "message" := by decide
  simp only [hmsg] at h
  split at h
  · nomatch h
  · nomatch h
  · rename_i m hm
    simp only [slice_zero_natCast] at h
    split at h
    · nomatch h
    · rename_i hne
      obtain ⟨t, hloop, h⟩ := bind_eq_ok.1 (by simpa only [pure_eq_ok, ok_bind] using h)
      cases h
      obtain ⟨hall, hsize⟩ := sizeLoop_ok _ _ 0 t hloop
      have hkeys : (sel.setItem "message" (some ⟨m.data.take extensionEventMaxMsgLen⟩)).keys =
          sel.keys := by
        rw [PyDict.keys_setItem, if_pos ((PyDict.mem_keys_iff sel _).2 (by simp [hm]))]
      refine ⟨(List.perm_ext_iff_of_nodup (hkeys ▸ PyDict.nodup _) extensionEventRequiredFields_nodup).2
        fun k => ⟨fun hk => selectFields_keys hsel k (hkeys ▸ hk), fun hk => ?_⟩, hall,
        ⟨⟨m.data.take extensionEventMaxMsgLen⟩, by simp, Nat.pos_of_ne_zero hne, by simp⟩, fun j hj => by simpa using hsize j hj⟩
      obtain ⟨v, hv⟩ := hall k hk
      exact (PyDict.mem_keys_iff _ k).2 (by simp [hv])

/-! ## The last field is not weighed -/

/-- A run of the letter `v` is neither stripped nor redacted. -/
lemma cleanValue_replicate (k : String) (n : Nat) :
    cleanValue k (.str ⟨List.replicate n 'v'⟩) = .ok (some ⟨List.replicate n 'v'⟩) := by
  have hstrip : strip ⟨List.replicate n 'v'⟩ = ⟨List.replicate n 'v'⟩ :=
    strip_of_no_space _ fun c hc => by rw [List.eq_of_mem_replicate hc]; decide
  have hredact : redactSasToken ⟨List.replicate n 'v'⟩ = ⟨List.replicate n 'v'⟩ := by
    refine redactSasToken_of_no_url _ fun xs hxs => ?_
    cases xs with
    | nil => rfl
    | cons c xs =>
      rw [List.eq_of_mem_replicate (hxs.subset (List.mem_cons_self c xs))]
      rfl
  simp only [cleanValue, hstrip, hredact]

/-- An event whose message is one character long, whose other fields but the version are
empty, and whose version is 6144 characters long is accepted, with 6145 characters in all. -/
theorem parseEventAndEnsureItIsValid_oversize :
    ∃ event, parseEventAndEnsureItIsValid (.obj [("Message", .str "m"), ("EventLevel", .str ""),
        ("EventPid", .str ""), ("EventTid", .str ""), ("OperationId", .str ""),
        ("TaskName", .str ""), ("Timestamp", .str ""),
        ("Version", .str ⟨List.replicate 6144 'v'⟩)]) = .ok event ∧
      extensionEventMaxSize < eventSize event extensionEventRequiredFields := by
  have hv := cleanValue_replicate "Version" 6144
  have hlen : (⟨List.replicate 6144 'v'⟩ : String).length = 6144 := List.length_replicate 6144 'v'
  generalize (⟨List.replicate 6144 'v'⟩ : String) = v at hv hlen ⊢
  have hclean : redactSasToken (strip v) = v := by simpa [cleanValue] using hv
  refine ⟨_, rfl, ?_⟩
  have hm : (⟨slice (redactSasToken (strip "m")).data 0 extensionEventMaxMsgLen⟩ : String) = "m" := by
    decide
  have he : redactSasToken (strip "") = "" := by decide
  rw [hclean, hm, he, extensionEventRequiredFields_eq]
  simp +decide [eventSize, valueLength, hlen]

end Telemetry

end AzureLinuxAgent
