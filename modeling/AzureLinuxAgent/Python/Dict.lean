import AzureLinuxAgent.Python.Str

/-!
# Python dictionaries with string keys

A `dict` keeps its items in insertion order. Assigning to a key that is present replaces its
value in place, a new key goes last, and `pop` removes a key and leaves the others in order.
`PyDict` carries the fact that each key occurs once, so that no operation below has to
re-establish it and no dictionary with a repeated key can be built.
-/

namespace AzureLinuxAgent

namespace Python

/-- A `dict` with `str` keys. -/
structure PyDict (α : Type) where
  /-- The items, in insertion order. -/
  items : List (String × α)
  /-- Each key occurs once. -/
  nodup : (items.map Prod.fst).Nodup

namespace PyDict

variable {α : Type}

/-- Dictionaries are compared by their items, so that results can be evaluated. -/
instance [DecidableEq α] : DecidableEq (PyDict α) := fun a b =>
  decidable_of_iff (a.items = b.items) ⟨fun h => by cases a; cases b; cases h; rfl, fun h => h ▸ rfl⟩

/-- `list(d)`: the keys in insertion order. -/
def keys (d : PyDict α) : List String := d.items.map Prod.fst

/-- The value of the key `k` among the items `l`, if it is one of their keys. -/
def lookup (k : String) : List (String × α) → Option α
  | [] => none
  | p :: l => if p.1 = k then some p.2 else lookup k l

/-- `d.get(k)`: the value of `k`, if `k` is a key. -/
def get? (d : PyDict α) (k : String) : Option α := lookup k d.items

/-- `{}`. -/
def empty : PyDict α := ⟨[], List.nodup_nil⟩

/-- The items with the value of the key `k` replaced by `v`. -/
def replace (l : List (String × α)) (k : String) (v : α) : List (String × α) :=
  l.map fun p => if p.1 = k then (k, v) else p

lemma map_fst_replace (l : List (String × α)) (k : String) (v : α) :
    (replace l k v).map Prod.fst = l.map Prod.fst := by
  induction l with
  | nil => rfl
  | cons p l ih => by_cases h : p.1 = k <;> simp_all [replace]

/-- `d[k] = v`: the value of a present key is replaced in place, a new key goes last. -/
def setItem (d : PyDict α) (k : String) (v : α) : PyDict α :=
  if h : k ∈ d.keys then
    ⟨replace d.items k v, by rw [map_fst_replace]; exact d.nodup⟩
  else
    ⟨d.items ++ [(k, v)], by
      rw [List.map_append, List.nodup_append]
      refine ⟨d.nodup, List.nodup_singleton k, fun a ha hb => h ?_⟩
      rw [List.map_singleton, List.mem_singleton] at hb
      rw [hb] at ha
      exact ha⟩

/-- `d.pop(k)`: the dictionary without the key `k`, the others in order. -/
def erase (d : PyDict α) (k : String) : PyDict α :=
  ⟨d.items.filter (·.1 ≠ k), by
    have : (d.items.filter (·.1 ≠ k)).map Prod.fst = (d.items.map Prod.fst).filter (· ≠ k) := by
      rw [List.filter_map]; rfl
    rw [this]
    exact d.nodup.filter _⟩

/-! ## Lemmas -/

lemma lookup_isSome_iff (l : List (String × α)) (k : String) :
    (lookup k l).isSome ↔ k ∈ l.map Prod.fst := by
  induction l with
  | nil => simp [lookup]
  | cons p l ih => by_cases h : p.1 = k <;> simp [lookup, h, ih, Ne.symm]

/-- A key is present exactly when it has a value. -/
lemma mem_keys_iff (d : PyDict α) (k : String) : k ∈ d.keys ↔ (d.get? k).isSome :=
  (lookup_isSome_iff d.items k).symm

lemma lookup_replace (l : List (String × α)) (k k' : String) (v : α) :
    lookup k' (replace l k v) = if k' = k ∧ k ∈ l.map Prod.fst then some v else lookup k' l := by
  induction l with
  | nil => simp [lookup, replace]
  | cons p l ih =>
    simp only [replace, List.map_cons] at ih ⊢
    by_cases hp : p.1 = k
    · by_cases hk : k' = k <;> simp_all [lookup, eq_comm]
    · by_cases hk : k' = p.1
      · subst hk
        simp [hp, lookup, Ne.symm hp]
      · have hmem : (k ∈ p.1 :: l.map Prod.fst) ↔ k ∈ l.map Prod.fst := by
          simp [Ne.symm hp]
        simp only [lookup, hp, if_false, Ne.symm hk, hmem] at ih ⊢
        exact ih

lemma lookup_append_singleton (l : List (String × α)) (k k' : String) (v : α) :
    lookup k' (l ++ [(k, v)]) = match lookup k' l with | some w => some w | none => if k = k' then some v else none := by
  induction l with
  | nil => simp [lookup]
  | cons p l ih => by_cases hp : p.1 = k' <;> simp [lookup, hp, ih]

@[simp] lemma get?_setItem (d : PyDict α) (k k' : String) (v : α) :
    (d.setItem k v).get? k' = if k' = k then some v else d.get? k' := by
  unfold setItem
  split
  · rename_i h
    simp only [get?, lookup_replace]
    by_cases hk : k' = k <;> simp_all [keys]
  · rename_i h
    have hnone : d.get? k = none := Option.not_isSome_iff_eq_none.1 fun hs => h ((mem_keys_iff d k).2 hs)
    simp only [get?, lookup_append_singleton]
    by_cases hk : k' = k
    · subst hk
      simp_all [get?]
    · cases lookup k' d.items <;> simp [Ne.symm hk, hk]

@[simp] lemma keys_setItem (d : PyDict α) (k : String) (v : α) :
    (d.setItem k v).keys = if k ∈ d.keys then d.keys else d.keys ++ [k] := by
  unfold setItem
  split <;> simp [keys, map_fst_replace, *]

@[simp] lemma get?_erase (d : PyDict α) (k k' : String) :
    (d.erase k).get? k' = if k' = k then none else d.get? k' := by
  simp only [erase, get?]
  induction d.items with
  | nil => simp [lookup]
  | cons p l ih =>
    by_cases hp : p.1 = k
    · by_cases hk : k' = k
      · simp_all [lookup, List.filter_cons]
      · simp_all [lookup, List.filter_cons, Ne.symm hk]
    · by_cases hk : k' = p.1
      · subst hk
        simp_all [lookup, List.filter_cons]
      · simp_all [lookup, List.filter_cons, Ne.symm hk]

lemma lookup_of_mem {l : List (String × α)} (hl : (l.map Prod.fst).Nodup) {k : String} {v : α}
    (h : (k, v) ∈ l) : lookup k l = some v := by
  induction l with
  | nil => cases h
  | cons p l ih =>
    rw [List.map_cons, List.nodup_cons] at hl
    rcases List.mem_cons.1 h with rfl | h
    · simp [lookup]
    · have hne : p.1 ≠ k := fun e => hl.1 (e ▸ List.mem_map_of_mem Prod.fst h)
      simp [lookup, hne, ih hl.2 h]

/-- An item of the dictionary is what its key looks up. -/
lemma get?_of_mem (d : PyDict α) {k : String} {v : α} (h : (k, v) ∈ d.items) : d.get? k = some v :=
  lookup_of_mem d.nodup h

@[simp] lemma keys_erase (d : PyDict α) (k : String) :
    (d.erase k).keys = d.keys.filter (· ≠ k) := by
  simp only [erase, keys, List.filter_map]
  rfl

end PyDict

end Python

end AzureLinuxAgent
