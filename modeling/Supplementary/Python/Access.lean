/-
# Reading and changing JSON-like values

What a script does to a value whose type it has not checked: the type decides which exception
comes out.  `same` is `==` between two containers that share their leaves, where a leaf that is
the same object counts as equal before its type is asked.
-/
import Supplementary.Python.Value
import Supplementary.Python.Text

namespace Supplementary.Value

/-! ## 1. Reading -/

/-- `bool(value)`. -/
def truthy : Value → Bool
  | .none => false
  | .bool b => b
  | .int n => n ≠ 0
  | .float x => x.exact ≠ some 0
  | .str s => s.codePoints ≠ []
  | .list items => !items.isEmpty
  | .dict entries => !entries.isEmpty
  | .other => true

/-- `value.get(key)`: a method of dicts only. -/
def attr (value : Value) (key : PyStr) : Py Value :=
  match value with
  | .dict _ => .ok (value.get key)
  | _ => .error .attributeError

/-- `value.get(key, default)`. -/
def attrD (value : Value) (key : PyStr) (default : Value) : Py Value :=
  match value with
  | .dict _ => .ok (value.getD key default)
  | _ => .error .attributeError

/-- `iter(value)`: the items of a list, the keys of a dict, the characters of a string. -/
def iter : Value → Py (List Value)
  | .list items => .ok items
  | .dict entries => .ok (entries.map fun e => .str e.1)
  | .str s => .ok (s.codePoints.map fun c => .str ⟨[c]⟩)
  | _ => .error .typeError

/-- `len(value)`. -/
def size : Value → Py Nat
  | .list items => .ok items.length
  | .dict entries => .ok entries.length
  | .str s => .ok s.length
  | _ => .error .typeError

/-- `value[0]`; the keys of a dict are strings. -/
def first : Value → Py Value
  | .list (item :: _) => .ok item
  | .str ⟨c :: _⟩ => .ok (.str ⟨[c]⟩)
  | .list [] | .str ⟨[]⟩ => .error .indexError
  | .dict _ => .error .keyError
  | _ => .error .typeError

/-- The text of a value that a method of `str` is called on. -/
def text : Value → Py PyStr
  | .str s => .ok s
  | _ => .error .attributeError

/-- `set(value) == names` for a dict. -/
def hasKeys (value : Value) (names : List PyStr) : Bool :=
  value.keySet ⊆ names && names ⊆ value.keySet

/-! ## 2. Changing -/

/-- `value[key] = new` on a dict. -/
def set (value : Value) (key : PyStr) (new : Value) : Value :=
  match value with
  | .dict entries => .dict (dictSet entries key new)
  | _ => value

/-- `value.pop(key, None)` on a dict. -/
def erase (value : Value) (key : PyStr) : Value :=
  match value with
  | .dict entries => .dict (entries.filter fun e => e.1 ≠ key)
  | _ => value

section

variable {value new default : Value} {key key' : PyStr}

theorem find?_set_ne (h : key ≠ key') : (value.set key new).find? key' = value.find? key' := by
  cases value with
  | dict entries =>
    change lookup (dictSet entries key new) key' = lookup entries key'
    rw [lookup_dictSet, if_neg h]
  | _ => rfl

theorem find?_set_self {entries : List (PyStr × Value)} :
    ((Value.dict entries).set key new).find? key = some new := by
  change lookup (dictSet entries key new) key = some new
  rw [lookup_dictSet, if_pos rfl]

theorem find?_erase_ne (h : key ≠ key') : (value.erase key).find? key' = value.find? key' := by
  cases value with
  | dict entries => exact lookup_filter_ne h.symm
  | _ => rfl

theorem find?_erase_self : (value.erase key).find? key = Option.none := by
  cases value with
  | dict entries =>
    have hnot : key ∉ (entries.filter fun e => e.1 ≠ key).map Prod.fst := by
      simp
    rw [← lookup_isSome, Bool.not_eq_true, Option.isSome_eq_false_iff, Option.isNone_iff_eq_none]
      at hnot
    exact hnot
  | _ => rfl

theorem item_eq : value.item key = if value.isDict = true then
    (match value.find? key with
      | some v => .ok v
      | Option.none => .error .keyError)
    else .error .typeError := by
  cases value <;> rfl

theorem attr_eq : value.attr key = if value.isDict = true then .ok ((value.find? key).getD .none)
    else .error .attributeError := by
  cases value <;> rfl

theorem attrD_eq : value.attrD key default =
    if value.isDict = true then .ok ((value.find? key).getD default)
    else .error .attributeError := by
  cases value <;> rfl

@[simp] theorem isDict_set : (value.set key new).isDict = value.isDict := by
  cases value <;> rfl

@[simp] theorem isDict_erase : (value.erase key).isDict = value.isDict := by
  cases value <;> rfl

theorem item_set_ne (h : key ≠ key') : (value.set key new).item key' = value.item key' := by
  rw [item_eq, item_eq, isDict_set, find?_set_ne h]

theorem attr_set_ne (h : key ≠ key') : (value.set key new).attr key' = value.attr key' := by
  rw [attr_eq, attr_eq, isDict_set, find?_set_ne h]

theorem attrD_set_ne (h : key ≠ key') :
    (value.set key new).attrD key' default = value.attrD key' default := by
  rw [attrD_eq, attrD_eq, isDict_set, find?_set_ne h]

theorem item_set_self (h : value.isDict = true) : (value.set key new).item key = .ok new := by
  cases value with
  | dict entries =>
    rw [item_eq, isDict_set, if_pos h, find?_set_self]
  | _ => cases h

theorem isDict_of_item {v : Value} (h : value.item key = .ok v) : value.isDict = true := by
  cases value with
  | dict entries => rfl
  | _ => cases h

theorem find?_of_item {v : Value} (h : value.item key = .ok v) : value.find? key = some v := by
  cases value with
  | dict entries =>
    simp only [item] at h
    split at h
    · next hfind => rw [hfind]; cases h; rfl
    · cases h
  | _ => cases h

theorem item_of_find? {v : Value} (h : value.find? key = some v) : value.item key = .ok v := by
  cases value with
  | dict entries => simp only [item, h]
  | _ => cases h

theorem mem_dictSet {entries : List (PyStr × Value)} {e : PyStr × Value}
    (h : e ∈ dictSet entries key new) : e = (key, new) ∨ e ∈ entries ∧ e.1 ≠ key := by
  unfold dictSet at h
  split at h
  · obtain ⟨f, hf, rfl⟩ := List.mem_map.mp h
    by_cases hkey : f.1 = key
    · exact Or.inl (if_pos hkey)
    · rw [if_neg hkey]
      exact Or.inr ⟨hf, hkey⟩
  · next hnot =>
    rcases List.mem_append.mp h with hold | hnew
    · refine Or.inr ⟨hold, ?_⟩
      rintro rfl
      exact hnot (List.mem_map_of_mem hold)
    · exact Or.inl (List.mem_singleton.mp hnew)

theorem mem_keys_dictSet {entries : List (PyStr × Value)} :
    key ∈ (dictSet entries key new).map Prod.fst := by
  rw [← lookup_isSome, lookup_dictSet, if_pos rfl]
  rfl

/-- Setting an entry that is there keeps the keys. -/
theorem keySet_set (h : key ∈ value.keySet) : (value.set key new).keySet = value.keySet := by
  cases value with
  | dict entries =>
    have hmem : key ∈ entries.map Prod.fst := h
    change (dictSet entries key new).map Prod.fst = entries.map Prod.fst
    rw [dictSet, if_pos hmem, List.map_map]
    refine List.map_congr_left fun e _ => ?_
    by_cases he : e.1 = key
    · simp [he]
    · simp [he]
  | _ => rfl

theorem dictSet_eq_self {entries : List (PyStr × Value)} (hmem : key ∈ entries.map Prod.fst)
    (h : ∀ e ∈ entries, e.1 = key → e.2 = new) : dictSet entries key new = entries := by
  have hsame : ∀ e ∈ entries, (if e.1 = key then (key, new) else e) = e := by
    intro e he
    by_cases hkey : e.1 = key
    · rw [if_pos hkey, ← hkey, ← h e he hkey]
    · rw [if_neg hkey]
  rw [dictSet, if_pos hmem, List.map_congr_left hsame, List.map_id']

/-- Setting an entry to what it is changes nothing. -/
theorem set_set : (value.set key new).set key new = value.set key new := by
  cases value with
  | dict entries =>
    refine congrArg Value.dict (dictSet_eq_self mem_keys_dictSet fun e he hkey => ?_)
    rcases mem_dictSet he with rfl | ⟨-, hne⟩
    · rfl
    · exact absurd hkey hne
  | _ => rfl

/-- The same, if another entry was set in between. -/
theorem set_set_set {new' : Value} (h : key ≠ key') :
    ((value.set key new).set key' new').set key new = (value.set key new).set key' new' := by
  cases value with
  | dict entries =>
    have hmem : key ∈ (dictSet (dictSet entries key new) key' new').map Prod.fst := by
      rw [← lookup_isSome, lookup_dictSet, if_neg h.symm, lookup_dictSet, if_pos rfl]
      rfl
    refine congrArg Value.dict (dictSet_eq_self hmem fun e he hkey => ?_)
    rcases mem_dictSet he with rfl | ⟨he, -⟩
    · exact absurd hkey.symm h
    · rcases mem_dictSet he with rfl | ⟨-, hne⟩
      · rfl
      · exact absurd hkey hne
  | _ => rfl

theorem erase_set_erase {new' : Value} (h : key ≠ key') :
    ((value.erase key).set key' new').erase key = (value.erase key).set key' new' := by
  cases value with
  | dict entries =>
    refine congrArg Value.dict (List.filter_eq_self.mpr fun e he => ?_)
    rcases mem_dictSet he with rfl | ⟨he, -⟩
    · exact decide_eq_true h.symm
    · exact (List.mem_filter.mp he).2
  | _ => rfl

end

/-! ## 3. Equality of copies -/

mutual

/-- `left == right` where what the two share is the same object. -/
def same : Value → Value → Bool
  | .list xs, .list ys => sameList xs ys
  | .dict es, .dict fs => sameEntries es fs && fs.all fun f => f.1 ∈ es.map Prod.fst
  | .float x, .float y => x = y || (Value.float x).pyEq (.float y)
  | .other, .other => true
  | left, right => left.pyEq right

def sameList : List Value → List Value → Bool
  | [], [] => true
  | x :: xs, y :: ys => same x y && sameList xs ys
  | _, _ => false

/-- Every entry of the left dict that counts is in the right one. -/
def sameEntries : List (PyStr × Value) → List (PyStr × Value) → Bool
  | [], _ => true
  | (key, value) :: es, fs =>
    (if key ∈ es.map Prod.fst then true
      else match lookup fs key with
        | some v => same value v
        | Option.none => false) && sameEntries es fs

end

mutual

theorem same_self : (value : Value) → same value value = true
  | .none | .other => rfl
  | .bool b => by cases b <;> rfl
  | .int n => by simp [same, pyEq, number?]
  | .str s => by simp [same, pyEq]
  | .float x => by simp [same]
  | .list items => by
    rw [same]
    exact sameList_self items
  | .dict entries => by
    rw [same, Bool.and_eq_true]
    refine ⟨sameEntries_suffix entries entries fun _ _ h => h, List.all_eq_true.mpr fun f hf => ?_⟩
    exact decide_eq_true (List.mem_map_of_mem hf)

theorem sameList_self : (items : List Value) → sameList items items = true
  | [] => rfl
  | item :: items => by
    rw [sameList, same_self item, sameList_self items]
    rfl

theorem sameEntries_suffix : (es fs : List (PyStr × Value)) →
    (∀ key v, lookup es key = some v → lookup fs key = some v) → sameEntries es fs = true
  | [], _, _ => rfl
  | (key, value) :: es, fs, h => by
    have hrest : sameEntries es fs = true := by
      refine sameEntries_suffix es fs fun key' v hv => h key' v ?_
      rw [lookup, hv]
      rfl
    rw [sameEntries, hrest, Bool.and_true]
    split
    · rfl
    · next hnot =>
      have hnone : lookup es key = Option.none := by
        rw [← Option.not_isSome_iff_eq_none, lookup_isSome]
        exact hnot
      have hself := h key value (by simp [lookup, hnone])
      rw [hself]
      exact same_self value

end

end Supplementary.Value
