/-
# Python values and their canonical JSON text

The scripts take JSON-like values whose types they check at run time, with `bool` kept apart
from `int`.  `Value` is that universe; `other` stands for every object of another type, which
every check here refuses and `json.dumps` raises on.

`canonical` is the compact, key-sorted, ASCII encoding that all digests are taken of.  What the
interpreter supplies and no result depends on (SHA-256, the nesting depth at which `json` gives
up) is a `Runtime`, over which everything downstream is quantified.
-/
import Supplementary.Python.Str
import Mathlib.Algebra.Ring.Int.Defs
import Mathlib.Algebra.Ring.Nat
import Mathlib.Data.Rat.Defs

namespace Supplementary

/-! ## 1. Values -/

/-- A Python `float`: the shortest `repr`, which `json.dumps` writes, and the exact value unless
it is infinite or not a number. -/
structure PyFloat where
  repr : PyStr
  exact : Option ℚ
  deriving DecidableEq

/-- A Python value as the scripts see it. -/
inductive Value
  | none
  | bool (b : Bool)
  | int (n : Int)
  | float (x : PyFloat)
  | str (s : PyStr)
  | list (items : List Value)
  | dict (entries : List (PyStr × Value))
  | other

/-- The entry of a key.  A dict has one at most; of a list that repeats a key the last counts,
as in a dict display. -/
def lookup {α : Type} : List (PyStr × α) → PyStr → Option α
  | [], _ => none
  | e :: entries, key => (lookup entries key).or (if e.1 = key then some e.2 else none)

theorem lookup_isSome {α : Type} {entries : List (PyStr × α)} {key : PyStr} :
    (lookup entries key).isSome = true ↔ key ∈ entries.map Prod.fst := by
  induction entries with
  | nil => simp [lookup]
  | cons e entries ih =>
    by_cases he : e.1 = key
    · simp [lookup, he]
    · simp [lookup, he, ih, eq_comm (a := key)]

/-- The entry of a key in a dict whose keys are distinct. -/
theorem lookup_of_mem {α : Type} {entries : List (PyStr × α)}
    (hkeys : (entries.map Prod.fst).Nodup) {e : PyStr × α} (he : e ∈ entries) :
    lookup entries e.1 = some e.2 := by
  induction entries with
  | nil => cases he
  | cons f entries ih =>
    rw [List.map_cons, List.nodup_cons] at hkeys
    rcases List.mem_cons.mp he with rfl | he
    · have hnone : lookup entries e.1 = none := by
        rw [← Option.not_isSome_iff_eq_none, lookup_isSome]
        exact hkeys.1
      simp [lookup, hnone]
    · simp [lookup, ih hkeys.2 he]

theorem mem_of_lookup {α : Type} {entries : List (PyStr × α)} {key : PyStr} {v : α}
    (h : lookup entries key = some v) : (key, v) ∈ entries := by
  induction entries with
  | nil => cases h
  | cons e entries ih =>
    rw [lookup] at h
    cases hrest : lookup entries key with
    | some w =>
      rw [hrest] at h
      cases h
      exact List.mem_cons_of_mem _ (ih hrest)
    | none =>
      rw [hrest, Option.none_or] at h
      split at h
      · next hkey =>
        cases h
        rw [← hkey]
        exact List.mem_cons_self
      · cases h

namespace Value

instance : Inhabited Value := ⟨.none⟩

/-- `value[key]` when `value` is a dict that has the key. -/
def find? : Value → PyStr → Option Value
  | .dict entries, key => lookup entries key
  | _, _ => Option.none

/-- `value.get(key)` on a dict. -/
def get (value : Value) (key : PyStr) : Value := (value.find? key).getD .none

/-- `value.get(key, default)` on a dict. -/
def getD (value : Value) (key : PyStr) (default : Value) : Value := (value.find? key).getD default

/-- `value[key]`: a missing key raises, and so does a value that is not a dict. -/
def item (value : Value) (key : PyStr) : Py Value :=
  match value with
  | .dict _ => match value.find? key with
    | some v => .ok v
    | Option.none => .error .keyError
  | _ => .error .typeError

/-- `value.items()` of a dict. -/
def entries : Value → List (PyStr × Value)
  | .dict entries => entries
  | _ => []

/-- `set(value)` of a dict. -/
def keySet (value : Value) : List PyStr := value.entries.map Prod.fst

def isDict : Value → Bool
  | .dict _ => true
  | _ => false

def isStr : Value → Bool
  | .str _ => true
  | _ => false

def isBool : Value → Bool
  | .bool _ => true
  | _ => false

def isNone : Value → Bool
  | .none => true
  | _ => false

/-- `value is False`. -/
def isFalse : Value → Bool
  | .bool false => true
  | _ => false

/-- `value is True`. -/
def isTrue : Value → Bool
  | .bool true => true
  | _ => false

/-- `value == text` for a string literal: only a `str` equals one. -/
def isText (value : Value) (text : PyStr) : Bool :=
  match value with
  | .str s => s = text
  | _ => false

/-- `value in texts` for a tuple or set of string literals. -/
def isTextOf (value : Value) (texts : List PyStr) : Bool := texts.any value.isText

theorem isText_iff {value : Value} {text : PyStr} :
    value.isText text = true ↔ value = .str text := by
  cases value <;> simp [isText]

/-- The number a `bool`, an `int` or a finite `float` equals. -/
def number? : Value → Option ℚ
  | .bool b => some (if b then 1 else 0)
  | .int n => some n
  | .float x => x.exact
  | _ => Option.none

mutual

/-- `left == right`.  A `bool` equals the number it counts as, dicts compare without regard to
order, and two objects of other types are taken to differ. -/
def pyEq : Value → Value → Bool
  | .none, .none => true
  | .str s, .str t => s = t
  | .list xs, .list ys => pyEqList xs ys
  | .dict es, .dict fs => es.length = fs.length && pyEqEntries es fs
  | .bool b, right => right.number? = some (if b then 1 else 0)
  | .int n, right => right.number? = some (n : ℚ)
  | .float x, .float y => if x.exact = Option.none then x.repr = y.repr && x.repr ≠ "nan"
      else x.exact = y.exact
  | .float x, right => x.exact.isSome && right.number? = x.exact
  | _, _ => false

def pyEqList : List Value → List Value → Bool
  | [], [] => true
  | x :: xs, y :: ys => pyEq x y && pyEqList xs ys
  | _, _ => false

/-- Every entry of the left dict is in the right one. -/
def pyEqEntries : List (PyStr × Value) → List (PyStr × Value) → Bool
  | [], _ => true
  | (key, value) :: es, fs =>
    (match fs.find? fun e => e.1 = key with
      | some e => pyEq value e.2
      | Option.none => false) && pyEqEntries es fs

end

end Value

/-! ## 2. Canonical JSON -/

/-- What the interpreter supplies: `hashlib.sha256(payload).hexdigest()`, the container depth
`json` gives up at, `float(text)` of a JSON number, and the bytes of `bounded_review.py`
itself. -/
structure Runtime where
  sha256 : Bytes → PyStr
  maxDepth : Nat
  float : PyStr → PyFloat
  ownSource : Bytes

def hexDigit (n : Nat) : UInt8 := (if n < 10 then 48 + n else 87 + n).toUInt8

/-- `"\\u{0:04x}".format(n)`. -/
def unicodeEscape (n : Nat) : Bytes :=
  bytes "\\u" ++ [hexDigit (n / 4096 % 16), hexDigit (n / 256 % 16), hexDigit (n / 16 % 16),
    hexDigit (n % 16)]

/-- One code point of a JSON string with `ensure_ascii`: printable ASCII stands for itself, and
what lies beyond the basic plane is written as a surrogate pair. -/
def jsonEscape (v : Nat) : Bytes :=
  if v = 34 then bytes "\\\"" else if v = 92 then bytes "\\\\"
  else if v = 10 then bytes "\\n" else if v = 13 then bytes "\\r" else if v = 9 then bytes "\\t"
  else if v = 12 then bytes "\\f" else if v = 8 then bytes "\\b"
  else if 32 ≤ v ∧ v ≤ 126 then [v.toUInt8]
  else if v < 0x10000 then unicodeEscape v
  else unicodeEscape (0xd800 + (v - 0x10000) / 1024) ++ unicodeEscape (0xdc00 + (v - 0x10000) % 1024)

def jsonString (s : PyStr) : Bytes := [34] ++ s.codePoints.flatMap jsonEscape ++ [34]

/-- `str(n)`: CPython refuses to write more than 4300 digits. -/
def jsonInt (n : Int) : Py Bytes :=
  let text := bytes (toString n)
  if 4300 < (bytes (toString n.natAbs)).length then
    .error (.valueError "Exceeds the limit for integer string conversion")
  else .ok text

/-- `allow_nan=False`: a float without an exact value raises. -/
def jsonFloat (x : PyFloat) : Py Bytes :=
  if x.exact = none then .error (.valueError "Out of range float values are not JSON compliant")
  else .ok x.repr.asciiBytes

/-- `allow_nan=True`, the default: such a float is written as a JavaScript constant. -/
def jsonNumber (x : PyFloat) : Py Bytes :=
  .ok (if x.exact ≠ none then x.repr.asciiBytes else if x.repr = "nan" then bytes "NaN"
    else if x.repr = "inf" then bytes "Infinity" else bytes "-Infinity")

def joinComma : List Bytes → Bytes
  | [] => []
  | [x] => x
  | x :: rest => x ++ [44] ++ joinComma rest

/-- `sort_keys=True`: by code point. -/
def sortByKey {α : Type} (entries : List (PyStr × α)) : List (PyStr × α) :=
  entries.insertionSort fun a b => a.1.le b.1

mutual

/-- `json.dumps(value, sort_keys=True, ensure_ascii=True, separators=(",", ":"))`, at `depth`
containers from the limit; `float` writes the floats, according to `allow_nan`. -/
def dumps (float : PyFloat → Py Bytes) : Nat → Value → Py Bytes
  | _, .none => .ok (bytes "null")
  | _, .bool true => .ok (bytes "true")
  | _, .bool false => .ok (bytes "false")
  | _, .int n => jsonInt n
  | _, .float x => float x
  | _, .str s => .ok (jsonString s)
  | 0, .list _ => .error .recursionError
  | depth + 1, .list items => do
    let texts ← dumpsList float depth items
    .ok ([91] ++ joinComma texts ++ [93])
  | 0, .dict _ => .error .recursionError
  | depth + 1, .dict entries => do
    let texts ← dumpsEntries float depth entries
    .ok ([123] ++ joinComma ((sortByKey texts).map fun e => jsonString e.1 ++ [58] ++ e.2) ++ [125])
  | _, .other => .error .typeError

def dumpsList (float : PyFloat → Py Bytes) : Nat → List Value → Py (List Bytes)
  | _, [] => .ok []
  | depth, item :: items => do
    let text ← dumps float depth item
    let texts ← dumpsList float depth items
    .ok (text :: texts)

def dumpsEntries (float : PyFloat → Py Bytes) :
    Nat → List (PyStr × Value) → Py (List (PyStr × Bytes))
  | _, [] => .ok []
  | depth, (key, value) :: entries => do
    let text ← dumps float depth value
    let texts ← dumpsEntries float depth entries
    .ok ((key, text) :: texts)

end

theorem unicodeEscape_high {high low : Nat} (hh : 0xd800 ≤ high) (hl : 0xdc00 ≤ low)
    (hlow : low < 0xe000) :
    0xd800 + (0x10000 + (high - 0xd800) * 1024 + (low - 0xdc00) - 0x10000) / 1024 = high ∧
    0xdc00 + (0x10000 + (high - 0xd800) * 1024 + (low - 0xdc00) - 0x10000) % 1024 = low := by
  omega

/-- A surrogate is written as its own escape. -/
theorem jsonEscape_of_ge {v : Nat} (hlow : 0x7f ≤ v) (hhigh : v < 0x10000) :
    jsonEscape v = unicodeEscape v := by
  simp only [jsonEscape]
  repeat rw [if_neg (by omega)]
  rw [if_pos hhigh]

theorem jsonEscape_of_gt {v : Nat} (h : 0x10000 ≤ v) : jsonEscape v =
    unicodeEscape (0xd800 + (v - 0x10000) / 1024) ++
      unicodeEscape (0xdc00 + (v - 0x10000) % 1024) := by
  simp only [jsonEscape]
  repeat rw [if_neg (by omega)]

/-- The JSON text of a string does not tell a code point beyond the basic plane from the two
surrogates that encode it. -/
theorem jsonString_reload (s : PyStr) : jsonString s.reload = jsonString s := by
  have h (points : List Nat) :
      (PyStr.rejoin points).flatMap jsonEscape = points.flatMap jsonEscape := by
    fun_induction PyStr.rejoin points with
    | case1 => rfl
    | case2 => rfl
    | case3 high low rest hpair ih =>
      obtain ⟨hh, hh', hl, hl'⟩ := hpair
      obtain ⟨e₁, e₂⟩ := unicodeEscape_high hh hl hl'
      simp only [List.flatMap_cons, ih, jsonEscape_of_ge (v := high) (by omega) (by omega),
        jsonEscape_of_ge (v := low) (by omega) (by omega)]
      rw [jsonEscape_of_gt (by omega), e₁, e₂, List.append_assoc]
    | case4 high low rest hpair ih => rw [List.flatMap_cons, ih, ← List.flatMap_cons]
  rw [jsonString, jsonString, PyStr.reload, h]

/-- Two values with one JSON text, or one error, at every depth. -/
def SameJson (v w : Value) : Prop := ∀ float depth, dumps float depth v = dumps float depth w

theorem sameJson_reload (s : PyStr) : SameJson (.str s.reload) (.str s) := by
  intro float depth
  simp only [dumps, jsonString_reload]

/-- Replacing an entry of a dict by one with the same JSON text keeps the text. -/
theorem sameJson_entry {es fs : List (PyStr × Value)} {key : PyStr} {v w : Value}
    (h : SameJson v w) : SameJson (.dict (es ++ (key, v) :: fs)) (.dict (es ++ (key, w) :: fs)) := by
  have hentries (float : PyFloat → Py Bytes) (depth : Nat) :
      dumpsEntries float depth (es ++ (key, v) :: fs) =
        dumpsEntries float depth (es ++ (key, w) :: fs) := by
    induction es with
    | nil => simp only [List.nil_append, dumpsEntries, h float depth]
    | cons e es ih => simp only [List.cons_append, dumpsEntries, ih]
  intro float depth
  cases depth with
  | zero => simp only [dumps]
  | succ depth => simp only [dumps, hentries float depth]

/-- What `json.dumps` raises: nesting too deep, a number it cannot write, an object of another
type. -/
def JsonError : PyError → Prop
  | .recursionError | .valueError _ | .typeError => True
  | _ => False

/-- The same, with the texts of the two errors for numbers. -/
inductive DumpsError : PyError → Prop
  | depth : DumpsError .recursionError
  | type : DumpsError .typeError
  | digits : DumpsError (.valueError "Exceeds the limit for integer string conversion")
  | range : DumpsError (.valueError "Out of range float values are not JSON compliant")

theorem DumpsError.jsonError {e : PyError} (h : DumpsError e) : JsonError e := by
  cases h <;> trivial

mutual

theorem dumps_raises : (depth : Nat) → (value : Value) → Raises DumpsError (dumps jsonFloat depth value)
  | _, .none => raises_ok _
  | _, .bool true => raises_ok _
  | _, .bool false => raises_ok _
  | _, .int n => by
    unfold dumps jsonInt
    split
    · exact raises_error .digits
    · exact raises_ok _
  | _, .float x => by
    simp only [dumps, jsonFloat]
    split
    · exact raises_error .range
    · exact raises_ok _
  | _, .str s => raises_ok _
  | 0, .list _ => raises_error .depth
  | depth + 1, .list items => (dumpsList_raises depth items).bind fun _ _ => raises_ok _
  | 0, .dict _ => raises_error .depth
  | depth + 1, .dict entries => (dumpsEntries_raises depth entries).bind fun _ _ => raises_ok _
  | _, .other => raises_error .type

theorem dumpsList_raises : (depth : Nat) → (items : List Value) →
    Raises DumpsError (dumpsList jsonFloat depth items)
  | _, [] => raises_ok _
  | depth, item :: items => (dumps_raises depth item).bind fun _ _ =>
    (dumpsList_raises depth items).bind fun _ _ => raises_ok _

theorem dumpsEntries_raises : (depth : Nat) → (entries : List (PyStr × Value)) →
    Raises DumpsError (dumpsEntries jsonFloat depth entries)
  | _, [] => raises_ok _
  | depth, (_, value) :: entries => (dumps_raises depth value).bind fun _ _ =>
    (dumpsEntries_raises depth entries).bind fun _ _ => raises_ok _

end

/-- `canonical(value)`. -/
def canonical (rt : Runtime) (value : Value) : Py Bytes := dumps jsonFloat rt.maxDepth value

theorem canonical_raises (rt : Runtime) (value : Value) : Raises JsonError (canonical rt value) :=
  (dumps_raises rt.maxDepth value).mono fun _ h => h.jsonError

/-! ## 3. The round trip -/

/-- `entries[key] = value`: in place if the key is there, else at the end. -/
def dictSet (entries : List (PyStr × Value)) (key : PyStr) (value : Value) :
    List (PyStr × Value) :=
  if key ∈ entries.map Prod.fst then entries.map fun e => if e.1 = key then (key, value) else e
  else entries ++ [(key, value)]

/-- `entries.update(changes)`. -/
def update (entries changes : List (PyStr × Value)) : List (PyStr × Value) :=
  changes.foldl (fun es e => dictSet es e.1 e.2) entries

mutual

/-- `json.loads(canonical(value))` when `canonical` does not raise. -/
def Value.reload : Value → Value
  | .str s => .str s.reload
  | .list items => .list (reloadList items)
  | .dict entries =>
    .dict (update [] ((sortByKey (reloadEntries entries)).map fun e => (e.1.reload, e.2)))
  | value => value

def reloadList : List Value → List Value
  | [] => []
  | item :: items => item.reload :: reloadList items

def reloadEntries : List (PyStr × Value) → List (PyStr × Value)
  | [] => []
  | (key, value) :: entries => (key, value.reload) :: reloadEntries entries

end

theorem lookup_dictSet {entries : List (PyStr × Value)} {key key' : PyStr} {value : Value} :
    lookup (dictSet entries key value) key' =
      if key = key' then some value else lookup entries key' := by
  unfold dictSet
  split
  · next hmem =>
    have hmap (es : List (PyStr × Value)) :
        lookup (es.map fun e => if e.1 = key then (key, value) else e) key' =
          if key = key' ∧ key ∈ es.map Prod.fst then some value else lookup es key' := by
      induction es with
      | nil => simp [lookup]
      | cons e es ih =>
        simp only [List.map_cons, lookup, ih, List.mem_cons]
        by_cases hkey : key = key'
        · subst hkey
          by_cases he : e.1 = key
          · by_cases hes : key ∈ es.map Prod.fst
            · simp [he, hes]
            · have hnone : lookup es key = none := by
                rw [← Option.not_isSome_iff_eq_none, lookup_isSome]
                exact hes
              simp [he, hes, hnone]
          · by_cases hes : key ∈ es.map Prod.fst
            · simp [he, hes]
            · simp [he, hes, Ne.symm he]
        · by_cases he : e.1 = key
          · simp [hkey, he]
          · simp [hkey, he]
    rw [hmap]
    simp only [hmem, and_true]
  · next hmem =>
    have happend (es : List (PyStr × Value)) : lookup (es ++ [(key, value)]) key' =
        if key = key' then some value else lookup es key' := by
      induction es with
      | nil => simp [lookup]
      | cons e es ih =>
        rw [List.cons_append, lookup, ih]
        split <;> simp [lookup]
    exact happend entries

/-- Inserting keeps the last entry of each key the last. -/
theorem lookup_sortByKey {α : Type} (entries : List (PyStr × α)) (key : PyStr) :
    lookup (sortByKey entries) key = lookup entries key := by
  have hinsert (e : PyStr × α) (es : List (PyStr × α)) :
      lookup (es.orderedInsert (fun a b => a.1.le b.1) e) key = lookup (e :: es) key := by
    induction es with
    | nil => rfl
    | cons f es ih =>
      rw [List.orderedInsert]
      split
      · rfl
      · next hle =>
        have hne : ¬ (e.1 = key ∧ f.1 = key) := by
          rintro ⟨rfl, hf⟩
          exact hle (hf ▸ (List.le_refl e.1.codePoints : e.1.le e.1))
        rw [lookup, ih]
        simp only [lookup]
        by_cases he : e.1 = key
        · have hf : f.1 ≠ key := fun hf => hne ⟨he, hf⟩
          simp [he, hf]
        · simp [he]
  induction entries with
  | nil => rfl
  | cons e es ih =>
    rw [sortByKey, List.insertionSort_cons, hinsert, lookup, lookup]
    exact congrArg (Option.or · _) ih

theorem lookup_reloadEntries (entries : List (PyStr × Value)) (key : PyStr) :
    lookup (reloadEntries entries) key = (lookup entries key).map Value.reload := by
  induction entries with
  | nil => rfl
  | cons e es ih =>
    obtain ⟨k, v⟩ := e
    rw [reloadEntries, lookup, lookup, ih]
    cases lookup es key with
    | none => by_cases hk : k = key <;> simp [hk]
    | some w => simp

theorem lookup_update (entries changes : List (PyStr × Value)) (key : PyStr) :
    lookup (update entries changes) key = (lookup changes key).or (lookup entries key) := by
  induction changes generalizing entries with
  | nil => rfl
  | cons e es ih =>
    rw [update, List.foldl_cons, ← update, ih, lookup, lookup_dictSet]
    cases lookup es key with
    | none => by_cases he : e.1 = key <;> simp [he]
    | some v => simp

theorem lookup_filter_ne {entries : List (PyStr × Value)} {key key' : PyStr} (h : key ≠ key') :
    lookup (entries.filter fun e => e.1 ≠ key') key = lookup entries key := by
  induction entries with
  | nil => rfl
  | cons e es ih =>
    by_cases he : e.1 = key'
    · have hne : ¬ key' = key := fun hk => h hk.symm
      rw [List.filter_cons_of_neg (by simp [he]), ih, lookup]
      simp [he, hne]
    · rw [List.filter_cons_of_pos (by simp [he]), lookup, lookup, ih]

/-- Reading a dict back from JSON keeps the entry of a key, if no key has surrogates to join. -/
theorem lookup_reload {entries : List (PyStr × Value)} (hkeys : ∀ e ∈ entries, e.1.reload = e.1)
    (key : PyStr) : lookup (Value.reload (.dict entries)).entries key =
      (lookup entries key).map Value.reload := by
  have hfst (es : List (PyStr × Value)) : (reloadEntries es).map Prod.fst = es.map Prod.fst := by
    induction es with
    | nil => rfl
    | cons e es ih => simp [reloadEntries, ih]
  have hsorted : ∀ e ∈ sortByKey (reloadEntries entries), (e.1.reload, e.2) = id e := by
    intro e he
    have hmem : e.1 ∈ entries.map Prod.fst := by
      rw [← hfst]
      exact List.mem_map_of_mem ((List.perm_insertionSort _ _).mem_iff.mp he)
    obtain ⟨f, hf, hfe⟩ := List.mem_map.mp hmem
    exact Prod.ext (hfe ▸ hkeys f hf) rfl
  simp only [Value.reload, Value.entries]
  rw [List.map_congr_left hsorted, List.map_id, lookup_update, lookup_sortByKey,
    lookup_reloadEntries]
  simp [lookup]

example : dumps jsonFloat 3 (.dict [("b", .list [.int (-7), .none]), ("a", .str "x\"y")]) =
    .ok (bytes "\x7b\"a\":\"x\\\"y\",\"b\":[-7,null]\x7d") := by decide +kernel

end Supplementary
