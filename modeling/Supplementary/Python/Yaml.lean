/-
# What a YAML document loads as

`yaml.safe_load` returns `None`, numbers, texts, lists, mappings, sets and a few other objects.
The keys of a mapping need not be texts; one that is not is known here by its `repr`, so that two
such keys which Python calls equal although they are written differently (`1` and `True`) count as
two.  A mapping is kept as its entries in the order they are set: a later one replaces the value of
an earlier one with its key, and `items` has each key once, where it was first set.
-/
import Supplementary.Python.Text
import Supplementary.Python.Token
import Supplementary.Python.Value

namespace Supplementary

/-- A key of a mapping: a `str`, or another object by its `repr`. -/
inductive Key
  | str (s : PyStr)
  | other (repr : PyStr)
  deriving DecidableEq

/-- What `yaml.safe_load` returns; `other` is an object none of whose contents are looked at (a
date, bytes, a tuple), and its truth value. -/
inductive Yaml
  | none
  | bool (b : Bool)
  | int (n : Int)
  | float (x : PyFloat)
  | str (s : PyStr)
  | list (items : List Yaml)
  | dict (entries : List (Key × Yaml))
  | set (items : List Key)
  | other (repr : PyStr) (truthy : Bool)

/-- The entries of a mapping, as they are set. -/
abbrev Fields := List (Key × Yaml)

/-! ## 1. Mappings -/

section Mappings

variable {α : Type} {entries : List (Key × α)} {key : Key} {value : α}

/-- The value of a key: the last that was set. -/
def entry : List (Key × α) → Key → Option α
  | [], _ => none
  | e :: entries, key => (entry entries key).or (if e.1 = key then some e.2 else none)

/-- `mapping.items()`. -/
def items : List (Key × α) → List (Key × α)
  | [] => []
  | e :: entries =>
    (e.1, (entry entries e.1).getD e.2) :: (items entries).filter fun other => other.1 ≠ e.1

theorem mem_items : (key, value) ∈ items entries ↔ entry entries key = some value := by
  induction entries with
  | nil => simp [items, entry]
  | cons e entries ih =>
    rw [items, List.mem_cons, List.mem_filter, ih, entry]
    by_cases heq : e.1 = key
    · subst heq
      cases entry entries e.1 <;> simp [Prod.ext_iff, eq_comm]
    · have hne : key ≠ e.1 := fun h => heq h.symm
      simp [heq, hne]

/-- A mapping has each key once. -/
theorem nodup_items (entries : List (Key × α)) : ((items entries).map Prod.fst).Nodup := by
  induction entries with
  | nil => exact List.nodup_nil
  | cons e entries ih =>
    rw [items, List.map_cons, List.nodup_cons]
    constructor
    · simp
    · exact ih.sublist (List.filter_sublist.map _)

end Mappings

/-- `mapping.get(key)`. -/
def field (fields : Fields) (key : PyStr) : Yaml := (entry fields (.str key)).getD .none

/-- `mapping.get(key, default)`. -/
def fieldD (fields : Fields) (key : PyStr) (default : Yaml) : Yaml :=
  (entry fields (.str key)).getD default

/-- `key in mapping`. -/
def hasField (fields : Fields) (key : PyStr) : Bool := (entry fields (.str key)).isSome

/-- A key as a text: `re` and `str.join` raise on any other. -/
def Key.text : Key → Py PyStr
  | .str s => .ok s
  | .other _ => .error .typeError

/-! ## 2. Values -/

namespace PyStr

/-- One character in the `repr` of a text.  Every character beyond Latin-1 other than a surrogate is
taken to be printable. -/
def reprChar (quote c : Nat) : PyStr :=
  let digit (n : Nat) : Nat := (hexDigit (n % 16)).toNat
  if c = quote || c = 92 then ⟨[92, c]⟩
  else if c = 9 then "\\t"
  else if c = 10 then "\\n"
  else if c = 13 then "\\r"
  else if c < 32 || (127 ≤ c && c ≤ 160) || c = 173 then ⟨[92, 120, digit (c / 16), digit c]⟩
  else if 0xd800 ≤ c && c ≤ 0xdfff then
    ⟨[92, 117, digit (c / 4096), digit (c / 256), digit (c / 16), digit c]⟩
  else ⟨[c]⟩

/-- `repr(text)`. -/
def repr (s : PyStr) : PyStr :=
  let quote := if s.codePoints.contains 39 && !s.codePoints.contains 34 then 34 else 39
  ⟨quote :: s.codePoints.flatMap (fun c => (reprChar quote c).codePoints) ++ [quote]⟩

end PyStr

def Key.repr : Key → PyStr
  | .str s => s.repr
  | .other repr => repr

/-- The object that a key is. -/
def Key.value : Key → Yaml
  | .str s => .str s
  | .other repr => .other repr true

namespace Yaml

instance : Inhabited Yaml := ⟨.none⟩

mutual

/-- `repr(value)`. -/
def repr : Yaml → PyStr
  | .none => "None"
  | .bool b => if b then "True" else "False"
  | .int n => PyStr.ofInt n
  | .float x => x.repr
  | .str s => s.repr
  | .list xs => "[" ++ PyStr.join ", " (reprList xs) ++ "]"
  | .dict entries => "\x7b" ++ PyStr.join ", " (reprEntries entries) ++ "\x7d"
  | .set [] => "set()"
  | .set items => "\x7b" ++ PyStr.join ", " (items.map Key.repr) ++ "\x7d"
  | .other repr _ => repr

def reprList : List Yaml → List PyStr
  | [] => []
  | x :: rest => repr x :: reprList rest

def reprEntries : List (Key × Yaml) → List PyStr
  | [] => []
  | (key, value) :: rest => (key.repr ++ ": " ++ repr value) :: reprEntries rest

end

/-- `str(value)`. -/
def text : Yaml → PyStr
  | .str s => s
  | value => value.repr

/-- `bool(value)`. -/
def truthy : Yaml → Bool
  | .none => false
  | .bool b => b
  | .int n => n ≠ 0
  | .float x => x.exact ≠ some 0
  | .str s => s.codePoints ≠ []
  | .list items => !items.isEmpty
  | .dict entries => !entries.isEmpty
  | .set items => !items.isEmpty
  | .other _ truthy => truthy

/-- `value or default`. -/
def orElse (value default : Yaml) : Yaml := if value.truthy then value else default

def isNone : Yaml → Bool
  | .none => true
  | _ => false

def isDict : Yaml → Bool
  | .dict _ => true
  | _ => false

def isStr : Yaml → Bool
  | .str _ => true
  | _ => false

/-- A text of the given form. -/
def isStrOf (form : PyStr → Bool) : Yaml → Bool
  | .str s => form s
  | _ => false

def isBool : Yaml → Bool
  | .bool _ => true
  | _ => false

/-- `value is True`. -/
def isTrue : Yaml → Bool
  | .bool true => true
  | _ => false

/-- `value == 1`. -/
def isOne : Yaml → Bool
  | .bool b => b
  | .int n => n = 1
  | .float x => x.exact = some 1
  | _ => false

/-- `value == text`. -/
def isText (value : Yaml) (text : PyStr) : Bool :=
  match value with
  | .str s => s = text
  | _ => false

theorem isText_iff {value : Yaml} {text : PyStr} :
    value.isText text = true ↔ value = .str text := by
  cases value <;> simp [isText]

/-- The value as a key; what cannot be hashed is none. -/
def key? : Yaml → Option Key
  | .str s => some (.str s)
  | .list _ | .dict _ | .set _ => Option.none
  | value => some (.other value.repr)

/-- `value in {...}` for a set of texts. -/
def inTexts (value : Yaml) (texts : List PyStr) : Py Bool :=
  match value.key? with
  | Option.none => .error .typeError
  | some _ => .ok (texts.any value.isText)

/-- `value.get(key)` for a value that need not be a mapping. -/
def get (value : Yaml) (key : Yaml) : Py Yaml :=
  match value, key.key? with
  | .dict entries, some key => .ok ((entry entries key).getD .none)
  | .dict _, Option.none => .error .typeError
  | _, _ => .error .attributeError

/-- `value[key]` for a text. -/
def item (value : Yaml) (key : PyStr) : Py Yaml :=
  match value with
  | .dict entries => match entry entries (.str key) with
    | some v => .ok v
    | Option.none => .error .keyError
  | _ => .error .typeError

/-- A list that holds the text. -/
def listHas (text : PyStr) : Yaml → Bool
  | .list xs => xs.any fun x => x.isText text
  | _ => false

/-- `for x in value`. -/
def iterate : Yaml → Py (List Yaml)
  | .list xs => .ok xs
  | .str s => .ok (s.codePoints.map fun c => .str ⟨[c]⟩)
  | .dict entries => .ok ((items entries).map fun e => e.1.value)
  | .set items => .ok (items.map Key.value)
  | _ => .error .typeError

/-- `text in value`. -/
def contains (value : Yaml) (text : PyStr) : Py Bool :=
  match value with
  | .list xs => .ok (xs.any fun x => x.isText text)
  | .str s => .ok (s.contains text)
  | .dict entries => .ok (hasField entries text)
  | .set items => .ok (items.contains (.str text))
  | _ => .error .typeError

/-- The texts of a list of texts. -/
def textsOf : List Yaml → Option (List PyStr)
  | [] => some []
  | .str s :: rest => (textsOf rest).map (s :: ·)
  | _ => Option.none

def strings? : Yaml → Option (List PyStr)
  | .list xs => textsOf xs
  | _ => Option.none

theorem textsOf_eq_some {xs : List Yaml} {texts : List PyStr} :
    textsOf xs = some texts ↔ xs = texts.map .str := by
  induction xs generalizing texts with
  | nil => simp [textsOf, eq_comm]
  | cons x xs ih =>
    cases x with
    | str s =>
      rw [textsOf, Option.map_eq_some_iff]
      cases texts with
      | nil => simp
      | cons t rest => simp [ih, and_comm]
    | _ => cases texts <;> simp [textsOf]

theorem strings?_eq_some {value : Yaml} {texts : List PyStr} :
    value.strings? = some texts ↔ value = .list (texts.map .str) := by
  cases value with
  | list xs => rw [strings?, Yaml.list.injEq, textsOf_eq_some]
  | _ => simp [strings?]

/-! ## 3. Equality -/

def number? : Yaml → Option ℚ
  | .bool b => some (if b then 1 else 0)
  | .int n => some n
  | .float x => x.exact
  | _ => Option.none

/-- `value == n` for an integer literal. -/
def equalsInt (value : Yaml) (n : Int) : Bool := value.number? = some (n : ℚ)

mutual

/-- `left == right`, mappings and sets without regard to order; two objects none of whose contents
are looked at are equal when they read the same. -/
def pyEq : Yaml → Yaml → Bool
  | .none, .none => true
  | .str s, .str t => s = t
  | .list xs, .list ys => pyEqList xs ys
  | .dict es, .dict fs => (items es).length = (items fs).length && pyEqEntries es fs
  | .set xs, .set ys => xs.all (fun x => x ∈ ys) && ys.all fun y => y ∈ xs
  | .other s _, .other t _ => s = t
  | .bool b, right => right.number? = some (if b then 1 else 0)
  | .int n, right => right.number? = some (n : ℚ)
  | .float x, .float y => if x.exact = Option.none then x.repr = y.repr && x.repr ≠ "nan"
      else x.exact = y.exact
  | .float x, right => x.exact.isSome && right.number? = x.exact
  | _, _ => false

def pyEqList : List Yaml → List Yaml → Bool
  | [], [] => true
  | x :: xs, y :: ys => pyEq x y && pyEqList xs ys
  | _, _ => false

/-- Every entry of the left mapping that a later one does not replace is in the right one. -/
def pyEqEntries : List (Key × Yaml) → List (Key × Yaml) → Bool
  | [], _ => true
  | (key, value) :: es, fs =>
    (decide (key ∈ es.map Prod.fst) || match entry fs key with
      | some found => pyEq value found
      | Option.none => false) && pyEqEntries es fs

end

end Yaml

end Supplementary
