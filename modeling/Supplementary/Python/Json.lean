/-
# `json.loads`

The scripts read JSON back with an `object_pairs_hook` that refuses a repeated key, and one of
them with a `parse_constant` that refuses `NaN` and the infinities.  `Hooks` are those two
choices; the scanner below is the interpreter's own, on code points.

The scanner counts down on `fuel`, twice the length of the text and a little more: every second
call of it consumes a character, so it never runs out.  `depth` is the number of containers left
before the interpreter gives up.
-/
import Supplementary.Python.Value

namespace Supplementary.Json

open Supplementary

/-- What a caller of `json.loads` hooks in: the error that a repeated key raises, and the one that
a constant raises, if it does. -/
structure Hooks where
  duplicate : PyError
  constant : Option PyError

/-- `WHITESPACE.match(text).end()`. -/
def skipSpace : List Nat → List Nat
  | [] => []
  | c :: rest => if c = 32 ∨ c = 9 ∨ c = 10 ∨ c = 13 then skipSpace rest else c :: rest

/-! ## 1. Strings -/

def hexValue (c : Nat) : Option Nat :=
  if 48 ≤ c ∧ c ≤ 57 then some (c - 48)
  else if 97 ≤ c ∧ c ≤ 102 then some (c - 87)
  else if 65 ≤ c ∧ c ≤ 70 then some (c - 55)
  else none

/-- The four digits of a `\u` escape. -/
def hexFour (a b c d : Nat) : Option Nat := do
  return (((← hexValue a) * 16 + (← hexValue b)) * 16 + (← hexValue c)) * 16 + (← hexValue d)

/-- The code point after a backslash other than `\u`. -/
def escapedChar (c : Nat) : Option Nat :=
  if c = 34 ∨ c = 92 ∨ c = 47 then some c
  else if c = 98 then some 8
  else if c = 102 then some 12
  else if c = 110 then some 10
  else if c = 114 then some 13
  else if c = 116 then some 9
  else none

/-- One element of a string literal: the code units it stands for and the rest of the text.  The
escapes of a high and a low surrogate in a row stand for one code point. -/
def scanEscape : List Nat → Py (Nat × List Nat)
  | 117 :: a :: b :: c :: d :: rest =>
    match hexFour a b c d with
    | none => .error .jsonDecodeError
    | some high =>
      if 0xd800 ≤ high ∧ high < 0xdc00 then
        match rest with
        | 92 :: 117 :: e :: f :: g :: h :: rest' =>
          match hexFour e f g h with
          | none => .error .jsonDecodeError
          | some low =>
            if 0xdc00 ≤ low ∧ low < 0xe000 then
              .ok (0x10000 + (high - 0xd800) * 1024 + (low - 0xdc00), rest')
            else .ok (high, rest)
        | _ => .ok (high, rest)
      else .ok (high, rest)
  | c :: rest =>
    match escapedChar c with
    | none => .error .jsonDecodeError
    | some v => .ok (v, rest)
  | [] => .error .jsonDecodeError

/-- `scanstring(text, strict=True)` after the opening quote. -/
def scanString : (fuel : Nat) → List Nat → Py (List Nat × List Nat)
  | 0, _ | _, [] => .error .jsonDecodeError
  | fuel + 1, c :: rest =>
    if c = 34 then .ok ([], rest)
    else if c < 32 then .error .jsonDecodeError
    else do
      let (v, rest) ← if c = 92 then scanEscape rest else .ok (c, rest)
      let (points, rest) ← scanString fuel rest
      .ok (v :: points, rest)

/-! ## 2. Numbers -/

def isDigit (c : Nat) : Bool := 48 ≤ c && c ≤ 57

def decimal (digits : List Nat) : Nat := digits.foldl (fun n d => 10 * n + (d - 48)) 0

/-- `int(text)`: CPython refuses to read more than 4300 digits. -/
def intOf (negative : Bool) (digits : List Nat) : Py Value :=
  if 4300 < digits.length then .error (.valueError "Exceeds the limit for integer string conversion")
  else .ok (.int (if negative then -(decimal digits : Int) else decimal digits))

/-- The fraction of a number: empty without a point and a digit after it. -/
def scanFraction : List Nat → List Nat × List Nat
  | 46 :: rest =>
    match rest.span isDigit with
    | ([], _) => ([], 46 :: rest)
    | (digits, rest) => (46 :: digits, rest)
  | text => ([], text)

/-- The exponent of a number: empty without a digit in it. -/
def scanExponent : List Nat → List Nat × List Nat
  | e :: rest =>
    if e = 101 ∨ e = 69 then
      let (sign, after) := match rest with
        | s :: after => if s = 43 ∨ s = 45 then ([s], after) else ([], rest)
        | [] => ([], [])
      match after.span isDigit with
      | ([], _) => ([], e :: rest)
      | (digits, after) => (e :: sign ++ digits, after)
    else ([], e :: rest)
  | [] => ([], [])

/-- The digits before the point: a zero, or digits that do not start with one. -/
def scanDigits : List Nat → Py (List Nat × List Nat)
  | c :: rest =>
    if c = 48 then .ok ([48], rest)
    else if isDigit c then .ok ((c :: rest).span isDigit)
    else .error .jsonDecodeError
  | [] => .error .jsonDecodeError

/-- `NUMBER_RE.match(text)`. -/
def scanNumber (rt : Runtime) (negative : Bool) (text : List Nat) : Py (Value × List Nat) := do
  let (digits, rest) ← scanDigits text
  let (fraction, rest) := scanFraction rest
  let (exponent, rest) := scanExponent rest
  if fraction = [] ∧ exponent = [] then .ok (← intOf negative digits, rest)
  else
    let sign := if negative then [45] else []
    .ok (.float (rt.float ⟨sign ++ digits ++ fraction ++ exponent⟩), rest)

/-! ## 3. Values -/

/-- The hook on a finished object. -/
def Hooks.object (hooks : Hooks) (pairs : List (PyStr × Value)) : Py Value :=
  if (pairs.map Prod.fst).Nodup then .ok (.dict pairs) else .error hooks.duplicate

/-- `parse_constant(name)`, by default the float of that name. -/
def Hooks.float (hooks : Hooks) (repr : PyStr) : Py Value :=
  match hooks.constant with
  | some e => .error e
  | none => .ok (.float ⟨repr, none⟩)

/-- A literal, a constant or a number. -/
def scanScalar (rt : Runtime) (hooks : Hooks) : List Nat → Py (Value × List Nat)
  | 110 :: 117 :: 108 :: 108 :: rest => .ok (.none, rest)
  | 116 :: 114 :: 117 :: 101 :: rest => .ok (.bool true, rest)
  | 102 :: 97 :: 108 :: 115 :: 101 :: rest => .ok (.bool false, rest)
  | 78 :: 97 :: 78 :: rest => do .ok (← hooks.float "nan", rest)
  | 73 :: 110 :: 102 :: 105 :: 110 :: 105 :: 116 :: 121 :: rest => do
    .ok (← hooks.float "inf", rest)
  | 45 :: 73 :: 110 :: 102 :: 105 :: 110 :: 105 :: 116 :: 121 :: rest => do
    .ok (← hooks.float "-inf", rest)
  | 45 :: rest => scanNumber rt true rest
  | text => scanNumber rt false text

mutual

/-- `scan_once(text)`. -/
def scanValue (rt : Runtime) (hooks : Hooks) :
    (fuel depth : Nat) → List Nat → Py (Value × List Nat)
  | 0, _, _ => .error .recursionError
  | _, _, [] => .error .jsonDecodeError
  | fuel + 1, depth, c :: rest =>
    if c = 34 then do
      let (points, rest) ← scanString (rest.length + 1) rest
      .ok (.str ⟨points⟩, rest)
    else if c = 91 then
      match depth with
      | 0 => .error .recursionError
      | depth + 1 => do
        let (items, rest) ← scanList rt hooks fuel depth (skipSpace rest)
        .ok (.list items, rest)
    else if c = 123 then
      match depth with
      | 0 => .error .recursionError
      | depth + 1 => do
        let (pairs, rest) ← scanDict rt hooks fuel depth (skipSpace rest)
        .ok (← hooks.object pairs, rest)
    else scanScalar rt hooks (c :: rest)

/-- What follows the bracket: it closes at once, or there are items. -/
def scanList (rt : Runtime) (hooks : Hooks) :
    (fuel depth : Nat) → List Nat → Py (List Value × List Nat)
  | 0, _, _ => .error .recursionError
  | fuel + 1, depth, text =>
    match text with
    | 93 :: rest => .ok ([], rest)
    | text => scanItems rt hooks fuel depth text

def scanItems (rt : Runtime) (hooks : Hooks) :
    (fuel depth : Nat) → List Nat → Py (List Value × List Nat)
  | 0, _, _ => .error .recursionError
  | fuel + 1, depth, text => do
    let (item, rest) ← scanValue rt hooks fuel depth text
    match skipSpace rest with
    | 93 :: rest => .ok ([item], rest)
    | 44 :: rest => do
      let (items, rest) ← scanItems rt hooks fuel depth (skipSpace rest)
      .ok (item :: items, rest)
    | _ => .error .jsonDecodeError

/-- What follows the brace: it closes at once, or there are pairs. -/
def scanDict (rt : Runtime) (hooks : Hooks) :
    (fuel depth : Nat) → List Nat → Py (List (PyStr × Value) × List Nat)
  | 0, _, _ => .error .recursionError
  | fuel + 1, depth, text =>
    match text with
    | 125 :: rest => .ok ([], rest)
    | text => scanPairs rt hooks fuel depth text

def scanPairs (rt : Runtime) (hooks : Hooks) :
    (fuel depth : Nat) → List Nat → Py (List (PyStr × Value) × List Nat)
  | 0, _, _ => .error .recursionError
  | fuel + 1, depth, text =>
    match text with
    | 34 :: rest => do
      let (points, rest) ← scanString (rest.length + 1) rest
      match skipSpace rest with
      | 58 :: rest => do
        let (item, rest) ← scanValue rt hooks fuel depth (skipSpace rest)
        match skipSpace rest with
        | 125 :: rest => .ok ([(⟨points⟩, item)], rest)
        | 44 :: rest => do
          let (pairs, rest) ← scanPairs rt hooks fuel depth (skipSpace rest)
          .ok ((⟨points⟩, item) :: pairs, rest)
        | _ => .error .jsonDecodeError
      | _ => .error .jsonDecodeError
    | _ => .error .jsonDecodeError

end

/-- `json.loads(text, object_pairs_hook=..., parse_constant=...)`. -/
def loads (rt : Runtime) (hooks : Hooks) (text : PyStr) : Py Value := do
  if text.codePoints.head? = some 0xfeff then .error .jsonDecodeError
  else
    let (value, rest) ←
      scanValue rt hooks (2 * text.length + 4) rt.maxDepth (skipSpace text.codePoints)
    if skipSpace rest = [] then .ok value else .error .jsonDecodeError

end Supplementary.Json
