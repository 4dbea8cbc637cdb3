/-
# Instants and their texts

`epoch` and `stamp` of the continuation scripts: an instant is a number of seconds since 1970, and
its text has the form `%Y-%m-%dT%H:%M:%SZ`.  `epoch` accepts no other way to write an instant, because
it compares the text with the one that `strftime` gives back.  `strftime` does not pad a year below
1000 on the platforms of the workflows, so such a year is refused.
-/
import Supplementary.Python.Value

namespace Supplementary.Clock

def isLeap (y : Nat) : Bool := y % 4 = 0 && (y % 100 ≠ 0 || y % 400 = 0)

/-- The days of a month; zero for what is no month. -/
def daysInMonth (y m : Nat) : Nat :=
  match m with
  | 2 => if isLeap y then 29 else 28
  | 4 | 6 | 9 | 11 => 30
  | 1 | 3 | 5 | 7 | 8 | 10 | 12 => 31
  | _ => 0

def daysBeforeYear (y : Nat) : Nat := (y - 1) * 365 + (y - 1) / 4 - (y - 1) / 100 + (y - 1) / 400

def daysBeforeMonth (y m : Nat) : Nat := ((List.range (m - 1)).map fun i => daysInMonth y (i + 1)).sum

/-- `date.toordinal()`, which is 719163 on the first of January 1970. -/
def ordinal (y m d : Nat) : Nat := daysBeforeYear y + daysBeforeMonth y m + d

def digit (c : Nat) : Option Nat := if 48 ≤ c ∧ c ≤ 57 then some (c - 48) else none

def number (digits : List Nat) : Option Nat :=
  (digits.mapM digit).map fun ds => ds.foldl (fun n d => 10 * n + d) 0

/-- The fields of a text of the exact form. -/
def fields : List Nat → Option (Nat × Nat × Nat × Nat × Nat × Nat)
  | [y₁, y₂, y₃, y₄, 45, m₁, m₂, 45, d₁, d₂, 84, h₁, h₂, 58, n₁, n₂, 58, s₁, s₂, 90] => do
    pure (← number [y₁, y₂, y₃, y₄], ← number [m₁, m₂], ← number [d₁, d₂], ← number [h₁, h₂],
      ← number [n₁, n₂], ← number [s₁, s₂])
  | _ => none

/-- `epoch(value)`. -/
def epoch : Value → Py Int
  | .str text =>
    match fields text.codePoints with
    | some (y, m, d, h, n, s) =>
      if 1000 ≤ y ∧ 1 ≤ d ∧ d ≤ daysInMonth y m ∧ h < 24 ∧ n < 60 ∧ s < 60 then
        .ok (86400 * ((ordinal y m d : Int) - 719163) + 3600 * h + 60 * n + s)
      else .error (.valueError "timestamp")
    | none => .error (.valueError "timestamp")
  | _ => .error .typeError

/-- The year of an ordinal, and the day in it from zero on. -/
def yearOf (n : Nat) : Nat × Nat :=
  let r := (n - 1) % 146097
  let r₁ := r % 36524
  let r₂ := r₁ % 1461
  let y := (n - 1) / 146097 * 400 + r / 36524 * 100 + r₁ / 1461 * 4 + r₂ / 365
  if r₂ / 365 = 4 ∨ r / 36524 = 4 then (y, 364 + (if isLeap y then 1 else 0))
  else (y + 1, r₂ % 365)

/-- The month and the day of a day in a year. -/
def monthOf (y day : Nat) : Nat × Nat :=
  let m := ((List.range 12).filter fun i => daysBeforeMonth y (i + 1) ≤ day).length
  (m, day - daysBeforeMonth y m + 1)

/-- A number with leading zeros. -/
def padded (width n : Nat) : List Nat :=
  (List.range width).reverse.map fun i => 48 + n / 10 ^ i % 10

/-- `stamp(datetime.fromtimestamp(seconds, utc))`; a year after 9999 is out of range. -/
def stamp (seconds : Int) : Py PyStr :=
  let days := (seconds / 86400 + 719163).toNat
  let rest := (seconds % 86400).toNat
  let (y, day) := yearOf days
  let (m, d) := monthOf y day
  if 9999 < y then .error (.valueError "year is out of range")
  else .ok ⟨padded 4 y ++ [45] ++ padded 2 m ++ [45] ++ padded 2 d ++ [84] ++
    padded 2 (rest / 3600) ++ [58] ++ padded 2 (rest / 60 % 60) ++ [58] ++ padded 2 (rest % 60) ++ [90]⟩

example : epoch (.str "2026-03-01T00:00:59Z") = .ok 1772323259 ∧
    stamp 1772323259 = .ok "2026-03-01T00:00:59Z" ∧ stamp 951782400 = .ok "2000-02-29T00:00:00Z" := by
  decide +kernel

end Supplementary.Clock
