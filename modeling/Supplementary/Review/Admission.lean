/-
# The admission ledger

`Admission` is the serial, one-use ledger a protected caller keeps while it runs the reviews of a
manifest: `reserve` before each review, `finish` after it.  A call either passes all its checks
and updates four coupled counters, or raises and sets `failed` for good.

`reserve_cases` and `finish_cases` say once what a call can do; everything about runs is derived
from them and the rules of `Trace` (`Ledger`, `run_ledger`).
-/
import Supplementary.Review.Plan
import Supplementary.Lib.Trace

namespace Supplementary.Review

open Supplementary Trace

/-! ## 1. The ledger -/

/-- `len(value)`. -/
def pyLen : Value → Py Nat
  | .str s => .ok s.length
  | .list items => .ok items.length
  | .dict entries => .ok entries.length
  | _ => .error .typeError

/-- The largest clock, `2**63 - 1`. -/
def maxClock : Int := 2 ^ 63 - 1

/-- The attributes of an `Admission`. -/
structure Admission where
  manifestSha256 : PyStr
  limits : Policy
  count : Nat
  started : Int
  last : Int
  next : Nat := 0
  reservedCost : Int := 0
  active : Option Int := none
  failed : Bool := false

namespace Admission

/-- `Admission(manifest, start_seconds=...)`. -/
def init (rt : Runtime) (manifest startSeconds : Value) : Py Admission := do
  let limits ← validatePolicy rt (← (← manifest.item "policy").item "value")
  let start ← integer startSeconds 0 maxClock "clock"
  let manifestText ← canonical rt manifest
  let _ ← canonical rt limits.value
  let count := (← pyLen (← manifest.item "units")) + 1
  let _ ← integer (.int count) 2 (limits.maxUnits.1 + 1) "unit-count-budget"
  .ok { manifestSha256 := rt.sha256 manifestText, limits, count, started := start.1,
        last := start.1 }

/-- The checks of `reserve`; it returns the clock it accepted. -/
def checkReserve (a : Admission) (ordinal now : Value) : Py Int := do
  let now ← integer now a.last maxClock "clock"
  let ordinal ← integer ordinal 0 (a.count - 1) "review-ordinal"
  require (a.failed = false ∧ a.active = none ∧ ordinal.1 = a.next) "wip-or-consumed"
  require (now.1 + a.limits.perReviewSeconds.1 ≤ a.started + a.limits.maxReviewSeconds.1)
    "time-admission"
  require (a.reservedCost + a.limits.perReviewCostMicrousd.1 ≤ a.limits.maxCostMicrousd.1)
    "cost-admission"
  .ok now.1

/-- The checks of `finish`; it returns the clock it accepted. -/
def checkFinish (a : Admission) (now cost passed : Value) : Py Int := do
  let now ← integer now a.last maxClock "clock"
  let _ ← integer cost 0 a.limits.perReviewCostMicrousd.1 "cost-overrun"
  require (a.failed = false ∧ a.active.isSome = true ∧ passed.isTrue = true) "review-failed"
  require (now.1 - a.active.getD 0 ≤ a.limits.perReviewSeconds.1) "review-timeout"
  require (now.1 - a.started ≤ a.limits.maxReviewSeconds.1) "total-timeout"
  .ok now.1

/-- `except ReviewError: self.failed = True; raise`. -/
def fail (a : Admission) (e : PyError) : Admission × Py Unit :=
  match e with
  | .reviewError _ => ({ a with failed := true }, .error e)
  | _ => (a, .error e)

/-- `reserve(ordinal, now_seconds=...)`. -/
def reserve (a : Admission) (ordinal now : Value) : Admission × Py Unit :=
  match a.checkReserve ordinal now with
  | .error e => a.fail e
  | .ok now => ({ a with reservedCost := a.reservedCost + a.limits.perReviewCostMicrousd.1,
                         active := some now, next := a.next + 1, last := now }, .ok ())

/-- `finish(now_seconds=..., cost_microusd=..., passed=...)`. -/
def finish (a : Admission) (now cost passed : Value) : Admission × Py Unit :=
  match a.checkFinish now cost passed with
  | .error e => a.fail e
  | .ok now => ({ a with active := none, last := now }, .ok ())

/-- A call, with whatever arguments. -/
inductive Call
  | reserve (ordinal now : Value)
  | finish (now cost passed : Value)

def step (a : Admission) : Call → Admission × Py Unit
  | .reserve ordinal now => a.reserve ordinal now
  | .finish now cost passed => a.finish now cost passed

/-! ## 2. What one call does -/

/-- `e` is a `ReviewError`. -/
def IsReviewError (e : PyError) : Prop := ∃ code, e = .reviewError code

theorem checkReserve_raises (a : Admission) (ordinal now : Value) :
    Raises IsReviewError (a.checkReserve ordinal now) :=
  (raises_integer ⟨_, rfl⟩).bind fun _ _ => (raises_integer ⟨_, rfl⟩).bind fun _ _ =>
    (raises_require ⟨_, rfl⟩).bind fun _ _ => (raises_require ⟨_, rfl⟩).bind fun _ _ =>
      (raises_require ⟨_, rfl⟩).bind fun _ _ => raises_ok _

theorem checkFinish_raises (a : Admission) (now cost passed : Value) :
    Raises IsReviewError (a.checkFinish now cost passed) :=
  (raises_integer ⟨_, rfl⟩).bind fun _ _ => (raises_integer ⟨_, rfl⟩).bind fun _ _ =>
    (raises_require ⟨_, rfl⟩).bind fun _ _ => (raises_require ⟨_, rfl⟩).bind fun _ _ =>
      (raises_require ⟨_, rfl⟩).bind fun _ _ => raises_ok _

/-- What a successful `reserve` checked. -/
structure Reserves (a : Admission) (ordinal now : Value) (t : Int) : Prop where
  now : now = .int t
  ordinal : ordinal = .int a.next
  clock : a.last ≤ t
  alive : a.failed = false
  idle : a.active = none
  room : a.next + 1 ≤ a.count
  cost : a.reservedCost + a.limits.perReviewCostMicrousd.1 ≤ a.limits.maxCostMicrousd.1
  time : t + a.limits.perReviewSeconds.1 ≤ a.started + a.limits.maxReviewSeconds.1
  bounded : t ≤ maxClock

/-- What a successful `finish` checked. -/
structure Finishes (a : Admission) (now cost passed : Value) (t : Int) : Prop where
  now : now = .int t
  clock : a.last ≤ t
  alive : a.failed = false
  cost : ∃ c, cost = .int c ∧ 0 ≤ c ∧ c ≤ a.limits.perReviewCostMicrousd.1
  passed : passed = .bool true
  active : ∃ t₀, a.active = some t₀ ∧ t ≤ t₀ + a.limits.perReviewSeconds.1
  total : t ≤ a.started + a.limits.maxReviewSeconds.1
  bounded : t ≤ maxClock

theorem checkReserve_iff {a : Admission} {ordinal now : Value} {t : Int} :
    a.checkReserve ordinal now = .ok t ↔ a.Reserves ordinal now t := by
  constructor
  · intro h
    simp only [checkReserve, bind_eq_ok, require_eq_ok] at h
    obtain ⟨n, hn, o, ho, _, ⟨halive, hidle, hnext⟩, _, htime, _, hcost, h⟩ := h
    cases h
    have hroom := o.2.2
    rw [hnext] at hroom
    exact ⟨integer_eq_ok hn, by rw [integer_eq_ok ho, hnext], n.2.1, halive, hidle, by omega,
      hcost, htime, n.2.2⟩
  · intro h
    have hroom := h.room
    have hnext : (0 : Int) ≤ a.next ∧ (a.next : Int) ≤ a.count - 1 := ⟨by omega, by omega⟩
    simp only [checkReserve, h.now, h.ordinal, integer_int ⟨h.clock, h.bounded⟩, ok_bind,
      integer_int hnext]
    rw [require_of (by simp [h.alive, h.idle]), ok_bind, require_of h.time,
      ok_bind, require_of h.cost, ok_bind]

theorem isTrue_iff {value : Value} : value.isTrue = true ↔ value = .bool true := by
  cases value with
  | bool b => cases b <;> simp [Value.isTrue]
  | _ => simp [Value.isTrue]

theorem checkFinish_iff {a : Admission} {now cost passed : Value} {t : Int} :
    a.checkFinish now cost passed = .ok t ↔ a.Finishes now cost passed t := by
  constructor
  · intro h
    simp only [checkFinish, bind_eq_ok, require_eq_ok] at h
    obtain ⟨n, hn, c, hc, _, ⟨halive, hactive, hpassed⟩, _, hone, _, htotal, h⟩ := h
    cases h
    obtain ⟨t₀, ht₀⟩ := Option.isSome_iff_exists.mp hactive
    rw [ht₀, Option.getD_some] at hone
    exact ⟨integer_eq_ok hn, n.2.1, halive, ⟨c.1, integer_eq_ok hc, c.2⟩, isTrue_iff.mp hpassed,
      ⟨t₀, ht₀, by omega⟩, by omega, n.2.2⟩
  · intro h
    obtain ⟨c, hc, hlow, hhigh⟩ := h.cost
    obtain ⟨t₀, ht₀, hone⟩ := h.active
    have htotal := h.total
    simp only [checkFinish, h.now, hc, integer_int ⟨h.clock, h.bounded⟩, ok_bind,
      integer_int ⟨hlow, hhigh⟩]
    rw [require_of ⟨h.alive, by simp [ht₀], isTrue_iff.mpr h.passed⟩, ok_bind,
      require_of (by rw [ht₀, Option.getD_some]; omega), ok_bind,
      require_of (by omega), ok_bind]

/-- **A call of `reserve`**: it passes its checks and moves all four counters, or raises and sets
`failed`. -/
theorem reserve_cases (a : Admission) (ordinal now : Value) :
    (∃ t, a.Reserves ordinal now t ∧ a.reserve ordinal now =
      ({ a with reservedCost := a.reservedCost + a.limits.perReviewCostMicrousd.1,
                active := some t, next := a.next + 1, last := t }, .ok ())) ∨
    ∃ e, a.reserve ordinal now = ({ a with failed := true }, .error e) := by
  unfold reserve
  split
  · next e he =>
    obtain ⟨code, rfl⟩ := checkReserve_raises a ordinal now e he
    exact Or.inr ⟨_, rfl⟩
  · next t ht => exact Or.inl ⟨t, checkReserve_iff.mp ht, rfl⟩

/-- **A call of `finish`**: it passes its checks and frees the slot, or raises and sets
`failed`. -/
theorem finish_cases (a : Admission) (now cost passed : Value) :
    (∃ t, a.Finishes now cost passed t ∧ a.finish now cost passed =
      ({ a with active := none, last := t }, .ok ())) ∨
    ∃ e, a.finish now cost passed = ({ a with failed := true }, .error e) := by
  unfold finish
  split
  · next e he =>
    obtain ⟨code, rfl⟩ := checkFinish_raises a now cost passed e he
    exact Or.inr ⟨_, rfl⟩
  · next t ht => exact Or.inl ⟨t, checkFinish_iff.mp ht, rfl⟩

/-- A rejection kills the ledger. -/
theorem step_error {a : Admission} {call : Call} {e : PyError} (h : (a.step call).2 = .error e) :
    (a.step call).1.failed = true := by
  cases call with
  | reserve ordinal now =>
    simp only [step] at h ⊢
    rcases a.reserve_cases ordinal now with ⟨t, -, heq⟩ | ⟨e', heq⟩ <;> rw [heq] at h ⊢
    cases h
  | finish now cost passed =>
    simp only [step] at h ⊢
    rcases a.finish_cases now cost passed with ⟨t, -, heq⟩ | ⟨e', heq⟩ <;> rw [heq] at h ⊢
    cases h

/-- A dead ledger stays dead and accepts nothing. -/
theorem step_dead : Dead step (fun a => a.failed = true) Rejected := by
  intro a call hdead
  cases call with
  | reserve ordinal now =>
    simp only [step]
    rcases a.reserve_cases ordinal now with ⟨t, hok, -⟩ | ⟨e, heq⟩
    · exact absurd hok.alive (by simp [hdead])
    · exact ⟨by rw [heq], e, by rw [heq]⟩
  | finish now cost passed =>
    simp only [step]
    rcases a.finish_cases now cost passed with ⟨t, hok, -⟩ | ⟨e, heq⟩
    · exact absurd hok.alive (by simp [hdead])
    · exact ⟨by rw [heq], e, by rw [heq]⟩

end Admission

end Supplementary.Review
