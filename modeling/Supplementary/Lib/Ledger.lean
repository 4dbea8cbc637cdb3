/-
# Checks that collect complaints

A checker either raises or ends with a value and the complaints it has appended on the way.
`Clean x a` says that `x` ends with `a` and has complained of nothing; since complaints are only
ever appended, a sequence of checks is clean exactly when each of them is, and the rules below take
a clean run apart down to the conditions it tested.
-/
import Mathlib.Tactic.Common

/-- A check that raises `ε`, complains in `μ` and returns `α`. -/
def Ledger (ε μ : Type) (α : Type) : Type := Except ε (α × List μ)

namespace Ledger

variable {ε μ α β : Type}

instance : Monad (Ledger ε μ) where
  pure a := Except.ok (a, [])
  bind x f := match x with
    | .error e => .error e
    | .ok (a, ms) => match f a with
      | .error e => .error e
      | .ok (b, ns) => .ok (b, ms ++ ns)

/-- `errors.append(message)`. -/
def report (message : μ) : Ledger ε μ Unit := Except.ok ((), [message])

/-- `errors.extend(messages)`. -/
def reports (messages : List μ) : Ledger ε μ Unit := Except.ok ((), messages)

/-- A call that complains of nothing itself. -/
def call (x : Except ε α) : Ledger ε μ α := x.map fun a => (a, [])

/-- `if not condition: errors.append(message)`. -/
def require (condition : Prop) [Decidable condition] (message : μ) : Ledger ε μ Unit :=
  if condition then pure () else report message

/-- `if condition: check`. -/
def onlyIf (condition : Prop) [Decidable condition] (check : Ledger ε μ Unit) : Ledger ε μ Unit :=
  if condition then check else pure ()

/-- `for x in xs: check(x)`. -/
def each (xs : List α) (check : α → Ledger ε μ Unit) : Ledger ε μ Unit :=
  match xs with
  | [] => pure ()
  | x :: rest => do
    check x
    each rest check

/-- The list of complaints that a run ends with. -/
def complaints (x : Ledger ε μ α) : Except ε (List μ) := Except.map Prod.snd x

/-- The run ends with the value and without a complaint. -/
def Clean (x : Ledger ε μ α) (a : α) : Prop := @Eq (Except ε (α × List μ)) x (.ok (a, []))

theorem clean_pure {a b : α} : Clean (pure a : Ledger ε μ α) b ↔ a = b := by
  simp [Clean, pure]

theorem clean_bind {x : Ledger ε μ α} {f : α → Ledger ε μ β} {b : β} :
    Clean (x >>= f) b ↔ ∃ a, Clean x a ∧ Clean (f a) b := by
  unfold Clean
  rcases x with e | ⟨a, ms⟩
  · simp [bind]
  · change Eq (match f a with
      | .error e => Except.error e
      | .ok (b, ns) => Except.ok (b, ms ++ ns)) _ ↔ _
    constructor
    · intro h
      split at h
      · cases h
      · next b' ns hf =>
        simp only [Except.ok.injEq, Prod.mk.injEq, List.append_eq_nil_iff] at h
        obtain ⟨rfl, rfl, rfl⟩ := h
        exact ⟨a, rfl, hf⟩
    · rintro ⟨a', heq, hf⟩
      cases heq
      rw [hf]
      rfl

theorem exists_unit {p : Unit → Prop} : (∃ u, p u) ↔ p () := by
  constructor
  · rintro ⟨⟨⟩, h⟩
    exact h
  · intro h
    exact ⟨(), h⟩

/-- A check that returns nothing, and what is checked after it. -/
theorem clean_then {x : Ledger ε μ Unit} {y : Ledger ε μ β} {b : β} :
    Clean (x >>= fun _ => y) b ↔ Clean x () ∧ Clean y b := by
  rw [clean_bind, exists_unit]

theorem not_clean_report {message : μ} {u : Unit} :
    ¬ Clean (report message : Ledger ε μ Unit) u := by
  simp [Clean, report]

theorem clean_call {x : Except ε α} {a : α} :
    Clean (call x : Ledger ε μ α) a ↔ x = .ok a := by
  cases x <;> simp [Clean, call, Except.map]

theorem clean_require {condition : Prop} [Decidable condition] {message : μ} {u : Unit} :
    Clean (require condition message : Ledger ε μ Unit) u ↔ condition := by
  unfold require
  split
  · next h => simp [clean_pure, h]
  · next h => simp [not_clean_report, h]

theorem clean_ite {condition : Prop} [Decidable condition] {x y : Ledger ε μ α} {a : α} :
    Clean (if condition then x else y) a ↔
      (condition → Clean x a) ∧ (¬ condition → Clean y a) := by
  split
  · next h => simp [h]
  · next h => simp [h]

theorem clean_onlyIf {condition : Prop} [Decidable condition] {check : Ledger ε μ Unit} {u : Unit} :
    Clean (onlyIf condition check) u ↔ (condition → Clean check ()) := by
  simp [onlyIf, clean_ite, clean_pure]

theorem clean_each {xs : List α} {check : α → Ledger ε μ Unit} {u : Unit} :
    Clean (each xs check) u ↔ ∀ x ∈ xs, Clean (check x) () := by
  induction xs with
  | nil => simp [each, clean_pure]
  | cons x rest ih => rw [each, clean_then, ih, List.forall_mem_cons]

theorem complaints_eq_nil {x : Ledger ε μ Unit} : complaints x = .ok [] ↔ Clean x () := by
  unfold complaints Clean
  rcases x with e | ⟨⟨⟩, ms⟩ <;> simp [Except.map]

end Ledger
