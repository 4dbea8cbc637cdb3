/-
# A program in an environment that always answers

A program asks finitely often whatever the answers are, so an environment that answers every
operation makes it return.  `Prog.run` is that run; the answer to an operation may depend on how many
were answered before it.
-/
import Supplementary.Lib.Effects

namespace Effects

variable {Op : Type} {Ans : Op → Type} {α β : Type}

/-! ## 1. Programs -/

/-- The program in an environment that answers the `i`-th operation by `answers i`: what was asked,
and what came back. -/
def Prog.run (answers : Nat → (op : Op) → Ans op) : (i : Nat) → Prog Ans α → Trace Ans × α
  | _, .ret a => ([], a)
  | i, .ask op k =>
    let rest := (k (answers i op)).run answers (i + 1)
    (⟨op, answers i op⟩ :: rest.1, rest.2)

theorem returns_run (answers : Nat → (op : Op) → Ans op) (i : Nat) (p : Prog Ans α) :
    Returns p (p.run answers i).1 (p.run answers i).2 := by
  induction p generalizing i with
  | ret a => exact .ret a
  | ask op k ih => exact .ask _ (ih _ (i + 1))

/-- What the environment answered. -/
theorem answered_run (answers : Nat → (op : Op) → Ans op) (i : Nat) (p : Prog Ans α) :
    ∀ e ∈ (p.run answers i).1, ∃ j, e.2 = answers j e.1 := by
  induction p generalizing i with
  | ret a =>
    intro e he
    cases he
  | ask op k ih =>
    intro e he
    rcases List.mem_cons.mp he with rfl | he
    · exact ⟨i, rfl⟩
    · exact ih _ (i + 1) e he

/-! ## 2. Methods -/

section Act

variable {σ ε : Type}

/-- What the method asks and is answered. -/
def Act.asked (x : Act Ans σ ε α) (s : σ) (answers : Nat → (op : Op) → Ans op) : Trace Ans :=
  ((x s).run answers 0).1

/-- How the method ends. -/
def Act.result (x : Act Ans σ ε α) (s : σ) (answers : Nat → (op : Op) → Ans op) : Except ε α :=
  ((x s).run answers 0).2.1

variable {x : Act Ans σ ε α} {s : σ} {answers : Nat → (op : Op) → Ans op}

/-- What holds of every run holds of the run in an environment. -/
theorem ends_result : ∃ s', Ends x s (x.asked s answers) (x.result s answers) s' :=
  ⟨((x s).run answers 0).2.2, returns_run answers 0 (x s)⟩

theorem answered_asked : ∀ e ∈ x.asked s answers, ∃ j, e.2 = answers j e.1 :=
  answered_run answers 0 (x s)

end Act

/-! ## 3. One operation, and a step without any -/

section Fallible

variable {σ ε : Type} {Res : Op → Type} {s s' : σ} {op : Op} {tr : Trace (Fallible ε Res)}
  {r : Except ε β}

theorem ends_call_bind {f : Res op → Act (Fallible ε Res) σ ε β} :
    Ends (Act.call op >>= f) s tr r s' ↔ (∃ e, tr = [⟨op, .error e⟩] ∧ r = .error e ∧ s' = s) ∨
      ∃ a tr', tr = ⟨op, .ok a⟩ :: tr' ∧ Ends (f a) s tr' r s' := by
  rw [ends_bind]
  simp only [ends_call]
  constructor
  · rintro (⟨e, rfl, rfl, rfl⟩ | ⟨_, tr', a, _, rfl, ⟨rfl, rfl⟩, h⟩)
    · exact Or.inl ⟨e, rfl, rfl, rfl⟩
    · exact Or.inr ⟨a, tr', rfl, h⟩
  · rintro (⟨e, rfl, rfl, rfl⟩ | ⟨a, tr', rfl, h⟩)
    · exact Or.inl ⟨e, rfl, rfl, rfl⟩
    · exact Or.inr ⟨[⟨op, .ok a⟩], tr', a, s, rfl, ⟨rfl, rfl⟩, h⟩

theorem ends_lift_bind {x : Except ε α} {f : α → Act (Fallible ε Res) σ ε β} :
    Ends ((liftM x : Act (Fallible ε Res) σ ε α) >>= f) s tr r s' ↔
      (∃ e, x = .error e ∧ tr = [] ∧ r = .error e ∧ s' = s) ∨
        ∃ a, x = .ok a ∧ Ends (f a) s tr r s' := by
  rw [ends_bind]
  simp only [ends_lift]
  constructor
  · rintro (⟨e, rfl, rfl, hx, rfl⟩ | ⟨_, tr', a, _, rfl, ⟨rfl, hx, rfl⟩, h⟩)
    · exact Or.inl ⟨e, hx.symm, rfl, rfl, rfl⟩
    · exact Or.inr ⟨a, hx.symm, h⟩
  · rintro (⟨e, rfl, rfl, rfl, rfl⟩ | ⟨a, rfl, h⟩)
    · exact Or.inl ⟨e, rfl, rfl, rfl, rfl⟩
    · exact Or.inr ⟨[], tr, a, s, rfl, ⟨rfl, rfl, rfl⟩, h⟩

end Fallible

end Effects
