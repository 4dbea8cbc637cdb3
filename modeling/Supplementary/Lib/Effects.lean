/-
# Programs that ask their environment

A program either returns or asks its environment an operation and goes on with the answer.  The
operations are a signature `Ans`: which operations there are, and what each is answered with.
Nothing is assumed about the answers; a result about all traces of a program is a result about
every environment.

`Returns p tr a` says that `p`, answered as in `tr`, returns `a`; `Issues p tr op` that after `tr`
it has just issued `op` and waits for the answer.  `Act` adds a state and exceptions, the way an
object's method has them: what a raising call did to the state stays.  A program over part of a
signature is lifted to the whole of it, and issues nothing but that part.
-/
import Mathlib.Data.List.Basic
import Mathlib.Tactic.Common

namespace Effects

variable {Op : Type} {Ans : Op → Type} {α β : Type}

/-! ## 1. Programs and their traces -/

/-- A program over a signature. -/
inductive Prog {Op : Type} (Ans : Op → Type) (α : Type)
  | ret (a : α)
  | ask (op : Op) (k : Ans op → Prog Ans α)

/-- An operation and its answer. -/
abbrev Event {Op : Type} (Ans : Op → Type) := (op : Op) × Ans op

/-- What a program asked and was answered, oldest first. -/
abbrev Trace {Op : Type} (Ans : Op → Type) := List (Event Ans)

def Prog.bind (p : Prog Ans α) (f : α → Prog Ans β) : Prog Ans β :=
  match p with
  | .ret a => f a
  | .ask op k => .ask op fun answer => (k answer).bind f

/-- `p`, answered as in the trace, returns. -/
inductive Returns : Prog Ans α → Trace Ans → α → Prop
  | ret (a : α) : Returns (.ret a) [] a
  | ask {op : Op} {k : Ans op → Prog Ans α} {tr : Trace Ans} {a : α} (answer : Ans op)
      (h : Returns (k answer) tr a) : Returns (.ask op k) (⟨op, answer⟩ :: tr) a

/-- `p`, answered as in the trace, issues an operation next. -/
inductive Issues : Prog Ans α → Trace Ans → Op → Prop
  | here (op : Op) (k : Ans op → Prog Ans α) : Issues (.ask op k) [] op
  | ask {op op' : Op} {k : Ans op → Prog Ans α} {tr : Trace Ans} (answer : Ans op)
      (h : Issues (k answer) tr op') : Issues (.ask op k) (⟨op, answer⟩ :: tr) op'

@[simp] theorem returns_ret {a b : α} {tr : Trace Ans} :
    Returns (.ret a) tr b ↔ tr = [] ∧ b = a := by
  constructor
  · rintro ⟨⟩
    exact ⟨rfl, rfl⟩
  · rintro ⟨rfl, rfl⟩
    exact .ret _

@[simp] theorem not_issues_ret {a : α} {tr : Trace Ans} {op : Op} :
    ¬ Issues (.ret a : Prog Ans α) tr op := nofun

theorem returns_bind {p : Prog Ans α} {f : α → Prog Ans β} {tr : Trace Ans} {b : β} :
    Returns (p.bind f) tr b ↔
      ∃ tr₁ tr₂ a, tr = tr₁ ++ tr₂ ∧ Returns p tr₁ a ∧ Returns (f a) tr₂ b := by
  induction p generalizing tr with
  | ret a =>
    constructor
    · intro h
      exact ⟨[], tr, a, rfl, .ret a, h⟩
    · rintro ⟨tr₁, tr₂, a', rfl, ⟨⟩, h⟩
      exact h
  | ask op k ih =>
    constructor
    · rintro ⟨⟩
      next tr answer h =>
        obtain ⟨tr₁, tr₂, a, rfl, h₁, h₂⟩ := (ih answer).mp h
        exact ⟨⟨op, answer⟩ :: tr₁, tr₂, a, rfl, .ask answer h₁, h₂⟩
    · rintro ⟨_, tr₂, a, rfl, ⟨⟩, h₂⟩
      next tr₁ answer h₁ => exact .ask answer ((ih answer).mpr ⟨tr₁, tr₂, a, rfl, h₁, h₂⟩)

theorem issues_bind {p : Prog Ans α} {f : α → Prog Ans β} {tr : Trace Ans} {op : Op} :
    Issues (p.bind f) tr op ↔ Issues p tr op ∨
      ∃ tr₁ tr₂ a, tr = tr₁ ++ tr₂ ∧ Returns p tr₁ a ∧ Issues (f a) tr₂ op := by
  induction p generalizing tr with
  | ret a =>
    constructor
    · intro h
      exact Or.inr ⟨[], tr, a, rfl, .ret a, h⟩
    · rintro (h | ⟨tr₁, tr₂, a', rfl, ⟨⟩, h⟩)
      · exact absurd h not_issues_ret
      · exact h
  | ask op' k ih =>
    constructor
    · rintro ⟨⟩
      · exact Or.inl (.here _ _)
      next tr answer h =>
        rcases (ih answer).mp h with h | ⟨tr₁, tr₂, a, rfl, h₁, h₂⟩
        · exact Or.inl (.ask answer h)
        · exact Or.inr ⟨⟨op', answer⟩ :: tr₁, tr₂, a, rfl, .ask answer h₁, h₂⟩
    · rintro (h | ⟨_, tr₂, a, rfl, ⟨⟩, h₂⟩)
      · cases h with
        | here => exact .here _ _
        | ask answer h => exact .ask answer ((ih answer).mpr (Or.inl h))
      · next tr₁ answer h₁ =>
          exact .ask answer ((ih answer).mpr (Or.inr ⟨tr₁, tr₂, a, rfl, h₁, h₂⟩))

/-- The answers determine the result. -/
theorem Returns.unique {p : Prog Ans α} {tr : Trace Ans} {a b : α} (h : Returns p tr a)
    (h' : Returns p tr b) : a = b := by
  induction h with
  | ret a => exact (returns_ret.mp h').2.symm
  | ask answer _ ih =>
    cases h' with
    | ask _ h' => exact ih h'

/-- Whoever has issued an operation after a trace had issued each operation of the trace. -/
theorem Issues.prefix {p : Prog Ans α} {pre post : Trace Ans} {e : Event Ans} {op : Op}
    (h : Issues p (pre ++ e :: post) op) : Issues p pre e.1 := by
  induction pre generalizing p with
  | nil =>
    cases h with
    | ask answer h => exact .here _ _
  | cons e' pre ih =>
    cases h with
    | ask answer h => exact .ask answer (ih h)

/-- The same for a program that has returned. -/
theorem Returns.prefix {p : Prog Ans α} {pre post : Trace Ans} {e : Event Ans} {a : α}
    (h : Returns p (pre ++ e :: post) a) : Issues p pre e.1 := by
  induction pre generalizing p with
  | nil =>
    cases h with
    | ask answer h => exact .here _ _
  | cons e' pre ih =>
    cases h with
    | ask answer h => exact .ask answer (ih h)

/-- The program against an environment that answers the `i`-th operation by `oracle i`, for `n`
operations: what happened, and what is left of the program. -/
def Prog.play (oracle : Nat → (op : Op) → Ans op) : (i n : Nat) → Prog Ans α → Trace Ans × Prog Ans α
  | _, 0, p => ([], p)
  | _, _ + 1, .ret a => ([], .ret a)
  | i, n + 1, .ask op k =>
    let rest := (k (oracle i op)).play oracle (i + 1) n
    (⟨op, oracle i op⟩ :: rest.1, rest.2)

/-- What a program has returned, once it has. -/
def Prog.returned : Prog Ans α → Option α
  | .ret a => some a
  | .ask _ _ => none

theorem returned_eq_some {p : Prog Ans α} {a : α} : p.returned = some a ↔ p = .ret a := by
  cases p with
  | ret b => rw [Prog.returned, Option.some.injEq, Prog.ret.injEq]
  | ask op k => exact iff_of_false (by rintro ⟨⟩) (by rintro ⟨⟩)

theorem play_returns {oracle : Nat → (op : Op) → Ans op} {i n : Nat} {p : Prog Ans α} {a : α}
    (h : (p.play oracle i n).2 = .ret a) : Returns p (p.play oracle i n).1 a := by
  induction n generalizing i p with
  | zero =>
    obtain rfl : p = .ret a := h
    exact .ret a
  | succ n ih =>
    cases p with
    | ret b =>
      obtain rfl : b = a := Prog.ret.inj h
      exact .ret b
    | ask op k => exact .ask _ (ih h)

theorem play_issues {oracle : Nat → (op : Op) → Ans op} {i n : Nat} {p : Prog Ans α} {op : Op}
    {k : Ans op → Prog Ans α} (h : (p.play oracle i n).2 = .ask op k) :
    Issues p (p.play oracle i n).1 op := by
  induction n generalizing i p with
  | zero =>
    obtain rfl : p = .ask op k := h
    exact .here op k
  | succ n ih =>
    cases p with
    | ret b => cases h
    | ask op' k' => exact .ask _ (ih h)

/-! ## 2. State and exceptions -/

/-- A method: a program that starts from a state and ends in one, with a result or an exception. -/
def Act {Op : Type} (Ans : Op → Type) (σ ε α : Type) : Type := σ → Prog Ans (Except ε α × σ)

section Act

variable {σ ε : Type} {x : Act Ans σ ε α} {f : α → Act Ans σ ε β} {s s' : σ} {tr : Trace Ans}
  {op : Op}

/-- The method, started in `s` and answered as in the trace, ends with `r` in `s'`. -/
def Ends (x : Act Ans σ ε α) (s : σ) (tr : Trace Ans) (r : Except ε α) (s' : σ) : Prop :=
  Returns (x s) tr (r, s')

/-- The method, started in `s` and answered as in the trace, issues an operation next. -/
def Asks (x : Act Ans σ ε α) (s : σ) (tr : Trace Ans) (op : Op) : Prop := Issues (x s) tr op

namespace Act

/-- Ends at once. -/
def ofExcept (r : Except ε α) : Act Ans σ ε α := fun s => .ret (r, s)

def bind (x : Act Ans σ ε α) (f : α → Act Ans σ ε β) : Act Ans σ ε β := fun s =>
  (x s).bind fun (r, s) => match r with
    | .ok a => f a s
    | .error e => .ret (.error e, s)

instance : Monad (Act Ans σ ε) where
  pure a := ofExcept (.ok a)
  bind := bind

instance : MonadLift (Except ε) (Act Ans σ ε) := ⟨ofExcept⟩

/-- `raise e`. -/
def raise (e : ε) : Act Ans σ ε α := ofExcept (.error e)

/-- Asks the environment. -/
def perform (op : Op) : Act Ans σ ε (Ans op) := fun s => .ask op fun answer => .ret (.ok answer, s)

/-- Reads the state. -/
def read : Act Ans σ ε σ := fun s => .ret (.ok s, s)

/-- Changes the state. -/
def update (change : σ → σ) : Act Ans σ ε Unit := fun s => .ret (.ok (), change s)

/-- Runs a method and hands over how it ended instead of raising. -/
def attempt (x : Act Ans σ ε α) : Act Ans σ ε (Except ε α) := fun s =>
  (x s).bind fun (r, s) => .ret (.ok r, s)

/-- `try: x except e: handler e`. -/
def catching (x : Act Ans σ ε α) (handler : ε → Act Ans σ ε α) : Act Ans σ ε α := do
  match ← attempt x with
  | .ok a => pure a
  | .error e => handler e

/-- `try: x finally: last`. -/
def ensuring (x : Act Ans σ ε α) (last : Act Ans σ ε Unit) : Act Ans σ ε α := do
  let r ← attempt x
  last
  ofExcept r

end Act

@[simp] theorem ends_ofExcept {r r' : Except ε α} :
    Ends (Act.ofExcept r : Act Ans σ ε α) s tr r' s' ↔ tr = [] ∧ r' = r ∧ s' = s := by
  simp [Ends, Act.ofExcept]

@[simp] theorem ends_pure {a : α} {r : Except ε α} :
    Ends (pure a : Act Ans σ ε α) s tr r s' ↔ tr = [] ∧ r = .ok a ∧ s' = s := ends_ofExcept

@[simp] theorem ends_lift {x r : Except ε α} :
    Ends (liftM x : Act Ans σ ε α) s tr r s' ↔ tr = [] ∧ r = x ∧ s' = s := ends_ofExcept

@[simp] theorem ends_raise {e : ε} {r : Except ε α} :
    Ends (Act.raise e : Act Ans σ ε α) s tr r s' ↔ tr = [] ∧ r = .error e ∧ s' = s := ends_ofExcept

@[simp] theorem ends_read {r : Except ε σ} :
    Ends (Act.read : Act Ans σ ε σ) s tr r s' ↔ tr = [] ∧ r = .ok s ∧ s' = s := by
  simp [Ends, Act.read]

@[simp] theorem ends_update {change : σ → σ} {r : Except ε Unit} :
    Ends (Act.update change : Act Ans σ ε Unit) s tr r s' ↔ tr = [] ∧ r = .ok () ∧ s' = change s := by
  simp [Ends, Act.update]

@[simp] theorem ends_perform {r : Except ε (Ans op)} :
    Ends (Act.perform op : Act Ans σ ε (Ans op)) s tr r s' ↔
      ∃ answer, tr = [⟨op, answer⟩] ∧ r = .ok answer ∧ s' = s := by
  constructor
  · rintro (_ | ⟨answer, ⟨⟩⟩)
    exact ⟨answer, rfl, rfl, rfl⟩
  · rintro ⟨answer, rfl, rfl, rfl⟩
    exact .ask answer (.ret _)

@[simp] theorem ends_attempt {r : Except ε (Except ε α)} :
    Ends (Act.attempt x) s tr r s' ↔ ∃ r', r = .ok r' ∧ Ends x s tr r' s' := by
  simp only [Ends, Act.attempt, returns_bind]
  constructor
  · rintro ⟨tr₁, tr₂, ⟨r', s₁⟩, rfl, h, h'⟩
    obtain ⟨rfl, h'⟩ := returns_ret.mp h'
    cases h'
    exact ⟨r', rfl, by rwa [List.append_nil]⟩
  · rintro ⟨r', rfl, h⟩
    exact ⟨tr, [], (r', s'), by rw [List.append_nil], h, .ret _⟩

/-- A sequence raises in its first half, or ends as its second half does. -/
theorem ends_bind {r : Except ε β} : Ends (x >>= f) s tr r s' ↔
    (∃ e, r = .error e ∧ Ends x s tr (.error e) s') ∨
      ∃ tr₁ tr₂ a s₁, tr = tr₁ ++ tr₂ ∧ Ends x s tr₁ (.ok a) s₁ ∧ Ends (f a) s₁ tr₂ r s' := by
  change Returns (Prog.bind (x s) _) tr _ ↔ _
  rw [returns_bind]
  constructor
  · rintro ⟨tr₁, tr₂, ⟨r₁, s₁⟩, rfl, h, h'⟩
    cases r₁ with
    | ok a => exact Or.inr ⟨tr₁, tr₂, a, s₁, rfl, h, h'⟩
    | error e =>
      obtain ⟨rfl, h'⟩ := returns_ret.mp h'
      cases h'
      exact Or.inl ⟨e, rfl, by rwa [List.append_nil]⟩
  · rintro (⟨e, rfl, h⟩ | ⟨tr₁, tr₂, a, s₁, rfl, h, h'⟩)
    · exact ⟨tr, [], (.error e, s'), by rw [List.append_nil], h, .ret _⟩
    · exact ⟨tr₁, tr₂, (.ok a, s₁), rfl, h, h'⟩

/-- A sequence ends normally if both halves do. -/
theorem ends_bind_ok {b : β} : Ends (x >>= f) s tr (.ok b) s' ↔
    ∃ tr₁ tr₂ a s₁, tr = tr₁ ++ tr₂ ∧ Ends x s tr₁ (.ok a) s₁ ∧ Ends (f a) s₁ tr₂ (.ok b) s' := by
  simp [ends_bind]

@[simp] theorem not_asks_ofExcept {r : Except ε α} :
    ¬ Asks (Act.ofExcept r : Act Ans σ ε α) s tr op := not_issues_ret

@[simp] theorem not_asks_pure {a : α} : ¬ Asks (pure a : Act Ans σ ε α) s tr op := not_issues_ret

@[simp] theorem not_asks_lift {x : Except ε α} : ¬ Asks (liftM x : Act Ans σ ε α) s tr op :=
  not_issues_ret

@[simp] theorem not_asks_raise {e : ε} : ¬ Asks (Act.raise e : Act Ans σ ε α) s tr op :=
  not_issues_ret

@[simp] theorem not_asks_read : ¬ Asks (Act.read : Act Ans σ ε σ) s tr op := not_issues_ret

@[simp] theorem not_asks_update {change : σ → σ} :
    ¬ Asks (Act.update change : Act Ans σ ε Unit) s tr op := not_issues_ret

@[simp] theorem asks_perform {op' : Op} :
    Asks (Act.perform op : Act Ans σ ε (Ans op)) s tr op' ↔ tr = [] ∧ op' = op := by
  constructor
  · rintro (_ | ⟨answer, ⟨⟩⟩)
    exact ⟨rfl, rfl⟩
  · rintro ⟨rfl, rfl⟩
    exact .here _ _

@[simp] theorem asks_attempt : Asks (Act.attempt x) s tr op ↔ Asks x s tr op := by
  simp only [Asks, Act.attempt, issues_bind]
  constructor
  · rintro (h | ⟨_, _, _, -, -, h⟩)
    · exact h
    · exact absurd h not_issues_ret
  · exact Or.inl

/-- A sequence issues an operation in its first half, or in its second once the first ended. -/
theorem asks_bind : Asks (x >>= f) s tr op ↔ Asks x s tr op ∨
    ∃ tr₁ tr₂ a s₁, tr = tr₁ ++ tr₂ ∧ Ends x s tr₁ (.ok a) s₁ ∧ Asks (f a) s₁ tr₂ op := by
  change Issues (Prog.bind (x s) _) tr _ ↔ _
  rw [issues_bind]
  refine or_congr Iff.rfl ⟨?_, ?_⟩
  · rintro ⟨tr₁, tr₂, ⟨r, s₁⟩, rfl, h, h'⟩
    cases r with
    | ok a => exact ⟨tr₁, tr₂, a, s₁, rfl, h, h'⟩
    | error e => exact absurd h' not_issues_ret
  · rintro ⟨tr₁, tr₂, a, s₁, rfl, h, h'⟩
    exact ⟨tr₁, tr₂, (.ok a, s₁), rfl, h, h'⟩

/-! The first step of a `do` block that asks nothing is read off at once. -/

@[simp] theorem ends_lift_bind_ok {y : Except ε α} {b : β} :
    Ends (liftM y >>= f) s tr (.ok b) s' ↔ ∃ a, y = .ok a ∧ Ends (f a) s tr (.ok b) s' := by
  rw [ends_bind_ok]
  simp only [ends_lift]
  constructor
  · rintro ⟨_, _, a, _, rfl, ⟨rfl, rfl, rfl⟩, h⟩
    exact ⟨a, rfl, h⟩
  · rintro ⟨a, rfl, h⟩
    exact ⟨[], tr, a, s, rfl, ⟨rfl, rfl, rfl⟩, h⟩

@[simp] theorem asks_lift_bind {y : Except ε α} :
    Asks (liftM y >>= f) s tr op ↔ ∃ a, y = .ok a ∧ Asks (f a) s tr op := by
  rw [asks_bind]
  simp only [not_asks_lift, ends_lift, false_or]
  constructor
  · rintro ⟨_, _, a, _, rfl, ⟨rfl, rfl, rfl⟩, h⟩
    exact ⟨a, rfl, h⟩
  · rintro ⟨a, rfl, h⟩
    exact ⟨[], tr, a, s, rfl, ⟨rfl, rfl, rfl⟩, h⟩

@[simp] theorem ends_read_bind {g : σ → Act Ans σ ε β} {r : Except ε β} :
    Ends (Act.read >>= g) s tr r s' ↔ Ends (g s) s tr r s' := Iff.rfl

@[simp] theorem asks_read_bind {g : σ → Act Ans σ ε β} :
    Asks (Act.read >>= g) s tr op ↔ Asks (g s) s tr op := Iff.rfl

@[simp] theorem ends_update_bind {change : σ → σ} {g : Unit → Act Ans σ ε β} {r : Except ε β} :
    Ends (Act.update change >>= g) s tr r s' ↔ Ends (g ()) (change s) tr r s' := Iff.rfl

@[simp] theorem asks_update_bind {change : σ → σ} {g : Unit → Act Ans σ ε β} :
    Asks (Act.update change >>= g) s tr op ↔ Asks (g ()) (change s) tr op := Iff.rfl

/-- After an attempt the method goes on with however it ended. -/
theorem ends_attempt_bind {g : Except ε α → Act Ans σ ε β} {r : Except ε β} :
    Ends (Act.attempt x >>= g) s tr r s' ↔
      ∃ tr₁ tr₂ r₁ s₁, tr = tr₁ ++ tr₂ ∧ Ends x s tr₁ r₁ s₁ ∧ Ends (g r₁) s₁ tr₂ r s' := by
  simp only [ends_bind, ends_attempt, reduceCtorEq, false_and, exists_false, and_false, false_or,
    Except.ok.injEq]
  constructor
  · rintro ⟨tr₁, tr₂, r₁, s₁, rfl, ⟨_, rfl, h⟩, h'⟩
    exact ⟨tr₁, tr₂, r₁, s₁, rfl, h, h'⟩
  · rintro ⟨tr₁, tr₂, r₁, s₁, rfl, h, h'⟩
    exact ⟨tr₁, tr₂, r₁, s₁, rfl, ⟨r₁, rfl, h⟩, h'⟩

theorem asks_attempt_bind {g : Except ε α → Act Ans σ ε β} :
    Asks (Act.attempt x >>= g) s tr op ↔ Asks x s tr op ∨
      ∃ tr₁ tr₂ r₁ s₁, tr = tr₁ ++ tr₂ ∧ Ends x s tr₁ r₁ s₁ ∧ Asks (g r₁) s₁ tr₂ op := by
  simp only [asks_bind, asks_attempt, ends_attempt, Except.ok.injEq]
  refine or_congr Iff.rfl ⟨?_, ?_⟩
  · rintro ⟨tr₁, tr₂, r₁, s₁, rfl, ⟨_, rfl, h⟩, h'⟩
    exact ⟨tr₁, tr₂, r₁, s₁, rfl, h, h'⟩
  · rintro ⟨tr₁, tr₂, r₁, s₁, rfl, h, h'⟩
    exact ⟨tr₁, tr₂, r₁, s₁, rfl, ⟨r₁, rfl, h⟩, h'⟩

/-- A guarded method ends as its body does, or as its handler does after the body raised. -/
theorem ends_catching {handler : ε → Act Ans σ ε α} {r : Except ε α} :
    Ends (x.catching handler) s tr r s' ↔ (∃ a, r = .ok a ∧ Ends x s tr (.ok a) s') ∨
      ∃ tr₁ tr₂ e s₁, tr = tr₁ ++ tr₂ ∧ Ends x s tr₁ (.error e) s₁ ∧ Ends (handler e) s₁ tr₂ r s' := by
  rw [Act.catching, ends_attempt_bind]
  constructor
  · rintro ⟨tr₁, tr₂, r₁, s₁, rfl, h, h'⟩
    cases r₁ with
    | ok a =>
      obtain ⟨rfl, rfl, rfl⟩ := ends_pure.mp h'
      exact Or.inl ⟨a, rfl, by rwa [List.append_nil]⟩
    | error e => exact Or.inr ⟨tr₁, tr₂, e, s₁, rfl, h, h'⟩
  · rintro (⟨a, rfl, h⟩ | ⟨tr₁, tr₂, e, s₁, rfl, h, h'⟩)
    · exact ⟨tr, [], .ok a, s', by rw [List.append_nil], h, ends_pure.mpr ⟨rfl, rfl, rfl⟩⟩
    · exact ⟨tr₁, tr₂, .error e, s₁, rfl, h, h'⟩

theorem asks_catching {handler : ε → Act Ans σ ε α} :
    Asks (x.catching handler) s tr op ↔ Asks x s tr op ∨
      ∃ tr₁ tr₂ e s₁, tr = tr₁ ++ tr₂ ∧ Ends x s tr₁ (.error e) s₁ ∧ Asks (handler e) s₁ tr₂ op := by
  rw [Act.catching, asks_attempt_bind]
  refine or_congr Iff.rfl ⟨?_, ?_⟩
  · rintro ⟨tr₁, tr₂, r₁, s₁, rfl, h, h'⟩
    cases r₁ with
    | ok a => exact absurd h' not_asks_pure
    | error e => exact ⟨tr₁, tr₂, e, s₁, rfl, h, h'⟩
  · rintro ⟨tr₁, tr₂, e, s₁, rfl, h, h'⟩
    exact ⟨tr₁, tr₂, .error e, s₁, rfl, h, h'⟩

/-! ### What a method may do to the state -/

/-- However `x` ends, it leaves the state related to the one it started from. -/
def Changes (R : σ → σ → Prop) (x : Act Ans σ ε α) : Prop := ∀ s tr r s', Ends x s tr r s' → R s s'

variable {R : σ → σ → Prop}

theorem changes_ofExcept (hrefl : ∀ s, R s s) (r : Except ε α) :
    Changes R (Act.ofExcept r : Act Ans σ ε α) := by
  intro s tr r' s' h
  obtain ⟨-, -, rfl⟩ := ends_ofExcept.mp h
  exact hrefl _

theorem changes_read (hrefl : ∀ s, R s s) : Changes R (Act.read : Act Ans σ ε σ) := by
  intro s tr r s' h
  obtain ⟨-, -, rfl⟩ := ends_read.mp h
  exact hrefl _

theorem changes_update {change : σ → σ} (h : ∀ s, R s (change s)) :
    Changes R (Act.update change : Act Ans σ ε Unit) := by
  intro s tr r s' hends
  obtain ⟨-, -, rfl⟩ := ends_update.mp hends
  exact h s

theorem Changes.bind (htrans : ∀ {s₁ s₂ s₃}, R s₁ s₂ → R s₂ s₃ → R s₁ s₃) (hx : Changes R x)
    (hf : ∀ a, Changes R (f a)) : Changes R (x >>= f) := by
  intro s tr r s' h
  rcases ends_bind.mp h with ⟨e, -, h⟩ | ⟨tr₁, tr₂, a, s₁, -, h, h'⟩
  · exact hx _ _ _ _ h
  · exact htrans (hx _ _ _ _ h) (hf a _ _ _ _ h')

/-- Where `x` raises, it leaves the state related to the one it started from. -/
def RaisesWith (R : σ → σ → Prop) (x : Act Ans σ ε α) : Prop :=
  ∀ s tr e s', Ends x s tr (.error e) s' → R s s'

theorem Changes.raisesWith (h : Changes R x) : RaisesWith R x := fun _ _ _ _ hends => h _ _ _ _ hends

theorem RaisesWith.bind (htrans : ∀ {s₁ s₂ s₃}, R s₁ s₂ → R s₂ s₃ → R s₁ s₃) (hx : Changes R x)
    (hf : ∀ a, RaisesWith R (f a)) : RaisesWith R (x >>= f) := by
  intro s tr e s' h
  rcases ends_bind.mp h with ⟨_, -, h⟩ | ⟨tr₁, tr₂, a, s₁, -, h, h'⟩
  · exact hx _ _ _ _ h
  · exact htrans (hx _ _ _ _ h) (hf a _ _ _ _ h')

end Act

/-! ### Operations that may fail -/

section Fallible

variable {σ ε : Type} {Res : Op → Type} {s s' : σ} {op : Op}

/-- A signature whose operations return a result or raise. -/
abbrev Fallible (ε : Type) {Op : Type} (Res : Op → Type) (op : Op) : Type := Except ε (Res op)

/-- Asks the environment, and raises what it raises. -/
def Act.call (op : Op) : Act (Fallible ε Res) σ ε (Res op) := fun s =>
  .ask op fun answer => .ret (answer, s)

@[simp] theorem ends_call {tr : Trace (Fallible ε Res)} {r : Except ε (Res op)} :
    Ends (Act.call op : Act (Fallible ε Res) σ ε (Res op)) s tr r s' ↔
      tr = [⟨op, r⟩] ∧ s' = s := by
  constructor
  · rintro (_ | ⟨answer, ⟨⟩⟩)
    exact ⟨rfl, rfl⟩
  · rintro ⟨rfl, rfl⟩
    exact @Returns.ask _ (Fallible ε Res) _ op _ _ _ r (.ret _)

@[simp] theorem asks_call {tr : Trace (Fallible ε Res)} {op' : Op} :
    Asks (Act.call op : Act (Fallible ε Res) σ ε (Res op)) s tr op' ↔ tr = [] ∧ op' = op := by
  constructor
  · rintro (_ | ⟨answer, ⟨⟩⟩)
    exact ⟨rfl, rfl⟩
  · rintro ⟨rfl, rfl⟩
    exact .here _ _

@[simp] theorem ends_call_bind_ok {f : Res op → Act (Fallible ε Res) σ ε β}
    {tr : Trace (Fallible ε Res)} {b : β} : Ends (Act.call op >>= f) s tr (.ok b) s' ↔
      ∃ a tr', tr = ⟨op, .ok a⟩ :: tr' ∧ Ends (f a) s tr' (.ok b) s' := by
  rw [ends_bind_ok]
  simp only [ends_call]
  constructor
  · rintro ⟨_, tr', a, _, rfl, ⟨rfl, rfl⟩, h⟩
    exact ⟨a, tr', rfl, h⟩
  · rintro ⟨a, tr', rfl, h⟩
    exact ⟨[⟨op, .ok a⟩], tr', a, s, rfl, ⟨rfl, rfl⟩, h⟩

@[simp] theorem asks_call_bind {f : Res op → Act (Fallible ε Res) σ ε β} {op' : Op}
    {tr : Trace (Fallible ε Res)} : Asks (Act.call op >>= f) s tr op' ↔
      (tr = [] ∧ op' = op) ∨ ∃ a tr', tr = ⟨op, .ok a⟩ :: tr' ∧ Asks (f a) s tr' op' := by
  rw [asks_bind]
  simp only [ends_call, asks_call]
  refine or_congr Iff.rfl ⟨?_, ?_⟩
  · rintro ⟨_, tr', a, _, rfl, ⟨rfl, rfl⟩, h⟩
    exact ⟨a, tr', rfl, h⟩
  · rintro ⟨a, tr', rfl, h⟩
    exact ⟨[⟨op, .ok a⟩], tr', a, s, rfl, ⟨rfl, rfl⟩, h⟩

theorem changes_call {R : σ → σ → Prop} (hrefl : ∀ s, R s s) (op : Op) :
    Changes R (Act.call op : Act (Fallible ε Res) σ ε (Res op)) := by
  intro s tr r s' h
  obtain ⟨-, rfl⟩ := ends_call.mp h
  exact hrefl _

end Fallible

/-! ## 3. Part of a signature -/

section Part

variable {A B : Type} {AnsA : A → Type} {AnsB : B → Type} {σ ε : Type}

/-- The signature with the operations of two. -/
def Both (AnsA : A → Type) (AnsB : B → Type) : A ⊕ B → Type
  | .inl a => AnsA a
  | .inr b => AnsB b

def Event.left (e : Event AnsA) : Event (Both AnsA AnsB) := ⟨.inl e.1, e.2⟩

def Prog.left : Prog AnsA α → Prog (Both AnsA AnsB) α
  | .ret a => .ret a
  | .ask op k => .ask (.inl op) fun answer => (k answer).left

theorem returns_left {p : Prog AnsA α} {tr : Trace (Both AnsA AnsB)} {a : α} :
    Returns p.left tr a ↔ ∃ tr', tr = tr'.map Event.left ∧ Returns p tr' a := by
  induction p generalizing tr with
  | ret b =>
    simp only [Prog.left, returns_ret]
    constructor
    · rintro ⟨rfl, rfl⟩
      exact ⟨[], rfl, rfl, rfl⟩
    · rintro ⟨_, rfl, rfl, rfl⟩
      exact ⟨rfl, rfl⟩
  | ask op k ih =>
    constructor
    · rintro (_ | ⟨answer, h⟩)
      obtain ⟨tr', rfl, h'⟩ := (ih answer).mp h
      exact ⟨⟨op, answer⟩ :: tr', rfl, @Returns.ask _ AnsA _ op k _ _ answer h'⟩
    · rintro ⟨_, rfl, ⟨⟩⟩
      next tr' answer h =>
        exact @Returns.ask _ (Both AnsA AnsB) _ (.inl op) _ _ _ answer
          ((ih answer).mpr ⟨tr', rfl, h⟩)

theorem issues_left {p : Prog AnsA α} {tr : Trace (Both AnsA AnsB)} {op : A ⊕ B} :
    Issues p.left tr op ↔ ∃ tr' a, tr = tr'.map Event.left ∧ op = .inl a ∧ Issues p tr' a := by
  induction p generalizing tr with
  | ret b =>
    constructor
    · rintro ⟨⟩
    · rintro ⟨_, _, -, -, ⟨⟩⟩
  | ask a k ih =>
    constructor
    · rintro (⟨_, _⟩ | ⟨answer, h⟩)
      · exact ⟨[], a, rfl, rfl, .here _ _⟩
      · obtain ⟨tr', a', rfl, rfl, h'⟩ := (ih answer).mp h
        exact ⟨⟨a, answer⟩ :: tr', a', rfl, rfl, @Issues.ask _ AnsA _ a _ k _ answer h'⟩
    · rintro ⟨tr', a', rfl, rfl, h⟩
      cases h with
      | here => exact @Issues.here _ (Both AnsA AnsB) _ (.inl a) _
      | ask answer h =>
        exact @Issues.ask _ (Both AnsA AnsB) _ (.inl a) _ _ _ answer
          ((ih answer).mpr ⟨_, _, rfl, rfl, h⟩)

/-- A method over part of a signature. -/
def Act.left (x : Act AnsA σ ε α) : Act (Both AnsA AnsB) σ ε α := fun s => (x s).left

instance : MonadLift (Act AnsA σ ε) (Act (Both AnsA AnsB) σ ε) := ⟨Act.left⟩

@[simp] theorem ends_left {x : Act AnsA σ ε α} {s s' : σ} {tr : Trace (Both AnsA AnsB)}
    {r : Except ε α} : Ends (liftM x : Act (Both AnsA AnsB) σ ε α) s tr r s' ↔
      ∃ tr', tr = tr'.map Event.left ∧ Ends x s tr' r s' := returns_left

@[simp] theorem asks_left {x : Act AnsA σ ε α} {s : σ} {tr : Trace (Both AnsA AnsB)}
    {op : A ⊕ B} : Asks (liftM x : Act (Both AnsA AnsB) σ ε α) s tr op ↔
      ∃ tr' a, tr = tr'.map Event.left ∧ op = .inl a ∧ Asks x s tr' a := issues_left

end Part

/-! ## 4. Calls on one object -/

section Session

variable {σ ε ι : Type} {method : ι → Act Ans σ ε α} {s₀ s : σ}

/-- The finished calls on an object, oldest first: what was called, what it asked and was
answered, how it ended. -/
abbrev Log {Op : Type} (Ans : Op → Type) (ε ι α : Type) := List (ι × Trace Ans × Except ε α)

/-- `Session method s₀ log s`: the calls of `log`, made one after another on an object that was in
`s₀`, leave it in `s`. -/
inductive Session (method : ι → Act Ans σ ε α) (s₀ : σ) : Log Ans ε ι α → σ → Prop
  | nil : Session method s₀ [] s₀
  | snoc {log : Log Ans ε ι α} {s s' : σ} {i : ι} {tr : Trace Ans} {r : Except ε α}
      (h : Session method s₀ log s) (call : Ends (method i) s tr r s') :
      Session method s₀ (log ++ [(i, tr, r)]) s'

/-- **The invariant rule** for calls: an invariant may mention the log. -/
theorem Session.invariant {I : Log Ans ε ι α → σ → Prop} {log : Log Ans ε ι α} (hinit : I [] s₀)
    (hstep : ∀ log s i tr r s', I log s → Ends (method i) s tr r s' → I (log ++ [(i, tr, r)]) s')
    (h : Session method s₀ log s) : I log s := by
  induction h with
  | nil => exact hinit
  | snoc _ call ih => exact hstep _ _ _ _ _ _ ih call

end Session

end Effects
