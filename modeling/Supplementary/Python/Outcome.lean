/-
# Outcomes of a Python call

A call of the modelled scripts returns a value or raises.  `PyError` has one constructor for
each exception class the modelled code raises or catches; the text an exception carries is kept
where the source writes one, because callers and tests read it.  Which classes a handler
catches is a question about the class hierarchy: `PyError.isValueError` answers it for the one
base class with subclasses here.

The rest is the bind and guard API of `Except`: a successful run of a `do` block is taken apart
by `bind_eq_ok` and its guards are read off by `raiseUnless_eq_ok`, so that no later proof
unfolds a bind.
-/
import Mathlib.Data.List.Forall2
import Mathlib.Tactic.Common

namespace Supplementary

/-- The exception classes of the modelled scripts. -/
inductive PyError
  /-- `bounded_review.ReviewError`, with its content-free code. -/
  | reviewError (code : String)
  | valueError (message : String)
  | jsonDecodeError
  | unicodeError
  /-- `native_verifier_retry.CandidateClosed`. -/
  | candidateClosed (message : String)
  /-- The four subclasses of `ValueError` in `review_request_continuation`. -/
  | nativeBindingPending (message : String)
  | confirmedIntentConflict
  | unknownWriteResult (message : String)
  | reviewContentError (message : String)
  /-- `native_verifier_retry.GlobalReadFailure`, a `RuntimeError`; `what` is its text without the
  route. -/
  | globalReadFailure (what : String)
  | typeError
  | keyError
  | indexError
  | attributeError
  | overflowError
  | recursionError
  | osError
  /-- `subprocess.CalledProcessError`, with the code points of its `stdout`. -/
  | calledProcessError (stdout : List Nat)
  /-- `subprocess.TimeoutExpired`. -/
  | timeoutExpired
  | stopIteration
  /-- `ansible.errors.AnsibleFilterError`. -/
  | filterError (message : String)
  /-- A `BaseException` that is no `Exception`, such as a keyboard interrupt. -/
  | interrupted
  deriving DecidableEq, Repr

namespace PyError

/-- `except ValueError`. -/
def isValueError : PyError → Bool
  | .reviewError _ | .valueError _ | .jsonDecodeError | .unicodeError | .candidateClosed _
  | .nativeBindingPending _ | .confirmedIntentConflict | .unknownWriteResult _
  | .reviewContentError _ => true
  | _ => false

/-- `except LookupError`, for the two of its subclasses that indexing raises. -/
def isLookupError : PyError → Bool
  | .keyError | .indexError => true
  | _ => false

/-- `except subprocess.SubprocessError`. -/
def isSubprocessError : PyError → Bool
  | .calledProcessError _ | .timeoutExpired => true
  | _ => false

end PyError

/-- A Python call: its result, or what it raised. -/
abbrev Py (α : Type) := Except PyError α

section Bind

variable {ε α β : Type}

/-- A successful bind is a successful first half and a successful second half. -/
theorem bind_eq_ok {x : Except ε α} {f : α → Except ε β} {b : β} :
    (x >>= f) = .ok b ↔ ∃ a, x = .ok a ∧ f a = .ok b := by
  cases x with
  | error e => simp [bind, Except.bind]
  | ok a => simp [bind, Except.bind]

@[simp] theorem ok_bind (a : α) (f : α → Except ε β) : (Except.ok a >>= f) = f a := rfl

@[simp] theorem error_bind (e : ε) (f : α → Except ε β) :
    (Except.error e >>= f) = .error e := rfl

/-- A bind that raises does so in its first half or in its second. -/
theorem bind_eq_error {x : Except ε α} {f : α → Except ε β} {e : ε}
    (h : (x >>= f) = .error e) : x = .error e ∨ ∃ a, x = .ok a ∧ f a = .error e := by
  cases x with
  | error e' =>
    cases h
    exact Or.inl rfl
  | ok a => exact Or.inr ⟨a, rfl, h⟩

theorem map_eq_ok {x : Except ε α} {f : α → β} {b : β} :
    (f <$> x) = .ok b ↔ ∃ a, x = .ok a ∧ f a = b := by
  cases x with
  | error e => simp [Functor.map, Except.map]
  | ok a => simp [Functor.map, Except.map]

@[simp] theorem pure_eq_ok {a b : α} : (pure a : Except ε α) = .ok b ↔ a = b := by
  simp [pure, Except.pure]

/-- A successful `mapM` ran on every element, in order. -/
theorem mapM_eq_ok {f : α → Except ε β} {xs : List α} {ys : List β} (h : xs.mapM f = .ok ys) :
    List.Forall₂ (fun x y => f x = .ok y) xs ys := by
  induction xs generalizing ys with
  | nil =>
    rw [List.mapM_nil, pure_eq_ok] at h
    exact h ▸ List.Forall₂.nil
  | cons x xs ih =>
    simp only [List.mapM_cons, bind_eq_ok, pure_eq_ok] at h
    obtain ⟨y, hy, ys', hys, rfl⟩ := h
    exact List.Forall₂.cons hy (ih hys)

theorem exists_of_forall₂ {R : α → β → Prop} {xs : List α} {ys : List β}
    (h : List.Forall₂ R xs ys) {x : α} (hx : x ∈ xs) : ∃ y ∈ ys, R x y := by
  induction h with
  | nil => cases hx
  | cons hxy _ ih =>
    rcases List.mem_cons.mp hx with rfl | hx
    · exact ⟨_, List.mem_cons_self, hxy⟩
    · obtain ⟨y, hy, hr⟩ := ih hx
      exact ⟨y, List.mem_cons_of_mem _ hy, hr⟩

theorem exists_left_of_forall₂ {R : α → β → Prop} {xs : List α} {ys : List β}
    (h : List.Forall₂ R xs ys) {y : β} (hy : y ∈ ys) : ∃ x ∈ xs, R x y :=
  exists_of_forall₂ h.flip hy

theorem forall₂_imp {R S : α → β → Prop} {xs : List α} {ys : List β}
    (h : List.Forall₂ R xs ys) (himp : ∀ x y, x ∈ xs → R x y → S x y) : List.Forall₂ S xs ys := by
  induction h with
  | nil => exact .nil
  | cons hxy _ ih =>
    refine .cons (himp _ _ (List.mem_cons_self ..) hxy) (ih fun x y hx => ?_)
    exact himp x y (List.mem_cons_of_mem _ hx)

/-- Each result of a successful `mapM` comes from an element. -/
theorem mem_of_mapM {f : α → Except ε β} {xs : List α} {ys : List β} (h : xs.mapM f = .ok ys)
    {y : β} (hy : y ∈ ys) : ∃ x ∈ xs, f x = .ok y := exists_left_of_forall₂ (mapM_eq_ok h) hy

/-- A loop that runs to its end ran its body on every element. -/
theorem forM_eq_ok {f : α → Except ε Unit} {xs : List α} {u : Unit} :
    xs.forM f = .ok u ↔ ∀ x ∈ xs, f x = .ok u := by
  induction xs with
  | nil => exact iff_of_true rfl fun _ hx => nomatch hx
  | cons x xs ih =>
    change (f x >>= fun _ => xs.forM f) = .ok u ↔ _
    rw [bind_eq_ok, List.forall_mem_cons, ← ih]
    constructor
    · rintro ⟨_, h, h'⟩
      exact ⟨h, h'⟩
    · rintro ⟨h, h'⟩
      exact ⟨u, h, h'⟩

/-- A loop whose body succeeds on every element succeeds. -/
theorem exists_mapM {f : α → Except ε β} {xs : List α} (h : ∀ x ∈ xs, ∃ y, f x = .ok y) :
    ∃ ys, xs.mapM f = .ok ys := by
  induction xs with
  | nil => exact ⟨[], rfl⟩
  | cons x xs ih =>
    obtain ⟨y, hy⟩ := h x (List.mem_cons_self ..)
    obtain ⟨ys, hys⟩ := ih fun x hx => h x (List.mem_cons_of_mem _ hx)
    refine ⟨y :: ys, ?_⟩
    rw [List.mapM_cons, hy, ok_bind, hys, ok_bind]
    rfl

theorem mapM_eq_map {f : α → Except ε β} {g : α → β} {xs : List α}
    (h : ∀ x ∈ xs, f x = .ok (g x)) : xs.mapM f = .ok (xs.map g) := by
  induction xs with
  | nil => rfl
  | cons x xs ih =>
    rw [List.mapM_cons, h x (List.mem_cons_self ..), ok_bind,
      ih fun x hx => h x (List.mem_cons_of_mem _ hx), ok_bind]
    rfl

theorem exists_of_isOk {x : Except ε α} (h : x.isOk = true) : ∃ a, x = .ok a := by
  cases x with
  | error e => cases h
  | ok a => exact ⟨a, rfl⟩

end Bind

/-- `if not condition: raise error`. -/
def raiseUnless (error : PyError) (condition : Prop) [Decidable condition] : Py Unit :=
  if condition then .ok () else .error error

@[simp] theorem raiseUnless_eq_ok {error : PyError} {condition : Prop} [Decidable condition]
    {u : Unit} : raiseUnless error condition = .ok u ↔ condition := by
  unfold raiseUnless
  split <;> simp_all

theorem raiseUnless_of {error : PyError} {condition : Prop} [Decidable condition]
    (h : condition) : raiseUnless error condition = .ok () := by
  simp [h]

theorem raiseUnless_of_not {error : PyError} {condition : Prop} [Decidable condition]
    (h : ¬ condition) : raiseUnless error condition = .error error := by
  simp [raiseUnless, h]

/-- `a and b and ...`: what follows a false one is not evaluated. -/
def allOf : List (Py Bool) → Py Bool
  | [] => .ok true
  | condition :: rest => do if ← condition then allOf rest else .ok false

/-- `a or b or ...`: what follows a true one is not evaluated. -/
def anyOf : List (Py Bool) → Py Bool
  | [] => .ok false
  | condition :: rest => do if ← condition then .ok true else anyOf rest

/-! ## What a call can raise -/

section Raises

variable {α β : Type} {P : PyError → Prop}

/-- `x` raises nothing but errors of `P`. -/
def Raises (P : PyError → Prop) (x : Py α) : Prop := ∀ e, x = .error e → P e

theorem raises_ok (a : α) : Raises P (.ok a : Py α) := fun _ h => nomatch h

theorem raises_error {e : PyError} (h : P e) : Raises P (.error e : Py α) := by
  rintro _ ⟨⟩
  exact h

theorem Raises.bind {x : Py α} {f : α → Py β} (hx : Raises P x)
    (hf : ∀ a, x = .ok a → Raises P (f a)) : Raises P (x >>= f) := by
  intro e he
  rcases bind_eq_error he with he | ⟨a, ha, he⟩
  · exact hx e he
  · exact hf a ha e he

theorem Raises.mono {Q : PyError → Prop} {x : Py α} (h : Raises P x) (hPQ : ∀ e, P e → Q e) :
    Raises Q x := fun e he => hPQ e (h e he)

theorem raises_raiseUnless {error : PyError} {condition : Prop} [Decidable condition]
    (h : P error) : Raises P (raiseUnless error condition) := by
  unfold raiseUnless
  split
  · exact raises_ok _
  · exact raises_error h

theorem raises_forM {xs : List α} {f : α → Py PUnit} (h : ∀ x ∈ xs, Raises P (f x)) :
    Raises P (xs.forM f) := by
  induction xs with
  | nil => exact raises_ok _
  | cons x xs ih =>
    exact (h x (by simp)).bind fun _ _ => ih fun y hy => h y (List.mem_cons_of_mem _ hy)

theorem raises_mapM {f : α → Py β} {xs : List α}
    (h : ∀ x ∈ xs, Raises P (f x)) : Raises P (xs.mapM f) := by
  induction xs with
  | nil => exact raises_ok _
  | cons x xs ih =>
    rw [List.mapM_cons]
    refine (h x List.mem_cons_self).bind fun _ _ => ?_
    exact (ih fun y hy => h y (List.mem_cons_of_mem _ hy)).bind fun _ _ => raises_ok _

end Raises

end Supplementary
