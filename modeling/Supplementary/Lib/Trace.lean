/-
# Runs of a machine that may reject

A machine takes a call in a state to the next state and to a result or an error.  A run is any
sequence of calls, rejected ones included, with its log: the calls and what they returned, oldest
first.  Nothing here knows what the machine does.

An invariant may mention the log (`Run.invariant`).  What held just before some entry of the log
is recovered by splitting the run there (`Run.split`), and a machine that a rejection kills
accepts nothing after the first one (`Run.dead`, with `Rejected` for what a dead one returns).
-/
import Mathlib.Data.List.Basic
import Mathlib.Tactic.Common

namespace Trace

variable {σ ι ε ω : Type*} {step : σ → ι → σ × Except ε ω}

/-- The calls of a run and what each returned, oldest first. -/
abbrev Log (ι ε ω : Type*) := List (ι × Except ε ω)

/-- `Run step s₀ log s`: the calls of `log`, made one after another from `s₀`, return what `log`
says and lead to `s`. -/
inductive Run (step : σ → ι → σ × Except ε ω) (s₀ : σ) : Log ι ε ω → σ → Prop
  | nil : Run step s₀ [] s₀
  | snoc {log : Log ι ε ω} {s : σ} (i : ι) (h : Run step s₀ log s) :
      Run step s₀ (log ++ [(i, (step s i).2)]) (step s i).1

/-- **The invariant rule.** -/
theorem Run.invariant {s₀ s : σ} {log : Log ι ε ω} {I : Log ι ε ω → σ → Prop} (hinit : I [] s₀)
    (hstep : ∀ log s i, I log s → I (log ++ [(i, (step s i).2)]) (step s i).1)
    (h : Run step s₀ log s) : I log s := by
  induction h with
  | nil => exact hinit
  | snoc i _ ih => exact hstep _ _ i ih

theorem Run.trans {s₀ s s' : σ} {log log' : Log ι ε ω} (h : Run step s₀ log s)
    (h' : Run step s log' s') : Run step s₀ (log ++ log') s' := by
  induction h' with
  | nil => simpa using h
  | snoc i _ ih =>
    rw [← List.append_assoc]
    exact ih.snoc i

theorem Run.one (s : σ) (i : ι) : Run step s [(i, (step s i).2)] (step s i).1 := Run.nil.snoc i

/-- A run split at one of its calls. -/
theorem Run.split {s₀ s : σ} {pre post : Log ι ε ω} {entry : ι × Except ε ω}
    (h : Run step s₀ (pre ++ entry :: post) s) :
    ∃ s', Run step s₀ pre s' ∧ (step s' entry.1).2 = entry.2 ∧
      Run step (step s' entry.1).1 post s := by
  generalize hlog : pre ++ entry :: post = log at h
  induction h generalizing post with
  | nil => simp at hlog
  | @snoc log s i h ih =>
    rcases List.eq_nil_or_concat post with rfl | ⟨post', last, rfl⟩
    · obtain ⟨rfl, hentry⟩ := List.append_inj' hlog rfl
      obtain rfl : entry = (i, (step s i).2) := by simpa using hentry
      exact ⟨s, h, rfl, Run.nil⟩
    · rw [List.concat_eq_append, ← List.cons_append, ← List.append_assoc] at hlog
      obtain ⟨hpre, hlast⟩ := List.append_inj' hlog rfl
      obtain rfl : last = (i, (step s i).2) := by simpa using hlast
      obtain ⟨s', hbefore, hentry, hafter⟩ := ih hpre
      refine ⟨s', hbefore, hentry, ?_⟩
      rw [List.concat_eq_append]
      exact hafter.snoc i

/-- A log entry that is a rejection. -/
def Rejected (entry : ι × Except ε ω) : Prop := ∃ e, entry.2 = .error e

/-- In a state that is dead every call leaves the machine dead, and what it returns is in `Q`. -/
def Dead (step : σ → ι → σ × Except ε ω) (dead : σ → Prop) (Q : ι × Except ε ω → Prop) : Prop :=
  ∀ s i, dead s → dead (step s i).1 ∧ Q (i, (step s i).2)

/-- Nothing else is returned from a dead state on. -/
theorem Run.of_dead {dead : σ → Prop} {Q : ι × Except ε ω → Prop} (hdead : Dead step dead Q)
    {s₀ s : σ} {log : Log ι ε ω} (h₀ : dead s₀) (h : Run step s₀ log s) :
    dead s ∧ ∀ entry ∈ log, Q entry := by
  induction h with
  | nil => exact ⟨h₀, by simp⟩
  | @snoc log s i h ih =>
    obtain ⟨hs, hall⟩ := ih
    obtain ⟨hnext, hentry⟩ := hdead s i hs
    refine ⟨hnext, fun entry hmem => ?_⟩
    rcases List.mem_append.mp hmem with hmem | hmem
    · exact hall entry hmem
    · obtain rfl : entry = (i, (step s i).2) := by simpa using hmem
      exact hentry

/-- **After an entry that kills the machine** it stays dead, whatever is called. -/
theorem Run.dead {dead : σ → Prop} {Q : ι × Except ε ω → Prop} (hdead : Dead step dead Q)
    {s₀ s : σ} {pre post : Log ι ε ω} {entry : ι × Except ε ω}
    (hkill : ∀ s', (step s' entry.1).2 = entry.2 → dead (step s' entry.1).1)
    (h : Run step s₀ (pre ++ entry :: post) s) : dead s ∧ ∀ later ∈ post, Q later := by
  obtain ⟨s', -, hentry, hafter⟩ := h.split
  exact hafter.of_dead hdead (hkill s' hentry)

/-- A run's log determines where it ends. -/
theorem Run.unique {s₀ s s' : σ} {log : Log ι ε ω} (h : Run step s₀ log s)
    (h' : Run step s₀ log s') : s = s' := by
  have key {log : Log ι ε ω} {s : σ} (h : Run step s₀ log s) :
      s = (log.map Prod.fst).foldl (fun s i => (step s i).1) s₀ := by
    induction h with
    | nil => rfl
    | snoc i _ ih => rw [List.map_append, List.foldl_append, ← ih]; rfl
  rw [key h, key h']

/-! ## Reading a log -/

/-- What `f` reads off the accepted calls and their results, oldest first. -/
def accepted {α : Type*} (f : ι → ω → Option α) (log : Log ι ε ω) : List α :=
  log.filterMap fun entry => match entry.2 with
    | .ok out => f entry.1 out
    | .error _ => none

variable {α : Type*} {f : ι → ω → Option α}

@[simp] theorem accepted_nil : accepted f ([] : Log ι ε ω) = [] := rfl

theorem accepted_append (log log' : Log ι ε ω) :
    accepted f (log ++ log') = accepted f log ++ accepted f log' := List.filterMap_append

@[simp] theorem accepted_snoc_error (log : Log ι ε ω) (i : ι) (e : ε) :
    accepted f (log ++ [(i, .error e)]) = accepted f log := by
  simp [accepted]

theorem accepted_snoc_ok (log : Log ι ε ω) (i : ι) (out : ω) :
    accepted f (log ++ [(i, .ok out)]) = accepted f log ++ (f i out).toList := by
  rw [accepted_append]
  cases hf : f i out <;> simp [accepted, hf]

end Trace
