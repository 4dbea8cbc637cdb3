/-
# Programs whose steps can fail

A program runs against a world that it changes by steps.  Before each step other processes may
change the world, and the environment decides whether the step is made to fail.  What happened is
kept in a log, the newest step first: each step with the world right before it and the world right
after it.  A run has variables of its own, which an exception leaves as they are, so that a handler
finds them as the failing step left them.

`Triple env P x Q E`: started where `P` holds, `x` returns where `Q` holds or raises where `E`
holds.
-/
import Mathlib.Tactic.Common

namespace Machine

variable {World Call Fault Vars Err α β ε : Type}

/-! ## 1. Runs -/

/-- One step of a program. -/
structure Step (World Call : Type) where
  call : Call
  before : World
  after : World
  /-- Whether the step succeeded. -/
  ok : Bool

/-- What a program cannot choose: which steps are made to fail, by their number, and what other
processes do to the world before each of them. -/
structure Env (World Fault : Type) where
  fault : Nat → Option Fault
  other : Nat → World → World

/-- A run so far. -/
structure Run (World Call Vars : Type) where
  world : World
  log : List (Step World Call)
  vars : Vars

/-- A program with its variables and its exceptions. -/
def Program (World Call Fault Vars Err α : Type) : Type :=
  Env World Fault → Run World Call Vars → Except Err α × Run World Call Vars

namespace Program

/-- Ends at once. -/
def ofExcept (r : Except Err α) : Program World Call Fault Vars Err α := fun _ s => (r, s)

def bind (x : Program World Call Fault Vars Err α)
    (f : α → Program World Call Fault Vars Err β) : Program World Call Fault Vars Err β :=
  fun env s => match x env s with
    | (.ok a, s) => f a env s
    | (.error e, s) => (.error e, s)

instance : Monad (Program World Call Fault Vars Err) where
  pure a := ofExcept (.ok a)
  bind := bind

/-- `raise e`. -/
def raise (e : Err) : Program World Call Fault Vars Err α := ofExcept (.error e)

/-- Makes a step, after what other processes did. -/
def perform (call : Call) (act : Option Fault → World → Except Err α × World) :
    Program World Call Fault Vars Err α := fun env s =>
  let before := env.other s.log.length s.world
  let (r, after) := act (env.fault s.log.length) before
  (r, { s with world := after, log := ⟨call, before, after, r.isOk⟩ :: s.log })

/-- Reads the variables. -/
def locals : Program World Call Fault Vars Err Vars := fun _ s => (.ok s.vars, s)

/-- Assigns variables. -/
def assign (change : Vars → Vars) : Program World Call Fault Vars Err Unit := fun _ s =>
  (.ok (), { s with vars := change s.vars })

/-- Hands over an exception of the kind that is caught. -/
def attempt (caught : Err → Option ε) (x : Program World Call Fault Vars Err α) :
    Program World Call Fault Vars Err (Except ε α) := fun env s =>
  match x env s with
    | (.ok a, s) => (.ok (.ok a), s)
    | (.error e, s) => match caught e with
      | some e' => (.ok (.error e'), s)
      | none => (.error e, s)

/-- The same program with other exceptions. -/
def mapError {Err' : Type} (f : Err → Err') (x : Program World Call Fault Vars Err α) :
    Program World Call Fault Vars Err' α := fun env s =>
  match x env s with
    | (.ok a, s) => (.ok a, s)
    | (.error e, s) => (.error (f e), s)

/-- `try: x finally: last`. -/
def ensuring (x : Program World Call Fault Vars Err α)
    (last : Program World Call Fault Vars Err Unit) : Program World Call Fault Vars Err α :=
  fun env s => match x env s with
    | (r, s) => match last env s with
      | (.ok (), s) => (r, s)
      | (.error e, s) => (.error e, s)

/-! What these do once their first part is known. -/

section

variable {env : Env World Fault} {s s' s'' : Run World Call Vars}
variable {x : Program World Call Fault Vars Err α} {f : α → Program World Call Fault Vars Err β}

theorem bind_of_ok {a : α} (h : x env s = (.ok a, s')) : (x >>= f) env s = f a env s' := by
  change Program.bind x f env s = _
  rw [Program.bind, h]

theorem bind_of_error {e : Err} (h : x env s = (.error e, s')) :
    (x >>= f) env s = (.error e, s') := by
  change Program.bind x f env s = _
  rw [Program.bind, h]

theorem ensuring_of_ok {last : Program World Call Fault Vars Err Unit} {r : Except Err α}
    (hx : x env s = (r, s')) (hlast : last env s' = (.ok (), s'')) :
    ensuring x last env s = (r, s'') := by
  rw [ensuring, hx]
  simp only [hlast]

/-- Whatever the last part does to the result, it ends where it ends. -/
theorem ensuring_run (last : Program World Call Fault Vars Err Unit) {r : Except Err α}
    (hx : x env s = (r, s')) : (ensuring x last env s).2 = (last env s').2 := by
  rw [ensuring, hx]
  rcases hlast : last env s' with ⟨e | u, s''⟩
  · simp only [hlast]
  · simp only [hlast]

end

end Program

/-! ## 2. Triples -/

section

variable {env : Env World Fault} {P P' : Run World Call Vars → Prop}
  {Q Q' : α → Run World Call Vars → Prop} {E E' : Err → Run World Call Vars → Prop}

/-- What a program leaves, if it returns and if it raises. -/
def Triple (env : Env World Fault) (P : Run World Call Vars → Prop)
    (x : Program World Call Fault Vars Err α) (Q : α → Run World Call Vars → Prop)
    (E : Err → Run World Call Vars → Prop) : Prop :=
  ∀ s, P s → match x env s with
    | (.ok a, s') => Q a s'
    | (.error e, s') => E e s'

theorem Triple.weaken {x : Program World Call Fault Vars Err α} (h : Triple env P x Q E)
    (hpre : ∀ s, P' s → P s) (hpost : ∀ a s, Q a s → Q' a s) (herror : ∀ e s, E e s → E' e s) :
    Triple env P' x Q' E' := by
  intro s hs
  have hx := h s (hpre s hs)
  split at hx
  · next a s' heq =>
    exact hpost a s' hx
  · next e s' heq =>
    exact herror e s' hx

theorem Triple.pre {x : Program World Call Fault Vars Err α} (h : Triple env P x Q E)
    (hpre : ∀ s, P' s → P s) : Triple env P' x Q E :=
  h.weaken hpre (fun _ _ h => h) fun _ _ h => h

theorem Triple.post {x : Program World Call Fault Vars Err α} (h : Triple env P x Q E)
    (hpost : ∀ a s, Q a s → Q' a s) : Triple env P x Q' E :=
  h.weaken (fun _ h => h) hpost fun _ _ h => h

/-- A precondition that no run meets. -/
theorem triple_of_false {x : Program World Call Fault Vars Err α} (h : ∀ s, ¬ P s) :
    Triple env P x Q E := fun s hs => absurd hs (h s)

/-- A part of the precondition that does not depend on the run. -/
theorem triple_of_prop {x : Program World Call Fault Vars Err α} {p : Prop}
    (h : p → Triple env P x Q E) : Triple env (fun s => p ∧ P s) x Q E := fun s hs =>
  h hs.1 s hs.2

/-- A value that the precondition has and the program does not read. -/
theorem triple_exists {x : Program World Call Fault Vars Err α} {γ : Type}
    {P : γ → Run World Call Vars → Prop} (h : ∀ c, Triple env (P c) x Q E) :
    Triple env (fun s => ∃ c, P c s) x Q E := fun s ⟨c, hs⟩ => h c s hs

theorem triple_pure {a : α} (h : ∀ s, P s → Q a s) :
    Triple env P (pure a : Program World Call Fault Vars Err α) Q E := h

theorem triple_raise {e : Err} (h : ∀ s, P s → E e s) :
    Triple env P (Program.raise e : Program World Call Fault Vars Err α) Q E := h

theorem Triple.bind {x : Program World Call Fault Vars Err α}
    {f : α → Program World Call Fault Vars Err β} {R : β → Run World Call Vars → Prop}
    (hx : Triple env P x Q E) (hf : ∀ a, Triple env (Q a) (f a) R E) :
    Triple env P (x >>= f) R E := by
  intro s hs
  have hfirst := hx s hs
  change match Program.bind x f env s with
    | (.ok a, s') => R a s'
    | (.error e, s') => E e s'
  unfold Program.bind
  split at hfirst
  · next a s' heq =>
    exact hf a s' hfirst
  · next e s' heq =>
    exact hfirst

theorem triple_locals {Q : Vars → Run World Call Vars → Prop} (h : ∀ s, P s → Q s.vars s) :
    Triple env P (Program.locals : Program World Call Fault Vars Err Vars) Q E := h

theorem triple_assign {change : Vars → Vars} {Q : Unit → Run World Call Vars → Prop}
    (h : ∀ s, P s → Q () { s with vars := change s.vars }) :
    Triple env P (Program.assign change : Program World Call Fault Vars Err Unit) Q E := h

/-- What is caught is handed over; what is not is raised. -/
theorem Triple.attempt {x : Program World Call Fault Vars Err α} {caught : Err → Option ε}
    {Q : Except ε α → Run World Call Vars → Prop}
    (h : Triple env P x (fun a => Q (.ok a)) fun e s => match caught e with
      | some e' => Q (.error e') s
      | none => E e s) : Triple env P (Program.attempt caught x) Q E := by
  intro s hs
  have hx := h s hs
  unfold Program.attempt
  split at hx
  · next a s' heq =>
    exact hx
  · next e s' heq =>
    cases hcaught : caught e with
    | some e' => simpa only [hcaught] using hx
    | none => simpa only [hcaught] using hx

theorem Triple.mapError {Err' : Type} {f : Err → Err'} {x : Program World Call Fault Vars Err α}
    {E : Err' → Run World Call Vars → Prop} (h : Triple env P x Q fun e => E (f e)) :
    Triple env P (Program.mapError f x) Q E := by
  intro s hs
  have hx := h s hs
  unfold Program.mapError
  split at hx
  · exact hx
  · exact hx

/-- The last part runs either way, and what it raises replaces what was raised. -/
theorem Triple.ensuring {x : Program World Call Fault Vars Err α}
    {last : Program World Call Fault Vars Err Unit} (h : Triple env P x Q' E')
    (hok : ∀ a, Triple env (Q' a) last (fun _ => Q a) E)
    (herror : ∀ e, Triple env (E' e) last (fun _ => E e) E) :
    Triple env P (Program.ensuring x last) Q E := by
  intro s hs
  have hx := h s hs
  unfold Program.ensuring
  rcases hfirst : x env s with ⟨e | a, s'⟩
  · rw [hfirst] at hx
    have hlast := herror e s' hx
    rcases hend : last env s' with ⟨e' | u, s''⟩
    · simp only [hend] at hlast ⊢
      exact hlast
    · simp only [hend] at hlast ⊢
      exact hlast
  · rw [hfirst] at hx
    have hlast := hok a s' hx
    rcases hend : last env s' with ⟨e' | u, s''⟩
    · simp only [hend] at hlast ⊢
      exact hlast
    · simp only [hend] at hlast ⊢
      exact hlast

/-- A step: what it does to the world as it finds it. -/
theorem triple_perform {call : Call} {act : Option Fault → World → Except Err α × World}
    (hok : ∀ s a after, P s →
      act (env.fault s.log.length) (env.other s.log.length s.world) = (.ok a, after) →
      Q a { s with
        world := after,
        log := ⟨call, env.other s.log.length s.world, after, true⟩ :: s.log })
    (herror : ∀ s e after, P s →
      act (env.fault s.log.length) (env.other s.log.length s.world) = (.error e, after) →
      E e { s with
        world := after,
        log := ⟨call, env.other s.log.length s.world, after, false⟩ :: s.log }) :
    Triple env P (Program.perform call act) Q E := by
  intro s hs
  unfold Program.perform
  split
  · next a s' heq =>
    cases hact : act (env.fault s.log.length) (env.other s.log.length s.world) with
    | mk r after =>
      simp only [hact, Prod.mk.injEq] at heq
      obtain ⟨rfl, rfl⟩ := heq
      exact hok s a after hs hact
  · next e s' heq =>
    cases hact : act (env.fault s.log.length) (env.other s.log.length s.world) with
    | mk r after =>
      simp only [hact, Prod.mk.injEq] at heq
      obtain ⟨rfl, rfl⟩ := heq
      exact herror s e after hs hact

/-! ## 3. What a program preserves -/

/-- Whether the program returns or raises, `P` still holds. -/
def Preserves (env : Env World Fault) (P : Run World Call Vars → Prop)
    (x : Program World Call Fault Vars Err α) : Prop := Triple env P x (fun _ => P) fun _ => P

theorem preserves_pure {a : α} :
    Preserves env P (pure a : Program World Call Fault Vars Err α) := triple_pure fun _ h => h

theorem preserves_raise {e : Err} :
    Preserves env P (Program.raise e : Program World Call Fault Vars Err α) :=
  triple_raise fun _ h => h

theorem preserves_locals : Preserves env P (Program.locals : Program World Call Fault Vars Err Vars) :=
  triple_locals fun _ h => h

theorem preserves_assign {change : Vars → Vars}
    (h : ∀ s, P s → P { s with vars := change s.vars }) :
    Preserves env P (Program.assign change : Program World Call Fault Vars Err Unit) :=
  triple_assign h

theorem Preserves.bind {x : Program World Call Fault Vars Err α}
    {f : α → Program World Call Fault Vars Err β} (hx : Preserves env P x)
    (hf : ∀ a, Preserves env P (f a)) : Preserves env P (x >>= f) := Triple.bind hx hf

theorem Preserves.attempt {x : Program World Call Fault Vars Err α} {caught : Err → Option ε}
    (hx : Preserves env P x) : Preserves env P (Program.attempt caught x) := by
  refine Triple.attempt (Triple.weaken hx (fun _ h => h) (fun _ _ h => h) fun e s h => ?_)
  cases caught e <;> exact h

theorem Preserves.ensuring {x : Program World Call Fault Vars Err α}
    {last : Program World Call Fault Vars Err Unit} (hx : Preserves env P x)
    (hlast : Preserves env P last) : Preserves env P (Program.ensuring x last) :=
  Triple.ensuring hx (fun _ => hlast) fun _ => hlast

theorem Preserves.mapError {Err' : Type} {f : Err → Err'} {x : Program World Call Fault Vars Err α}
    (hx : Preserves env P x) : Preserves env P (Program.mapError f x) := Triple.mapError hx

theorem preserves_forM {f : β → Program World Call Fault Vars Err Unit} {l : List β}
    (h : ∀ b ∈ l, Preserves env P (f b)) : Preserves env P (l.forM f) := by
  induction l with
  | nil => exact preserves_pure
  | cons b l ih =>
    have hrest := ih fun b' hb => h b' (List.mem_cons_of_mem b hb)
    exact (h b List.mem_cons_self).bind fun _ => hrest

/-- What is preserved holds in the end. -/
theorem Preserves.preserved {x : Program World Call Fault Vars Err α} {s : Run World Call Vars}
    (h : Preserves env P x) (hs : P s) : P (x env s).2 := by
  have hend := h s hs
  split at hend
  · next heq =>
    rw [heq]
    exact hend
  · next heq =>
    rw [heq]
    exact hend

/-- Either of two branches. -/
theorem Preserves.ite {c : Prop} [Decidable c] {x y : Program World Call Fault Vars Err α}
    (hx : c → Preserves env P x) (hy : ¬ c → Preserves env P y) :
    Preserves env P (if c then x else y) := by
  by_cases h : c
  · rw [if_pos h]
    exact hx h
  · rw [if_neg h]
    exact hy h

end

end Machine
