/-
# What a method may ask after what it has asked

`Walks A P x Q E`: where the history is as `P` says, every operation that `x` issues is one that `A`
permits after the history so far; if it returns the history is as `Q` says of the result, and if it
raises it is as `E` says.  The state does not matter: what has happened is in the history.

A method that only asks what is always permitted, and what leaves a predicate on histories as it is,
keeps that predicate (`Walks.of_only`).
-/
import Supplementary.Lib.Effects

namespace Effects

variable {Op : Type} {Ans : Op → Type} {σ ε α β : Type}

/-- Every operation is permitted by the history it is asked after. -/
def Walks (A : Trace Ans → Op → Prop) (P : Trace Ans → Prop) (x : Act Ans σ ε α)
    (Q : α → Trace Ans → Prop) (E : Trace Ans → Prop) : Prop :=
  ∀ h s, P h → (∀ tr op, Asks x s tr op → A (h ++ tr) op) ∧
    (∀ tr a s', Ends x s tr (.ok a) s' → Q a (h ++ tr)) ∧
    ∀ tr e s', Ends x s tr (.error e) s' → E (h ++ tr)

section

variable {A : Trace Ans → Op → Prop} {P P' E E' : Trace Ans → Prop} {Q Q' : α → Trace Ans → Prop}
  {R : β → Trace Ans → Prop} {x : Act Ans σ ε α} {f : α → Act Ans σ ε β}

/-! ## 1. The rules -/

theorem Walks.weaken (hx : Walks A P x Q E) (hpre : ∀ h, P' h → P h) (hpost : ∀ a h, Q a h → Q' a h)
    (herror : ∀ h, E h → E' h) : Walks A P' x Q' E' := by
  intro h s hP
  obtain ⟨hasks, hok, hraise⟩ := hx h s (hpre h hP)
  exact ⟨hasks, fun tr a s' hends => hpost a _ (hok tr a s' hends),
    fun tr e s' hends => herror _ (hraise tr e s' hends)⟩

theorem walks_ofExcept {r : Except ε α} (hok : ∀ a h, r = .ok a → P h → Q a h)
    (herror : ∀ h, P h → E h) : Walks A P (Act.ofExcept r : Act Ans σ ε α) Q E := by
  intro h s hP
  refine ⟨fun tr op hasks => absurd hasks not_asks_ofExcept, fun tr a s' hends => ?_,
    fun tr e s' hends => ?_⟩
  · obtain ⟨rfl, ha, -⟩ := ends_ofExcept.mp hends
    rw [List.append_nil]
    exact hok a h ha.symm hP
  · obtain ⟨rfl, -, -⟩ := ends_ofExcept.mp hends
    rw [List.append_nil]
    exact herror h hP

theorem walks_pure {a : α} (hok : ∀ h, P h → Q a h) : Walks A P (pure a : Act Ans σ ε α) Q E := by
  intro h s hP
  refine ⟨fun tr op hasks => absurd hasks not_asks_pure, fun tr b s' hends => ?_,
    fun tr e s' hends => ?_⟩
  · obtain ⟨rfl, hb, -⟩ := ends_pure.mp hends
    rw [List.append_nil, Except.ok.inj hb]
    exact hok h hP
  · cases (ends_pure.mp hends).2.1

theorem walks_update {change : σ → σ} {Q : Unit → Trace Ans → Prop} (hok : ∀ h, P h → Q () h) :
    Walks A P (Act.update change : Act Ans σ ε Unit) Q E := by
  intro h s hP
  refine ⟨fun tr op hasks => absurd hasks not_asks_update, fun tr a s' hends => ?_,
    fun tr e s' hends => ?_⟩
  · obtain ⟨rfl, -, -⟩ := ends_update.mp hends
    rw [List.append_nil]
    exact hok h hP
  · cases (ends_update.mp hends).2.1

theorem Walks.bind (hx : Walks A P x Q E) (hf : ∀ a, Walks A (Q a) (f a) R E) :
    Walks A P (x >>= f) R E := by
  intro h s hP
  obtain ⟨hasks, hok, hraise⟩ := hx h s hP
  refine ⟨fun tr op hop => ?_, fun tr b s' hends => ?_, fun tr e s' hends => ?_⟩
  · rcases asks_bind.mp hop with hop | ⟨tr₁, tr₂, a, s₁, rfl, hfirst, hop⟩
    · exact hasks tr op hop
    · rw [← List.append_assoc]
      exact (hf a (h ++ tr₁) s₁ (hok tr₁ a s₁ hfirst)).1 tr₂ op hop
  · obtain ⟨tr₁, tr₂, a, s₁, rfl, hfirst, hrest⟩ := ends_bind_ok.mp hends
    rw [← List.append_assoc]
    exact (hf a (h ++ tr₁) s₁ (hok tr₁ a s₁ hfirst)).2.1 tr₂ b s' hrest
  · rcases ends_bind.mp hends with ⟨e', he, hfirst⟩ | ⟨tr₁, tr₂, a, s₁, rfl, hfirst, hrest⟩
    · cases he
      exact hraise tr e s' hfirst
    · rw [← List.append_assoc]
      exact (hf a (h ++ tr₁) s₁ (hok tr₁ a s₁ hfirst)).2.2 tr₂ e s' hrest

/-- What a method was started with stays known where it does not depend on the history. -/
theorem walks_of_prop {p : Prop} (hx : p → Walks A P x Q E) : Walks A (fun h => p ∧ P h) x Q E :=
  fun h s hP => hx hP.1 h s hP.2

/-- What the history does not show to be the same for all histories. -/
theorem walks_exists {γ : Type} {P : γ → Trace Ans → Prop} (hx : ∀ c, Walks A (P c) x Q E) :
    Walks A (fun h => ∃ c, P c h) x Q E := by
  rintro h s ⟨c, hP⟩
  exact hx c h s hP

theorem walks_read {Q : σ → Trace Ans → Prop} (hok : ∀ s h, P h → Q s h) :
    Walks A P (Act.read : Act Ans σ ε σ) Q E := by
  intro h s hP
  refine ⟨fun tr op hasks => absurd hasks not_asks_read, fun tr a s' hends => ?_,
    fun tr e s' hends => ?_⟩
  · obtain ⟨rfl, -, -⟩ := ends_read.mp hends
    rw [List.append_nil]
    exact hok a h hP
  · cases (ends_read.mp hends).2.1

/-- What is known where a method has ended. -/
def Ending (Q : α → Trace Ans → Prop) (E : Trace Ans → Prop) : Except ε α → Trace Ans → Prop
  | .ok a => Q a
  | .error _ => E

/-- What a method raises is handed over. -/
theorem Walks.attempt (hx : Walks A P x Q E) : Walks A P (Act.attempt x) (Ending Q E) E' := by
  intro h s hP
  obtain ⟨hasks, hok, hraise⟩ := hx h s hP
  refine ⟨fun tr op hop => hasks tr op (asks_attempt.mp hop), fun tr r s' hends => ?_,
    fun tr e s' hends => ?_⟩
  · obtain ⟨r', hr, hends⟩ := ends_attempt.mp hends
    rw [Except.ok.inj hr]
    cases r' with
    | ok a => exact hok tr a s' hends
    | error e => exact hraise tr e s' hends
  · obtain ⟨r', hr, -⟩ := ends_attempt.mp hends
    cases hr

theorem Walks.catching {handler : ε → Act Ans σ ε α} (hx : Walks A P x Q E)
    (hhandler : ∀ e, Walks A E (handler e) Q E') : Walks A P (x.catching handler) Q E' := by
  refine Walks.bind hx.attempt fun r => ?_
  cases r with
  | ok a => exact walks_pure fun _ hQ => hQ
  | error e => exact hhandler e

theorem Walks.ensuring {last : Act Ans σ ε Unit} (hx : Walks A P x Q E)
    (hok : ∀ a, Walks A (Q a) last (fun _ => Q a) E) (herror : Walks A E last (fun _ => E) E) :
    Walks A P (x.ensuring last) Q E := by
  refine Walks.bind hx.attempt fun r => ?_
  cases r with
  | ok a =>
    exact Walks.bind (hok a) fun _ => walks_pure fun _ hQ => hQ
  | error e =>
    refine Walks.bind herror fun _ => walks_ofExcept (fun b h hb _ => ?_) fun h hE => hE
    cases hb

/-! ## 2. What is always permitted -/

/-- A method that issues only such operations. -/
def Only (free : Op → Prop) (x : Act Ans σ ε α) : Prop := ∀ s tr op, Asks x s tr op → free op

section

variable {free : Op → Prop}

/-- A predicate on histories that such operations leave as it is. -/
def Stays (free : Op → Prop) (P : Trace Ans → Prop) : Prop :=
  ∀ h (e : Event Ans), P h → free e.1 → P (h ++ [e])

theorem Stays.append (hP : Stays free P) {h tr : Trace Ans} (hh : P h) (htr : ∀ e ∈ tr, free e.1) :
    P (h ++ tr) := by
  induction tr generalizing h with
  | nil =>
    rw [List.append_nil]
    exact hh
  | cons e tr ih =>
    obtain ⟨he, hrest⟩ := List.forall_mem_cons.mp htr
    have hnext := ih (hP h e hh he) hrest
    rwa [List.append_assoc, List.singleton_append] at hnext

theorem Walks.of_only (hx : Only free x) (hA : ∀ h op, P h → free op → A h op)
    (hP : Stays free P) : Walks A P x (fun _ => P) P := by
  have hfree {s : σ} {tr : Trace Ans} {r : Except ε α} {s' : σ} (hends : Ends x s tr r s') :
      ∀ e ∈ tr, free e.1 := by
    intro e he
    obtain ⟨pre, post, rfl⟩ := List.append_of_mem he
    have hasked := Returns.prefix hends
    exact hx s pre e.1 hasked
  intro h s hh
  refine ⟨fun tr op hop => ?_, fun tr a s' hends => hP.append hh (hfree hends),
    fun tr e s' hends => hP.append hh (hfree hends)⟩
  refine hA _ op (hP.append hh ?_) (hx s tr op hop)
  intro e he
  obtain ⟨pre, post, rfl⟩ := List.append_of_mem he
  have hasked := Issues.prefix hop
  exact hx s pre e.1 hasked

theorem only_ofExcept {r : Except ε α} : Only free (Act.ofExcept r : Act Ans σ ε α) :=
  fun _ _ _ hop => absurd hop not_asks_ofExcept

theorem only_pure {a : α} : Only free (pure a : Act Ans σ ε α) :=
  fun _ _ _ hop => absurd hop not_asks_pure

theorem only_update {change : σ → σ} : Only free (Act.update change : Act Ans σ ε Unit) :=
  fun _ _ _ hop => absurd hop not_asks_update

theorem only_read : Only free (Act.read : Act Ans σ ε σ) :=
  fun _ _ _ hop => absurd hop not_asks_read

theorem Only.bind (hx : Only free x) (hf : ∀ a, Only free (f a)) : Only free (x >>= f) := by
  intro s tr op hop
  rcases asks_bind.mp hop with hop | ⟨tr₁, tr₂, a, s₁, rfl, -, hop⟩
  · exact hx s tr op hop
  · exact hf a s₁ tr₂ op hop

end

end

/-! ## 3. Operations that may fail -/

section Fallible

variable {Res : Op → Type} {op : Op} {free : Op → Prop}

theorem only_call (h : free op) : Only free (Act.call op : Act (Fallible ε Res) σ ε (Res op)) := by
  intro s tr op' hop
  rw [(asks_call.mp hop).2]
  exact h

theorem walks_call {A : Trace (Fallible ε Res) → Op → Prop} {P E : Trace (Fallible ε Res) → Prop}
    {Q : Res op → Trace (Fallible ε Res) → Prop} (hA : ∀ h, P h → A h op)
    (hok : ∀ h a, P h → Q a (h ++ [⟨op, .ok a⟩])) (herror : ∀ h e, P h → E (h ++ [⟨op, .error e⟩])) :
    Walks A P (Act.call op : Act (Fallible ε Res) σ ε (Res op)) Q E := by
  intro h s hP
  refine ⟨fun tr op' hop => ?_, fun tr a s' hends => ?_, fun tr e s' hends => ?_⟩
  · obtain ⟨rfl, rfl⟩ := asks_call.mp hop
    rw [List.append_nil]
    exact hA h hP
  · obtain ⟨rfl, -⟩ := ends_call.mp hends
    exact hok h a hP
  · obtain ⟨rfl, -⟩ := ends_call.mp hends
    exact herror h e hP

end Fallible

end Effects
