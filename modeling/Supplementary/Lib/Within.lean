/-
# What is asked once something is known

Facts about a history that stay true as it grows, and programs that ask nothing but what such a fact
allows.  `Within A P x`: started after a history that `P` holds of, `x` asks only what `A` permits.
Since `P` lasts, no rule has to say how a part ends, whether it returns or raises; what a part finds
out is added to `P` (`Within.learn`).

`Ran h x a` says that `x` was executed in the history and returned `a`.  It is a fact that lasts, and it
comes apart as `x` does.
-/
import Supplementary.Lib.Tracks

namespace Effects

variable {Op : Type} {Ans : Op → Type} {σ ε α β : Type}

/-- What holds of a history holds of every longer one. -/
def Lasts (P : Trace Ans → Prop) : Prop := ∀ h tr, P h → P (h ++ tr)

def Within (A : Trace Ans → Op → Prop) (P : Trace Ans → Prop) (x : Act Ans σ ε α) : Prop :=
  ∀ h s tr op, P h → Asks x s tr op → A (h ++ tr) op

variable {A : Trace Ans → Op → Prop} {P P' : Trace Ans → Prop} {K : α → Trace Ans → Prop}
  {x : Act Ans σ ε α} {f : α → Act Ans σ ε β} {free : Op → Prop}

theorem lasts_true : Lasts fun _ : Trace Ans => True := fun _ _ _ => trivial

theorem Lasts.and (hP : Lasts P) (hP' : Lasts P') : Lasts fun h => P h ∧ P' h :=
  fun h tr hh => ⟨hP h tr hh.1, hP' h tr hh.2⟩

theorem Within.weaken (hx : Within A P x) (hpre : ∀ h, P' h → P h) : Within A P' x :=
  fun h s tr op hh hasks => hx h s tr op (hpre h hh) hasks

/-- What is allowed where `P` holds is enough. -/
theorem Within.allow {A' : Trace Ans → Op → Prop} (hx : Within A P x) (hP : Lasts P)
    (hA : ∀ h op, P h → A h op → A' h op) : Within A' P x :=
  fun h s tr op hh hasks => hA (h ++ tr) op (hP h tr hh) (hx h s tr op hh hasks)

theorem within_ofExcept {r : Except ε α} : Within A P (Act.ofExcept r : Act Ans σ ε α) :=
  fun _ _ _ _ _ hasks => absurd hasks not_asks_ofExcept

theorem within_pure {a : α} : Within A P (pure a : Act Ans σ ε α) :=
  fun _ _ _ _ _ hasks => absurd hasks not_asks_pure

theorem only_lift_bind {y : Except ε α} (hf : ∀ a, Only free (f a)) :
    Only free ((liftM y : Act Ans σ ε α) >>= f) :=
  Only.bind only_ofExcept hf

/-- What was asked in such a part is of that kind. -/
theorem Only.ends {s s' : σ} {tr : Trace Ans} {r : Except ε α} (hx : Only free x)
    (hends : Ends x s tr r s') : ∀ e ∈ tr, free e.1 := by
  intro e he
  obtain ⟨before, later, rfl⟩ := List.append_of_mem he
  have hasked : Asks x s before e.1 := Returns.prefix hends
  exact hx s before e.1 hasked

/-- What asks for one kind of operation asks only what is allowed, if that kind is. -/
theorem Within.of_only (hx : Only free x) (hP : Lasts P) (hA : ∀ h op, P h → free op → A h op) :
    Within A P x := fun h s tr op hh hasks => hA (h ++ tr) op (hP h tr hh) (hx s tr op hasks)

/-- What the first part has found out is known from then on. -/
theorem Within.learn (hx : Within A P x) (hP : Lasts P)
    (hK : ∀ h s tr a s', Ends x s tr (.ok a) s' → K a (h ++ tr))
    (hf : ∀ a, Within A (fun h => P h ∧ K a h) (f a)) : Within A P (x >>= f) := by
  intro h s tr op hh hasks
  rcases asks_bind.mp hasks with hasks | ⟨tr₁, tr₂, a, s₁, rfl, hends, hasks⟩
  · exact hx h s tr op hh hasks
  · rw [← List.append_assoc]
    exact hf a (h ++ tr₁) s₁ tr₂ op ⟨hP h tr₁ hh, hK h s tr₁ a s₁ hends⟩ hasks

theorem Within.bind (hx : Within A P x) (hP : Lasts P) (hf : ∀ a, Within A P (f a)) :
    Within A P (x >>= f) :=
  hx.learn (K := fun _ _ => True) hP (fun _ _ _ _ _ _ => trivial)
    fun a => (hf a).weaken fun _ hh => hh.1

/-- A first step that asks nothing. -/
theorem within_lift_bind {y : Except ε α} (hf : ∀ a, y = .ok a → Within A P (f a)) :
    Within A P ((liftM y : Act Ans σ ε α) >>= f) := by
  intro h s tr op hh hasks
  obtain ⟨a, hy, hasks⟩ := asks_lift_bind.mp hasks
  exact hf a hy h s tr op hh hasks

theorem Within.attempt_bind {g : Except ε α → Act Ans σ ε β} (hx : Within A P x) (hP : Lasts P)
    (hg : ∀ r, Within A P (g r)) : Within A P (Act.attempt x >>= g) := by
  intro h s tr op hh hasks
  rcases asks_attempt_bind.mp hasks with hasks | ⟨tr₁, tr₂, r, s₁, rfl, -, hasks⟩
  · exact hx h s tr op hh hasks
  · rw [← List.append_assoc]
    exact hg r (h ++ tr₁) s₁ tr₂ op (hP h tr₁ hh) hasks

/-! ## What was executed -/

def Ran (h : Trace Ans) (x : Act Ans σ ε α) (a : α) : Prop :=
  ∃ pre tr post s s', h = pre ++ (tr ++ post) ∧ Ends x s tr (.ok a) s'

section

variable {h : Trace Ans} {a : α} {b : β}

theorem ran_of_ends {tr : Trace Ans} {s s' : σ} (hends : Ends x s tr (.ok a) s') : Ran (h ++ tr) x a :=
  ⟨h, tr, [], s, s', by rw [List.append_nil], hends⟩

theorem lasts_ran : Lasts fun h => Ran h x a := by
  rintro h tr ⟨pre, tr₁, post, s, s', rfl, hends⟩
  exact ⟨pre, tr₁, post ++ tr, s, s', by simp only [List.append_assoc], hends⟩

theorem Ran.prepend (hran : Ran h x a) (before : Trace Ans) : Ran (before ++ h) x a := by
  rcases hran with ⟨pre, tr, post, s, s', rfl, hends⟩
  exact ⟨before ++ pre, tr, post, s, s', (List.append_assoc _ _ _).symm, hends⟩

theorem ran_bind (hran : Ran h (x >>= f) b) : ∃ a, Ran h x a ∧ Ran h (f a) b := by
  rcases hran with ⟨pre, tr, post, s, s', rfl, hends⟩
  rcases ends_bind_ok.mp hends with ⟨tr₁, tr₂, a, s₁, rfl, hfirst, hrest⟩
  exact ⟨a, ⟨pre, tr₁, tr₂ ++ post, s, s₁, by simp only [List.append_assoc], hfirst⟩,
    pre ++ tr₁, tr₂, post, s₁, s', by simp only [List.append_assoc], hrest⟩

theorem ran_lift {y : Except ε α} (hran : Ran h (liftM y : Act Ans σ ε α) a) : y = .ok a := by
  rcases hran with ⟨pre, tr, post, s, s', -, hends⟩
  rcases ends_lift.mp hends with ⟨-, hy, -⟩
  exact hy.symm

theorem ran_lift_bind {y : Except ε α} (hran : Ran h ((liftM y : Act Ans σ ε α) >>= f) b) :
    ∃ a, y = .ok a ∧ Ran h (f a) b := by
  rcases ran_bind hran with ⟨a, hy, hrest⟩
  exact ⟨a, ran_lift hy, hrest⟩

end

/-- What the first part returned, it has returned from then on. -/
theorem Within.ran (hx : Within A P x) (hP : Lasts P)
    (hf : ∀ a, Within A (fun h => P h ∧ Ran h x a) (f a)) : Within A P (x >>= f) :=
  hx.learn (K := fun a h => Ran h x a) hP (fun _ _ _ _ _ hends => ran_of_ends hends) hf

theorem Within.attempt_ran {g : Except ε α → Act Ans σ ε β} (hx : Within A P x) (hP : Lasts P)
    (hok : ∀ a, Within A (fun h => P h ∧ Ran h x a) (g (.ok a)))
    (herror : ∀ e, Within A P (g (.error e))) : Within A P (Act.attempt x >>= g) := by
  intro h s tr op hh hasks
  rcases asks_attempt_bind.mp hasks with hasks | ⟨tr₁, tr₂, r, s₁, rfl, hends, hasks⟩
  · exact hx h s tr op hh hasks
  · rw [← List.append_assoc]
    cases r with
    | ok a => exact hok a (h ++ tr₁) s₁ tr₂ op ⟨hP h tr₁ hh, ran_of_ends hends⟩ hasks
    | error e => exact herror e (h ++ tr₁) s₁ tr₂ op (hP h tr₁ hh) hasks

section Fallible

variable {Res : Op → Type} {op : Op} {h : Trace (Fallible ε Res)} {a : Res op}

theorem mem_of_ran (hran : Ran h (Act.call op : Act (Fallible ε Res) σ ε (Res op)) a) :
    (⟨op, .ok a⟩ : Event (Fallible ε Res)) ∈ h := by
  rcases hran with ⟨pre, tr, post, s, s', rfl, hends⟩
  rcases ends_call.mp hends with ⟨rfl, -⟩
  exact List.mem_append_right _ List.mem_cons_self

end Fallible

end Effects
