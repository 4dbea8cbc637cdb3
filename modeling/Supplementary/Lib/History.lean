/-
# Histories of programs

`Lib.Effects` says which traces a program has; here a program is run on after what has happened
so far, its history.  `Keeps A P x Q` says of `x`, started after a history of which `P` holds, that
each operation it issues is allowed by `A` at the history it is issued after, and that where it
ends normally `Q` holds of its result and of the history then.  Of an exception it says nothing but
that what was issued before was allowed.
-/
import Supplementary.Lib.Effects

namespace Effects

variable {Op : Type} {Ans : Op → Type} {σ ε α β : Type}

structure Keeps (A : Trace Ans → Op → Prop) (P : Trace Ans → Prop) (x : Act Ans σ ε α)
    (Q : α → Trace Ans → Prop) : Prop where
  asks : ∀ h s tr op, P h → Asks x s tr op → A (h ++ tr) op
  ends : ∀ h s tr a s', P h → Ends x s tr (.ok a) s' → Q a (h ++ tr)

variable {A : Trace Ans → Op → Prop} {P P' : Trace Ans → Prop} {x : Act Ans σ ε α}
  {f : α → Act Ans σ ε β} {Q Q' : α → Trace Ans → Prop} {R : β → Trace Ans → Prop}

/-! ## 1. The rules -/

theorem Keeps.weaken (hx : Keeps A P x Q) (hP : ∀ h, P' h → P h) (hQ : ∀ a h, Q a h → Q' a h) :
    Keeps A P' x Q' where
  asks h s tr op hh hasks := hx.asks h s tr op (hP h hh) hasks
  ends h s tr a s' hh hends := hQ a _ (hx.ends h s tr a s' (hP h hh) hends)

theorem Keeps.pre (hx : Keeps A P x Q) (hP : ∀ h, P' h → P h) : Keeps A P' x Q :=
  hx.weaken hP fun _ _ h => h

theorem Keeps.post (hx : Keeps A P x Q) (hQ : ∀ a h, Q a h → Q' a h) : Keeps A P x Q' :=
  hx.weaken (fun _ h => h) hQ

/-- What is known of every history before may be used as a hypothesis. -/
theorem keeps_of_prop {p : Prop} (hP : ∀ h, P h → p) (hx : p → Keeps A P x Q) : Keeps A P x Q where
  asks h s tr op hh hasks := (hx (hP h hh)).asks h s tr op hh hasks
  ends h s tr a s' hh hends := (hx (hP h hh)).ends h s tr a s' hh hends

theorem keeps_pure {a : α} (hQ : ∀ h, P h → Q a h) : Keeps A P (pure a : Act Ans σ ε α) Q where
  asks h s tr op _ hasks := absurd hasks not_asks_pure
  ends h s tr a' s' hh hends := by
    obtain ⟨rfl, ⟨⟩, rfl⟩ := ends_pure.mp hends
    rw [List.append_nil]
    exact hQ h hh

theorem keeps_raise {e : ε} : Keeps A P (Act.raise e : Act Ans σ ε α) Q where
  asks h s tr op _ hasks := absurd hasks not_asks_raise
  ends h s tr a' s' hh hends := by
    obtain ⟨-, ⟨⟩, -⟩ := ends_raise.mp hends

/-- What asks nothing leaves the history as it was. -/
theorem keeps_lift {y : Except ε α} (hQ : ∀ a h, y = .ok a → P h → Q a h) :
    Keeps A P (liftM y : Act Ans σ ε α) Q where
  asks h s tr op _ hasks := absurd hasks not_asks_lift
  ends h s tr a s' hh hends := by
    obtain ⟨rfl, heq, rfl⟩ := ends_lift.mp hends
    rw [List.append_nil]
    exact hQ a h heq.symm hh

theorem Keeps.bind (hx : Keeps A P x Q) (hf : ∀ a, Keeps A (Q a) (f a) R) :
    Keeps A P (x >>= f) R where
  asks h s tr op hh hasks := by
    rcases asks_bind.mp hasks with hasks | ⟨tr₁, tr₂, a, s₁, rfl, hends, hasks⟩
    · exact hx.asks h s tr op hh hasks
    · rw [← List.append_assoc]
      exact (hf a).asks _ s₁ tr₂ op (hx.ends h s tr₁ a s₁ hh hends) hasks
  ends h s tr b s' hh hends := by
    obtain ⟨tr₁, tr₂, a, s₁, rfl, hends, hends'⟩ := ends_bind_ok.mp hends
    rw [← List.append_assoc]
    exact (hf a).ends _ s₁ tr₂ b s' (hx.ends h s tr₁ a s₁ hh hends) hends'

/-- A first step that asks nothing gives what it is known to return. -/
theorem keeps_lift_bind {y : Except ε α} (hf : ∀ a, y = .ok a → Keeps A P (f a) R) :
    Keeps A P (liftM y >>= f) R where
  asks h s tr op hh hasks := by
    obtain ⟨a, heq, hasks⟩ := asks_lift_bind.mp hasks
    exact (hf a heq).asks h s tr op hh hasks
  ends h s tr b s' hh hends := by
    obtain ⟨a, heq, hends⟩ := ends_lift_bind_ok.mp hends
    exact (hf a heq).ends h s tr b s' hh hends

/-- A handler may start after any history that its body can have raised at. -/
theorem keeps_catching {handler : ε → Act Ans σ ε α} (hx : Keeps A P x Q)
    (hhandler : ∀ e, Keeps A (fun _ => True) (handler e) Q) : Keeps A P (x.catching handler) Q where
  asks h s tr op hh hasks := by
    rcases asks_catching.mp hasks with hasks | ⟨tr₁, tr₂, e, s₁, rfl, -, hasks⟩
    · exact hx.asks h s tr op hh hasks
    · rw [← List.append_assoc]
      exact (hhandler e).asks _ s₁ tr₂ op trivial hasks
  ends h s tr a s' hh hends := by
    rcases ends_catching.mp hends with ⟨a', ⟨⟩, hends⟩ | ⟨tr₁, tr₂, e, s₁, rfl, -, hends⟩
    · exact hx.ends h s tr a s' hh hends
    · rw [← List.append_assoc]
      exact (hhandler e).ends _ s₁ tr₂ a s' trivial hends

/-! ## 2. Operations that may fail -/

section Fallible

variable {Res : Op → Type} {A : Trace (Fallible ε Res) → Op → Prop}
  {P : Trace (Fallible ε Res) → Prop} {op : Op} {f : Res op → Act (Fallible ε Res) σ ε β}
  {R : β → Trace (Fallible ε Res) → Prop}

theorem keeps_call {Q : Res op → Trace (Fallible ε Res) → Prop} (hA : ∀ h, P h → A h op)
    (hQ : ∀ a h, P h → Q a (h ++ [⟨op, .ok a⟩])) :
    Keeps A P (Act.call op : Act (Fallible ε Res) σ ε (Res op)) Q where
  asks h s tr op' hh hasks := by
    obtain ⟨rfl, rfl⟩ := asks_call.mp hasks
    rw [List.append_nil]
    exact hA h hh
  ends h s tr a s' hh hends := by
    obtain ⟨rfl, -⟩ := ends_call.mp hends
    exact hQ a h hh

end Fallible

end Effects
