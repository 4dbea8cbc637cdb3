/-
# What a method asks, and how it ends

`Tracks A P x Q`: where the history is as `P` says, every operation that `x` issues is one that `A`
permits after the history so far, and the history is as `Q` says of how `x` ends.  `Walks` says the
same for all exceptions at once; here a handler can tell them apart.
-/
import Supplementary.Lib.Permits

namespace Effects

variable {Op : Type} {Ans : Op → Type} {σ ε α β : Type}

def Tracks (A : Trace Ans → Op → Prop) (P : Trace Ans → Prop) (x : Act Ans σ ε α)
    (Q : Except ε α → Trace Ans → Prop) : Prop :=
  ∀ h s, P h → (∀ tr op, Asks x s tr op → A (h ++ tr) op) ∧
    ∀ tr r s', Ends x s tr r s' → Q r (h ++ tr)

variable {A : Trace Ans → Op → Prop} {P P' : Trace Ans → Prop} {Q Q' : Except ε α → Trace Ans → Prop}
  {R : Except ε β → Trace Ans → Prop} {x : Act Ans σ ε α} {f : α → Act Ans σ ε β}

theorem Tracks.weaken (hx : Tracks A P x Q) (hpre : ∀ h, P' h → P h) (hpost : ∀ r h, Q r h → Q' r h) :
    Tracks A P' x Q' := by
  intro h s hP
  obtain ⟨hasks, hends⟩ := hx h s (hpre h hP)
  exact ⟨hasks, fun tr r s' hend => hpost r _ (hends tr r s' hend)⟩

theorem tracks_ofExcept {r : Except ε α} (hr : ∀ h, P h → Q r h) :
    Tracks A P (Act.ofExcept r : Act Ans σ ε α) Q := by
  intro h s hP
  refine ⟨fun tr op hasks => absurd hasks not_asks_ofExcept, fun tr r' s' hend => ?_⟩
  obtain ⟨rfl, rfl, -⟩ := ends_ofExcept.mp hend
  rw [List.append_nil]
  exact hr h hP

theorem Tracks.bind (hx : Tracks A P x Q) (hf : ∀ a, Tracks A (Q (.ok a)) (f a) R)
    (herror : ∀ e h, Q (.error e) h → R (.error e) h) : Tracks A P (x >>= f) R := by
  intro h s hP
  obtain ⟨hasks, hends⟩ := hx h s hP
  refine ⟨fun tr op hop => ?_, fun tr r s' hend => ?_⟩
  · rcases asks_bind.mp hop with hop | ⟨tr₁, tr₂, a, s₁, rfl, hfirst, hop⟩
    · exact hasks tr op hop
    · rw [← List.append_assoc]
      exact (hf a (h ++ tr₁) s₁ (hends tr₁ _ s₁ hfirst)).1 tr₂ op hop
  · rcases ends_bind.mp hend with ⟨e, rfl, hfirst⟩ | ⟨tr₁, tr₂, a, s₁, rfl, hfirst, hrest⟩
    · exact herror e _ (hends tr _ s' hfirst)
    · rw [← List.append_assoc]
      exact (hf a (h ++ tr₁) s₁ (hends tr₁ _ s₁ hfirst)).2 tr₂ r s' hrest

/-- A first step that asks nothing. -/
theorem tracks_lift_bind {y : Except ε α} (hf : ∀ a, y = .ok a → Tracks A P (f a) R)
    (herror : ∀ e h, y = .error e → P h → R (.error e) h) :
    Tracks A P ((liftM y : Act Ans σ ε α) >>= f) R := by
  cases y with
  | ok a => exact hf a rfl
  | error e => exact tracks_ofExcept fun h hP => herror e h rfl hP

theorem tracks_read_bind {g : σ → Act Ans σ ε β} (hg : ∀ s, Tracks A P (g s) R) :
    Tracks A P (Act.read >>= g) R := fun h s hP => hg s h s hP

theorem tracks_update_bind {change : σ → σ} {g : Unit → Act Ans σ ε β} (hg : Tracks A P (g ()) R) :
    Tracks A P (Act.update change >>= g) R := fun h s hP => hg h (change s) hP

/-- A handler sees what was raised. -/
theorem Tracks.attempt_bind {g : Except ε α → Act Ans σ ε β} (hx : Tracks A P x Q)
    (hg : ∀ r, Tracks A (Q r) (g r) R) : Tracks A P (Act.attempt x >>= g) R := by
  intro h s hP
  obtain ⟨hasks, hends⟩ := hx h s hP
  refine ⟨fun tr op hop => ?_, fun tr r s' hend => ?_⟩
  · rcases asks_attempt_bind.mp hop with hop | ⟨tr₁, tr₂, r₁, s₁, rfl, hfirst, hop⟩
    · exact hasks tr op hop
    · rw [← List.append_assoc]
      exact (hg r₁ (h ++ tr₁) s₁ (hends tr₁ r₁ s₁ hfirst)).1 tr₂ op hop
  · obtain ⟨tr₁, tr₂, r₁, s₁, rfl, hfirst, hrest⟩ := ends_attempt_bind.mp hend
    rw [← List.append_assoc]
    exact (hg r₁ (h ++ tr₁) s₁ (hends tr₁ r₁ s₁ hfirst)).2 tr₂ r s' hrest

/-- What always may be asked, and leaves a predicate on histories as it is. -/
theorem Tracks.of_only {free : Op → Prop} (hx : Only free x) (hA : ∀ h op, P h → free op → A h op)
    (hP : Stays free P) : Tracks A P x (fun _ => P) := by
  intro h s hh
  obtain ⟨hasks, hok, hraise⟩ := Walks.of_only hx hA hP h s hh
  refine ⟨hasks, fun tr r s' hend => ?_⟩
  cases r with
  | ok a => exact hok tr a s' hend
  | error e => exact hraise tr e s' hend

section

variable {free : Op → Prop}

theorem only_attempt (hx : Only free x) : Only free (Act.attempt x) :=
  fun s tr op hop => hx s tr op (asks_attempt.mp hop)

theorem Only.catching {handler : ε → Act Ans σ ε α} (hx : Only free x)
    (hhandler : ∀ e, Only free (handler e)) : Only free (x.catching handler) := by
  refine (only_attempt hx).bind fun r => ?_
  cases r with
  | ok a => exact only_pure
  | error e => exact hhandler e

theorem Only.ensuring {last : Act Ans σ ε Unit} (hx : Only free x) (hlast : Only free last) :
    Only free (x.ensuring last) := by
  refine (only_attempt hx).bind fun r => ?_
  cases r with
  | ok a => exact hlast.bind fun _ => only_pure
  | error e => exact hlast.bind fun _ => only_ofExcept

end

section Fallible

variable {Res : Op → Type} {op : Op} {A : Trace (Fallible ε Res) → Op → Prop}
  {P : Trace (Fallible ε Res) → Prop} {Q : Except ε (Res op) → Trace (Fallible ε Res) → Prop}

theorem tracks_call (hA : ∀ h, P h → A h op) (hQ : ∀ h r, P h → Q r (h ++ [⟨op, r⟩])) :
    Tracks A P (Act.call op : Act (Fallible ε Res) σ ε (Res op)) Q := by
  intro h s hP
  refine ⟨fun tr op' hop => ?_, fun tr r s' hend => ?_⟩
  · obtain ⟨rfl, rfl⟩ := asks_call.mp hop
    rw [List.append_nil]
    exact hA h hP
  · obtain ⟨rfl, -⟩ := ends_call.mp hend
    exact hQ h r hP

end Fallible

end Effects
