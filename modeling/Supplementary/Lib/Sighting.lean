/-
# First sightings

An observer looks at a list again and again.  The first thing it sees is bound, if it is fresh; from
then on every look must show that one thing and no other.  `Follows b looks b'` says that an
observer with `b` bound before the looks has `b'` bound after them and has seen nothing else.
-/
import Mathlib.Tactic.Common

namespace Sighting

variable {Run Id : Type}

section

variable (Is : Run → Id → Prop) (fresh : Id → Prop)

inductive Follows : Option Id → List (List Run) → Option Id → Prop
  | nil (b : Option Id) : Follows b [] b
  | idle {looks : List (List Run)} {b : Option Id} (h : Follows none looks b) :
      Follows none ([] :: looks) b
  | bind {run : Run} {id : Id} {looks : List (List Run)} {b : Option Id} (his : Is run id)
      (hfresh : fresh id) (h : Follows (some id) looks b) : Follows none ([run] :: looks) b
  | keep {run : Run} {id : Id} {looks : List (List Run)} {b : Option Id} (his : Is run id)
      (h : Follows (some id) looks b) : Follows (some id) ([run] :: looks) b

end

variable {Is : Run → Id → Prop} {fresh : Id → Prop} {b b' b'' : Option Id} {id : Id}
  {looks looks' : List (List Run)}

/-- One observer goes on where another stopped. -/
theorem Follows.append (h : Follows Is fresh b looks b') (h' : Follows Is fresh b' looks' b'') :
    Follows Is fresh b (looks ++ looks') b'' := by
  induction h with
  | nil b => exact h'
  | idle _ ih => exact .idle (ih h')
  | bind his hfresh _ ih => exact .bind his hfresh (ih h')
  | keep his _ ih => exact .keep his (ih h')

/-- What is bound stays, and every look shows it alone. -/
theorem Follows.bound (h : Follows Is fresh (some id) looks b) :
    b = some id ∧ ∀ look ∈ looks, ∃ run, look = [run] ∧ Is run id := by
  induction looks with
  | nil =>
    cases h
    exact ⟨rfl, fun _ hlook => nomatch hlook⟩
  | cons look looks ih =>
    cases h with
    | keep his h =>
      obtain ⟨hb, hall⟩ := ih h
      exact ⟨hb, List.forall_mem_cons.mpr ⟨⟨_, rfl, his⟩, hall⟩⟩

/-- Nothing is seen as long as nothing is bound. -/
theorem Follows.unbound (h : Follows Is fresh none looks none) : ∀ look ∈ looks, look = [] := by
  induction looks with
  | nil => exact fun _ hlook => nomatch hlook
  | cons look looks ih =>
    cases h with
    | idle h => exact List.forall_mem_cons.mpr ⟨rfl, ih h⟩
    | bind _ _ h => cases h.bound.1

/-- What is bound in the end was fresh when it was first seen, and was seen alone from then on. -/
theorem Follows.first (h : Follows Is fresh none looks (some id)) :
    fresh id ∧ ∃ before after, looks = before ++ after ∧ (∀ look ∈ before, look = []) ∧
      after ≠ [] ∧ ∀ look ∈ after, ∃ run, look = [run] ∧ Is run id := by
  induction looks with
  | nil => cases h
  | cons look looks ih =>
    cases h with
    | idle h =>
      obtain ⟨hfresh, before, after, rfl, hbefore, hne, hafter⟩ := ih h
      exact ⟨hfresh, [] :: before, after, rfl, List.forall_mem_cons.mpr ⟨rfl, hbefore⟩, hne, hafter⟩
    | bind his hfresh h =>
      obtain ⟨hb, hall⟩ := h.bound
      cases hb
      exact ⟨hfresh, [], _, rfl, fun _ hlook => (nomatch hlook), List.cons_ne_nil _ _,
        List.forall_mem_cons.mpr ⟨⟨_, rfl, his⟩, hall⟩⟩

end Sighting
