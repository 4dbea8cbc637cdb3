/-
# What `json.loads` raises

A text that is no JSON raises `JSONDecodeError`, an integer that is too long a `ValueError`, and a text
that is nested too deep a `RecursionError`; beside these there is what the hooks raise.  A text that
starts with a brace is a dict or raises.
-/
import Supplementary.Python.Json

namespace Supplementary.Json

/-! ## 1. Errors -/

inductive LoadsError (hooks : Hooks) : PyError → Prop
  | decode : LoadsError hooks .jsonDecodeError
  | recursion : LoadsError hooks .recursionError
  | value (message : String) : LoadsError hooks (.valueError message)
  | duplicate : LoadsError hooks hooks.duplicate
  | constant {e : PyError} (h : hooks.constant = some e) : LoadsError hooks e

variable {rt : Runtime} {hooks : Hooks}

theorem scanEscape_raises (text : List Nat) : Raises (LoadsError hooks) (scanEscape text) := by
  unfold scanEscape
  repeat' split
  all_goals first
    | exact raises_ok _
    | exact raises_error .decode

theorem scanString_raises (fuel : Nat) (text : List Nat) :
    Raises (LoadsError hooks) (scanString fuel text) := by
  induction fuel generalizing text with
  | zero => exact raises_error .decode
  | succ fuel ih =>
    cases text with
    | nil => exact raises_error .decode
    | cons c rest =>
      rw [scanString]
      split
      · exact raises_ok _
      · split
        · exact raises_error .decode
        · dsimp only
          split
          · exact (scanEscape_raises _).bind fun _ _ => (ih _).bind fun _ _ => raises_ok _
          · exact (ih _).bind fun _ _ => raises_ok _

theorem scanNumber_raises (negative : Bool) (text : List Nat) :
    Raises (LoadsError hooks) (scanNumber rt negative text) := by
  refine Raises.bind ?_ fun digits _ => ?_
  · unfold scanDigits
    repeat' split
    all_goals first
      | exact raises_ok _
      | exact raises_error .decode
  · dsimp only
    split
    · refine Raises.bind ?_ fun _ _ => raises_ok _
      unfold intOf
      split
      · exact raises_error (.value _)
      · exact raises_ok _
    · exact raises_ok _

theorem float_raises (repr : PyStr) : Raises (LoadsError hooks) (hooks.float repr) := by
  unfold Hooks.float
  split
  · next e he => exact raises_error (.constant he)
  · exact raises_ok _

theorem scanScalar_raises (text : List Nat) :
    Raises (LoadsError hooks) (scanScalar rt hooks text) := by
  unfold scanScalar
  split
  · exact raises_ok _
  · exact raises_ok _
  · exact raises_ok _
  · exact (float_raises _).bind fun _ _ => raises_ok _
  · exact (float_raises _).bind fun _ _ => raises_ok _
  · exact (float_raises _).bind fun _ _ => raises_ok _
  · exact scanNumber_raises _ _
  · exact scanNumber_raises _ _

theorem object_raises (pairs : List (PyStr × Value)) :
    Raises (LoadsError hooks) (hooks.object pairs) := by
  unfold Hooks.object
  split
  · exact raises_ok _
  · exact raises_error .duplicate

/-- The five scanners call each other with less fuel. -/
theorem scan_raises (fuel : Nat) :
    (∀ depth text, Raises (LoadsError hooks) (scanValue rt hooks fuel depth text)) ∧
    (∀ depth text, Raises (LoadsError hooks) (scanList rt hooks fuel depth text)) ∧
    (∀ depth text, Raises (LoadsError hooks) (scanItems rt hooks fuel depth text)) ∧
    (∀ depth text, Raises (LoadsError hooks) (scanDict rt hooks fuel depth text)) ∧
    ∀ depth text, Raises (LoadsError hooks) (scanPairs rt hooks fuel depth text) := by
  induction fuel with
  | zero =>
    refine ⟨fun _ _ => ?_, fun _ _ => ?_, fun _ _ => ?_, fun _ _ => ?_, fun _ _ => ?_⟩
    · unfold scanValue
      exact raises_error .recursion
    · unfold scanList
      exact raises_error .recursion
    · unfold scanItems
      exact raises_error .recursion
    · unfold scanDict
      exact raises_error .recursion
    · unfold scanPairs
      exact raises_error .recursion
  | succ fuel ih =>
    obtain ⟨hvalue, hlist, hitems, hdict, hpairs⟩ := ih
    refine ⟨fun depth text => ?_, fun depth text => ?_, fun depth text => ?_, fun depth text => ?_,
      fun depth text => ?_⟩
    · unfold scanValue
      cases text with
      | nil => exact raises_error .decode
      | cons c rest =>
        dsimp only
        split
        · exact (scanString_raises _ _).bind fun _ _ => raises_ok _
        split
        · cases depth with
          | zero => exact raises_error .recursion
          | succ depth => exact (hlist _ _).bind fun _ _ => raises_ok _
        split
        · cases depth with
          | zero => exact raises_error .recursion
          | succ depth =>
            exact (hdict _ _).bind fun _ _ => (object_raises _).bind fun _ _ => raises_ok _
        · exact scanScalar_raises _
    · unfold scanList
      split
      · exact raises_ok _
      · exact hitems _ _
    · unfold scanItems
      refine (hvalue _ _).bind fun _ _ => ?_
      dsimp only
      split
      · exact raises_ok _
      · exact (hitems _ _).bind fun _ _ => raises_ok _
      · exact raises_error .decode
    · unfold scanDict
      split
      · exact raises_ok _
      · exact hpairs _ _
    · unfold scanPairs
      split
      · refine (scanString_raises _ _).bind fun _ _ => ?_
        dsimp only
        split
        · refine (hvalue _ _).bind fun _ _ => ?_
          split
          · exact raises_ok _
          · exact (hpairs _ _).bind fun _ _ => raises_ok _
          · exact raises_error .decode
        · exact raises_error .decode
      · exact raises_error .decode

theorem loads_raises (text : PyStr) : Raises (LoadsError hooks) (loads rt hooks text) := by
  unfold loads
  split
  · exact raises_error .decode
  · refine ((scan_raises _).1 _ _).bind fun _ _ => ?_
    dsimp only
    split
    · exact raises_ok _
    · exact raises_error .decode

/-! ## 2. Texts that start with a brace -/

theorem scanValue_brace {fuel depth : Nat} {rest : List Nat} {result : Value × List Nat}
    (h : scanValue rt hooks fuel depth (123 :: rest) = .ok result) :
    ∃ entries, result.1 = .dict entries := by
  unfold scanValue at h
  cases fuel with
  | zero => cases h
  | succ fuel =>
    dsimp only at h
    rw [if_neg (by decide), if_neg (by decide), if_pos rfl] at h
    cases depth with
    | zero => cases h
    | succ depth =>
      obtain ⟨⟨pairs, rest'⟩, -, h⟩ := bind_eq_ok.mp h
      obtain ⟨value, hvalue, h⟩ := bind_eq_ok.mp h
      cases h
      unfold Hooks.object at hvalue
      split at hvalue
      · cases hvalue
        exact ⟨pairs, rfl⟩
      · cases hvalue

theorem loads_brace {text : PyStr} {rest : List Nat} {value : Value}
    (htext : text.codePoints = 123 :: rest) (h : loads rt hooks text = .ok value) :
    ∃ entries, value = .dict entries := by
  have hskip : skipSpace (123 :: rest) = 123 :: rest := rfl
  unfold loads at h
  rw [htext, if_neg (by simp), hskip] at h
  obtain ⟨⟨value', rest'⟩, hscan, h⟩ := bind_eq_ok.mp h
  obtain ⟨entries, rfl⟩ := scanValue_brace hscan
  dsimp only at h
  split at h
  · cases h
    exact ⟨entries, rfl⟩
  · cases h

end Supplementary.Json
