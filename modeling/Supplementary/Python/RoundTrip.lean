/-
# A JSON text, read back

`loads_dumps`: what `json.dumps` writes with sorted keys, `json.loads` reads as the value with the keys
of its objects in order.  So two values with one text are one value up to the order of the keys
(`ordered_of_dumps`), and the value that was read has the text it was read from (`dumps_ordered`).
A value with a float in it, or with a text that is no sequence of scalar values, is left out.

The scanner calls itself twice for a character, and `2 * length` is fuel enough for a text.
-/
import Supplementary.Python.Literal
import Mathlib.Data.List.Perm.Basic

namespace Supplementary.Json

open Supplementary

/-! ## 1. Values -/

mutual

/-- A value that comes back: no float, scalar texts, and every key once. -/
def Readable : Value → Prop
  | .none | .bool _ | .int _ => True
  | .str s => IsScalar s
  | .list items => ReadableList items
  | .dict entries => (entries.map Prod.fst).Nodup ∧ ReadableEntries entries
  | .float _ | .other => False

def ReadableList : List Value → Prop
  | [] => True
  | item :: items => Readable item ∧ ReadableList items

def ReadableEntries : List (PyStr × Value) → Prop
  | [] => True
  | (key, value) :: entries => IsScalar key ∧ Readable value ∧ ReadableEntries entries

end

mutual

/-- The value with the entries of its objects in the order of their keys. -/
def ordered : Value → Value
  | .list items => .list (orderedList items)
  | .dict entries => .dict (sortByKey (orderedEntries entries))
  | value => value

def orderedList : List Value → List Value
  | [] => []
  | item :: items => ordered item :: orderedList items

def orderedEntries : List (PyStr × Value) → List (PyStr × Value)
  | [] => []
  | (key, value) :: entries => (key, ordered value) :: orderedEntries entries

end

theorem keys_orderedEntries (entries : List (PyStr × Value)) :
    (orderedEntries entries).map Prod.fst = entries.map Prod.fst := by
  induction entries with
  | nil => rfl
  | cons e entries ih => rw [orderedEntries, List.map_cons, List.map_cons, ih]

/-! ## 2. Numbers -/

/-- What may follow a value: the end, or a character that goes on with no number. -/
def Stops (rest : List Nat) : Prop :=
  ∀ c tail, rest = c :: tail → c = 44 ∨ c = 93 ∨ c = 125 ∨ c = 10

theorem stops_cons {c : Nat} {rest : List Nat} (h : c = 44 ∨ c = 93 ∨ c = 125 ∨ c = 10) :
    Stops (c :: rest) := by
  intro d tail heq
  obtain ⟨rfl, -⟩ := List.cons.inj heq
  exact h

/-- The digits of a number. -/
theorem points_repr (n : Nat) : points (bytes (toString n)) = (Nat.toDigits 10 n).map Char.toNat := by
  have hlist : (toString n).toList = Nat.toDigits 10 n := Nat.toList_repr
  rw [points, bytes, hlist, List.map_map]
  refine List.map_congr_left fun c hc => ?_
  have hdigit := Nat.isDigit_of_mem_toDigits (by omega) (by omega) hc
  rw [Char.isDigit, Bool.and_eq_true, decide_eq_true_eq, decide_eq_true_eq, ge_iff_le,
    UInt32.le_iff_toNat_le, UInt32.le_iff_toNat_le] at hdigit
  exact toNat_toUInt8 (by
    have hle : c.toNat ≤ 57 := hdigit.2
    omega)

theorem isDigit_toDigits {n : Nat} : ∀ c ∈ (Nat.toDigits 10 n).map Char.toNat, isDigit c = true := by
  intro c hc
  obtain ⟨d, hd, rfl⟩ := List.mem_map.mp hc
  have hdigit := Nat.isDigit_of_mem_toDigits (by omega) (by omega) hd
  rw [Char.isDigit, Bool.and_eq_true, decide_eq_true_eq, decide_eq_true_eq, ge_iff_le,
    UInt32.le_iff_toNat_le, UInt32.le_iff_toNat_le] at hdigit
  have hlow : 48 ≤ d.toNat := hdigit.1
  have hhigh : d.toNat ≤ 57 := hdigit.2
  simp only [isDigit, Bool.and_eq_true, decide_eq_true_eq]
  exact ⟨hlow, hhigh⟩

theorem decimal_toDigits (n : Nat) : decimal ((Nat.toDigits 10 n).map Char.toNat) = n := by
  have hread := @Nat.ofDigitChars_ten_toDigits n
  rw [Nat.ofDigitChars_eq_foldl] at hread
  rw [decimal, List.foldl_map]
  exact hread

/-- No number but zero starts with a zero. -/
theorem head_toDigits {n : Nat} (h : n ≠ 0) : (Nat.toDigits 10 n).head? ≠ some '0' := by
  induction n using Nat.strongRecOn with
  | _ n ih =>
    by_cases hsmall : n < 10
    · rw [Nat.toDigits_of_lt_base hsmall]
      have hall : ∀ n : Fin 10, n.val ≠ 0 → [n.val.digitChar].head? ≠ some '0' := by decide
      exact hall ⟨n, hsmall⟩ h
    · rw [Nat.toDigits_of_base_le (by omega) (by omega)]
      have hprev := ih (n / 10) (by omega) (by omega)
      have hne := @Nat.toDigits_ne_nil (n / 10) 10
      cases hdigits : Nat.toDigits 10 (n / 10) with
      | nil => exact absurd hdigits hne
      | cons d digits =>
        rw [hdigits] at hprev
        exact hprev

/-- A run of digits in front of what is none. -/
theorem span_digits {digits rest : List Nat} (h : ∀ c ∈ digits, isDigit c = true) (hrest : Stops rest) :
    (digits ++ rest).span isDigit = (digits, rest) := by
  rw [List.span_eq_takeWhile_dropWhile, List.takeWhile_append_of_pos h, List.dropWhile_append_of_pos h]
  cases rest with
  | nil => simp
  | cons c rest =>
    have hc : isDigit c = false := by
      rcases hrest c rest rfl with rfl | rfl | rfl | rfl
      · rfl
      · rfl
      · rfl
      · rfl
    simp [hc]

section

variable {rt : Runtime} {hooks : Hooks} {rest : List Nat}

theorem scanFraction_stops (h : Stops rest) : scanFraction rest = ([], rest) := by
  unfold scanFraction
  split
  · next tail =>
    rcases h 46 tail rfl with h | h | h | h
    all_goals exact absurd h (by decide)
  · rfl

theorem scanExponent_stops (h : Stops rest) : scanExponent rest = ([], rest) := by
  cases rest with
  | nil => rfl
  | cons c rest =>
    have hc : ¬ (c = 101 ∨ c = 69) := by
      rcases h c rest rfl with rfl | rfl | rfl | rfl
      all_goals decide
    rw [scanExponent.eq_def]
    exact if_neg hc

theorem scanDigits_toDigits (n : Nat) (h : Stops rest) :
    scanDigits ((Nat.toDigits 10 n).map Char.toNat ++ rest) =
      .ok ((Nat.toDigits 10 n).map Char.toNat, rest) := by
  by_cases hzero : n = 0
  · subst hzero
    rw [Nat.toDigits_zero]
    rfl
  · have hspan := span_digits (@isDigit_toDigits n) h
    have hhead := head_toDigits hzero
    have hfirst := @isDigit_toDigits n
    cases hdigits : Nat.toDigits 10 n with
    | nil => exact absurd hdigits Nat.toDigits_ne_nil
    | cons d digits =>
      rw [hdigits] at hspan hhead hfirst
      have hd : d.toNat ≠ 48 := by
        intro heq
        refine hhead ?_
        rw [List.head?_cons, Option.some.injEq]
        exact Char.toNat_inj.mp heq
      rw [List.map_cons, List.cons_append] at hspan ⊢
      rw [scanDigits, if_neg hd, if_pos (hfirst _ List.mem_cons_self), hspan]

theorem scanNumber_toDigits (negative : Bool) (n : Nat) (h : Stops rest)
    (hlength : (Nat.toDigits 10 n).length ≤ 4300) :
    scanNumber rt negative ((Nat.toDigits 10 n).map Char.toNat ++ rest) =
      .ok (.int (if negative then -(n : Int) else n), rest) := by
  have hshort : ¬ 4300 < ((Nat.toDigits 10 n).map Char.toNat).length := by
    rw [List.length_map]
    omega
  rw [scanNumber, scanDigits_toDigits n h, ok_bind]
  simp only [scanFraction_stops h, scanExponent_stops h, and_self, if_true, intOf, hshort, if_false,
    decimal_toDigits, ok_bind]

/-- A number is a scalar that starts with a digit. -/
theorem scanScalar_digit {c : Nat} (hc : isDigit c = true) :
    scanScalar rt hooks (c :: rest) = scanNumber rt false (c :: rest) := by
  simp only [isDigit, Bool.and_eq_true, decide_eq_true_eq] at hc
  rw [scanScalar.eq_def]
  split
  all_goals first | rfl | (next heq => cases heq; omega)

theorem scanScalar_minus {c : Nat} (hc : isDigit c = true) :
    scanScalar rt hooks (45 :: c :: rest) = scanNumber rt true (c :: rest) := by
  simp only [isDigit, Bool.and_eq_true, decide_eq_true_eq] at hc
  rw [scanScalar.eq_def]
  split
  · next heq => exact absurd (List.cons.inj heq).1 (by decide)
  · next heq => exact absurd (List.cons.inj heq).1 (by decide)
  · next heq => exact absurd (List.cons.inj heq).1 (by decide)
  · next heq => exact absurd (List.cons.inj heq).1 (by decide)
  · next heq => exact absurd (List.cons.inj heq).1 (by decide)
  · next heq =>
    have hletter := (List.cons.inj (List.cons.inj heq).2).1
    omega
  · next heq => rw [(List.cons.inj heq).2]
  · next hother => exact absurd rfl (hother (c :: rest))

end

/-! ## 3. One value -/

/-- The text of a value starts with none of these. -/
def Opens (text : Bytes) : Prop :=
  ∃ c tail, points text = c :: tail ∧ c ≠ 32 ∧ c ≠ 9 ∧ c ≠ 10 ∧ c ≠ 13 ∧ c ≠ 93 ∧ c ≠ 125

theorem Opens.skipSpace {text : Bytes} (h : Opens text) (rest : List Nat) :
    skipSpace (points text ++ rest) = points text ++ rest := by
  obtain ⟨c, tail, hpoints, h1, h2, h3, h4, -, -⟩ := h
  rw [hpoints, List.cons_append, Json.skipSpace, if_neg]
  rintro (h | h | h | h)
  · exact h1 h
  · exact h2 h
  · exact h3 h
  · exact h4 h

section

variable (rt : Runtime) (hooks : Hooks)

/-- The scanner reads the value off the text, whatever stops it. -/
structure Scans (depth : Nat) (text : Bytes) (value : Value) : Prop where
  opens : Opens text
  reads : ∀ fuel rest, Stops rest → 2 * text.length ≤ fuel →
    scanValue rt hooks fuel depth (points text ++ rest) = .ok (value, rest)

/-- One entry of an object, before and after. -/
structure ScansEntry (depth : Nat) (text : PyStr × Bytes) (entry : PyStr × Value) : Prop where
  key : text.1 = entry.1
  scalar : IsScalar text.1
  scans : Scans rt hooks depth text.2 entry.2

end

section

variable {rt : Runtime} {hooks : Hooks} {depth : Nat}

theorem length_points (octets : Bytes) : (points octets).length = octets.length := List.length_map _

theorem points_jsonString (s : PyStr) :
    points (jsonString s) = 34 :: (points (s.codePoints.flatMap jsonEscape) ++ [34]) := by
  simp [jsonString, points]

/-- A literal, after its opening quote. -/
theorem scanString_scalar {s : PyStr} (h : IsScalar s) (rest : List Nat) :
    scanString ((points (s.codePoints.flatMap jsonEscape) ++ 34 :: rest).length + 1)
      (points (s.codePoints.flatMap jsonEscape) ++ 34 :: rest) = .ok (s.codePoints, rest) := by
  have hlength := length_flatMap_jsonEscape s.codePoints
  rw [scanString_literal h.isText (by
    rw [List.length_append]
    omega)]
  exact congrArg (fun t : PyStr => Except.ok (t.codePoints, rest)) h.reload

theorem scans_str {s : PyStr} (h : IsScalar s) : Scans rt hooks depth (jsonString s) (.str s) := by
  refine ⟨⟨34, _, points_jsonString s, by decide, by decide, by decide, by decide, by decide,
    by decide⟩, ?_⟩
  intro fuel rest _ hfuel
  have hlength : 1 ≤ (jsonString s).length := by
    rw [← length_points, points_jsonString, List.length_cons]
    omega
  obtain ⟨fuel, rfl⟩ : ∃ n, fuel = n + 1 := ⟨fuel - 1, by omega⟩
  rw [points_jsonString, List.cons_append, List.append_assoc, List.singleton_append, scanValue_quote,
    scanString_scalar h]
  rfl

/-- A value whose text is a scalar that the scanner reads. -/
theorem scans_scalar {text : Bytes} {value : Value} {c : Nat} {tail : List Nat}
    (hpoints : points text = c :: tail) (hc : c = 45 ∨ (48 ≤ c ∧ c ≤ 57) ∨ (97 ≤ c ∧ c ≤ 122))
    (hscan : ∀ rest, Stops rest → scanScalar rt hooks (points text ++ rest) = .ok (value, rest)) :
    Scans rt hooks depth text value := by
  refine ⟨⟨c, tail, hpoints, by omega, by omega, by omega, by omega, by omega, by omega⟩, ?_⟩
  intro fuel rest hrest hfuel
  have hlength : 1 ≤ text.length := by
    rw [← length_points, hpoints, List.length_cons]
    omega
  obtain ⟨fuel, rfl⟩ : ∃ n, fuel = n + 1 := ⟨fuel - 1, by omega⟩
  have hread := hscan rest hrest
  rw [hpoints, List.cons_append] at hread ⊢
  rw [scanValue.eq_def]
  simp only [show c ≠ 34 by omega, show c ≠ 91 by omega, show c ≠ 123 by omega, if_false]
  exact hread

theorem scans_int {n : Int} {text : Bytes} (h : jsonInt n = .ok text) :
    Scans rt hooks depth text (.int n) := by
  unfold jsonInt at h
  split at h
  · cases h
  · next hshort =>
    have htext := Except.ok.inj h
    subst htext
    have hlength (m : Nat) (hm : n.natAbs = m) : (Nat.toDigits 10 m).length ≤ 4300 := by
      have heq := length_points (bytes (toString m))
      rw [points_repr, List.length_map] at heq
      rw [hm] at hshort
      omega
    have hfirst (m : Nat) : ∃ c tail, (Nat.toDigits 10 m).map Char.toNat = c :: tail ∧
        isDigit c = true := by
      have hall := @isDigit_toDigits m
      cases hdigits : Nat.toDigits 10 m with
      | nil => exact absurd hdigits Nat.toDigits_ne_nil
      | cons d digits =>
        rw [hdigits] at hall
        exact ⟨d.toNat, digits.map Char.toNat, rfl, hall _ List.mem_cons_self⟩
    cases n with
    | ofNat m =>
      have hpoints : points (bytes (toString (Int.ofNat m))) = (Nat.toDigits 10 m).map Char.toNat :=
        points_repr m
      obtain ⟨c, tail, htail, hdigit⟩ := hfirst m
      refine scans_scalar (hpoints.trans htail) ?_ ?_
      · have hrange := hdigit
        simp only [isDigit, Bool.and_eq_true, decide_eq_true_eq] at hrange
        exact Or.inr (Or.inl hrange)
      · intro rest hrest
        have hread := @scanNumber_toDigits rt rest false m hrest (hlength m rfl)
        rw [hpoints, htail, List.cons_append, scanScalar_digit hdigit, ← List.cons_append, ← htail,
          hread]
        rfl
    | negSucc m =>
      have hpoints : points (bytes (toString (Int.negSucc m))) =
          45 :: (Nat.toDigits 10 (m + 1)).map Char.toNat := by
        have hlist : (toString (Int.negSucc m)).toList = '-' :: (toString (m + 1)).toList := by
          change ("-" ++ (m + 1).repr).toList = _
          rw [String.toList_append]
          rfl
        rw [← points_repr, points, points, bytes, bytes, hlist]
        rfl
      obtain ⟨c, tail, htail, hdigit⟩ := hfirst (m + 1)
      refine scans_scalar hpoints (Or.inl rfl) ?_
      intro rest hrest
      have hread := @scanNumber_toDigits rt rest true (m + 1) hrest (hlength (m + 1) rfl)
      rw [hpoints, htail, List.cons_append, List.cons_append, scanScalar_minus hdigit,
        ← List.cons_append, ← htail, hread]
      rfl

end

/-! ## 4. Containers -/

section

variable {rt : Runtime} {hooks : Hooks} {depth : Nat}

theorem points_joinComma_cons {text : Bytes} {texts : List Bytes} (h : texts ≠ []) :
    points (joinComma (text :: texts)) = points text ++ 44 :: points (joinComma texts) := by
  cases texts with
  | nil => exact absurd rfl h
  | cons next texts =>
    rw [joinComma, points_append, points_append, List.append_assoc]
    · rfl
    · exact List.cons_ne_nil _ _

theorem opens_joinComma {text : Bytes} {texts : List Bytes} (h : Opens text) :
    Opens (joinComma (text :: texts)) := by
  obtain ⟨c, tail, hpoints, hapart⟩ := h
  cases texts with
  | nil => exact ⟨c, tail, hpoints, hapart⟩
  | cons next texts =>
    refine ⟨c, tail ++ 44 :: points (joinComma (next :: texts)), ?_, hapart⟩
    rw [points_joinComma_cons (List.cons_ne_nil _ _), hpoints]
    rfl

/-- The items of a list, up to its bracket. -/
theorem scanItems_of {texts : List Bytes} {items : List Value}
    (h : List.Forall₂ (Scans rt hooks depth) texts items) (hne : texts ≠ []) :
    ∀ fuel rest, 2 * (joinComma texts).length + 1 ≤ fuel →
      scanItems rt hooks fuel depth (points (joinComma texts) ++ 93 :: rest) =
        .ok (items, rest) := by
  induction h with
  | nil => exact absurd rfl hne
  | @cons text item texts items hfirst hrest ih =>
    intro fuel rest hfuel
    obtain ⟨fuel, rfl⟩ : ∃ n, fuel = n + 1 := ⟨fuel - 1, by omega⟩
    cases hrest with
    | nil =>
      have hread := hfirst.reads fuel (93 :: rest) (stops_cons (by omega)) (by
        rw [joinComma] at hfuel
        omega)
      rw [joinComma, scanItems, hread, ok_bind]
      rfl
    | @cons next item' texts items' hnext htail =>
      have hlength : (joinComma (text :: next :: texts)).length =
          text.length + 1 + (joinComma (next :: texts)).length := by
        rw [← length_points, points_joinComma_cons (List.cons_ne_nil _ _), List.length_append,
          List.length_cons, length_points, length_points]
        omega
      have hread := hfirst.reads fuel (44 :: (points (joinComma (next :: texts)) ++ 93 :: rest))
        (stops_cons (by omega)) (by omega)
      have hmore := ih (List.cons_ne_nil _ _) fuel rest (by omega)
      have hopens : Opens (joinComma (next :: texts)) := opens_joinComma hnext.opens
      have hskip := hopens.skipSpace (93 :: rest)
      rw [points_joinComma_cons (List.cons_ne_nil _ _), List.append_assoc, List.cons_append, scanItems,
        hread, ok_bind]
      simp only [skipSpace, Nat.reduceEqDiff, or_self, if_false, hskip, hmore, ok_bind]

theorem scans_list {texts : List Bytes} {items : List Value}
    (h : List.Forall₂ (Scans rt hooks depth) texts items) :
    Scans rt hooks (depth + 1) ([91] ++ joinComma texts ++ [93]) (.list items) := by
  have hpoints : points ([91] ++ joinComma texts ++ [93]) = 91 :: (points (joinComma texts) ++ [93]) := by
    rw [points_append, points_append]
    rfl
  refine ⟨⟨91, _, hpoints, by decide, by decide, by decide, by decide, by decide, by decide⟩, ?_⟩
  intro fuel rest _ hfuel
  have hlength : ([91] ++ joinComma texts ++ [93] : Bytes).length = (joinComma texts).length + 2 := by
    rw [List.length_append, List.length_append]
    simp only [List.length_cons, List.length_nil]
    omega
  obtain ⟨fuel, rfl⟩ : ∃ n, fuel = n + 3 := ⟨fuel - 3, by omega⟩
  rw [hpoints, List.cons_append, List.append_assoc, List.singleton_append, scanValue.eq_def]
  simp only [Nat.reduceEqDiff, if_false, if_true]
  cases h with
  | nil =>
    change (scanList rt hooks (fuel + 2) depth (93 :: rest) >>= _) = _
    rw [scanList]
    rfl
  | @cons text item texts items hfirst hrest =>
    have hopens : Opens (joinComma (text :: texts)) := opens_joinComma hfirst.opens
    have hitems := scanItems_of (List.Forall₂.cons hfirst hrest) (List.cons_ne_nil _ _) (fuel + 1) rest
      (by omega)
    have hlist : scanList rt hooks (fuel + 2) depth (points (joinComma (text :: texts)) ++ 93 :: rest) =
        scanItems rt hooks (fuel + 1) depth (points (joinComma (text :: texts)) ++ 93 :: rest) := by
      obtain ⟨c, tail, hcons, -, -, -, -, hbracket, -⟩ := hopens
      rw [hcons, List.cons_append, scanList]
      intro tail' heq
      exact hbracket (List.cons.inj heq).1
    rw [hopens.skipSpace, hlist, hitems, ok_bind]

/-- The text of an entry. -/
def entryText (e : PyStr × Bytes) : Bytes := jsonString e.1 ++ [58] ++ e.2

theorem points_entryText (e : PyStr × Bytes) :
    points (entryText e) = 34 :: (points (e.1.codePoints.flatMap jsonEscape) ++ 34 :: 58 :: points e.2) := by
  rw [entryText, points_append, points_append, points_jsonString]
  simp [points]

theorem opens_entryText (e : PyStr × Bytes) : Opens (entryText e) :=
  ⟨34, _, points_entryText e, by decide, by decide, by decide, by decide, by decide, by decide⟩

/-- The entries of an object, up to its brace. -/
theorem scanPairs_of {texts : List (PyStr × Bytes)} {entries : List (PyStr × Value)}
    (h : List.Forall₂ (ScansEntry rt hooks depth) texts entries) (hne : texts ≠ []) :
    ∀ fuel rest, 2 * (joinComma (texts.map entryText)).length + 1 ≤ fuel →
      scanPairs rt hooks fuel depth (points (joinComma (texts.map entryText)) ++ 125 :: rest) =
        .ok (entries, rest) := by
  induction h with
  | nil => exact absurd rfl hne
  | @cons text entry texts entries hfirst hrest ih =>
    intro fuel rest hfuel
    obtain ⟨fuel, rfl⟩ : ∃ n, fuel = n + 1 := ⟨fuel - 1, by omega⟩
    have hentry : (⟨text.1.codePoints⟩, entry.2) = entry := by rw [hfirst.key]
    have hshort : text.2.length ≤ (entryText text).length := by
      rw [entryText, List.length_append]
      omega
    cases hrest with
    | nil =>
      have hread := hfirst.scans.reads fuel (125 :: rest) (stops_cons (by omega)) (by
        rw [List.map_singleton, joinComma] at hfuel
        omega)
      have hskip := hfirst.scans.opens.skipSpace (125 :: rest)
      rw [List.map_singleton, joinComma, points_entryText, List.cons_append, List.append_assoc,
        List.cons_append, List.cons_append, scanPairs]
      simp only [scanString_scalar hfirst.scalar, ok_bind, skipSpace, Nat.reduceEqDiff, or_self,
        if_false, hskip, hread, hentry]
    | @cons next entry' texts entries' hnext htail =>
      have hmap : (next :: texts).map entryText ≠ [] := List.cons_ne_nil _ _
      have hlength : (joinComma ((text :: next :: texts).map entryText)).length =
          (entryText text).length + 1 + (joinComma ((next :: texts).map entryText)).length := by
        rw [List.map_cons, ← length_points, points_joinComma_cons hmap,
          List.length_append, List.length_cons, length_points, length_points]
        omega
      have hread := hfirst.scans.reads fuel
        (44 :: (points (joinComma ((next :: texts).map entryText)) ++ 125 :: rest))
        (stops_cons (by omega)) (by omega)
      have hmore := ih (List.cons_ne_nil _ _) fuel rest (by omega)
      have hskip := hfirst.scans.opens.skipSpace
        (44 :: (points (joinComma ((next :: texts).map entryText)) ++ 125 :: rest))
      have hskip' : skipSpace (points (joinComma ((next :: texts).map entryText)) ++ 125 :: rest) =
          points (joinComma ((next :: texts).map entryText)) ++ 125 :: rest :=
        (opens_joinComma (opens_entryText next)).skipSpace (125 :: rest)
      rw [List.map_cons, points_joinComma_cons hmap, points_entryText, List.cons_append,
        List.cons_append, List.append_assoc, List.append_assoc, List.cons_append, List.cons_append,
        List.cons_append, scanPairs]
      simp only [scanString_scalar hfirst.scalar, ok_bind, skipSpace, Nat.reduceEqDiff, or_self,
        if_false, hskip, hread, hskip', hmore, hentry]

end

/-! ## 5. The order of the keys -/

section

variable {α β : Type} {R : PyStr × α → PyStr × β → Prop}

theorem forall₂_orderedInsert (hkey : ∀ x y, R x y → x.1 = y.1) {x : PyStr × α} {y : PyStr × β}
    {xs : List (PyStr × α)} {ys : List (PyStr × β)} (hxy : R x y) (h : List.Forall₂ R xs ys) :
    List.Forall₂ R (xs.orderedInsert (fun a b => a.1.le b.1) x)
      (ys.orderedInsert (fun a b => a.1.le b.1) y) := by
  induction h with
  | nil => exact .cons hxy .nil
  | @cons x' y' xs ys hfirst hrest ih =>
    rw [List.orderedInsert, List.orderedInsert, hkey x y hxy, hkey x' y' hfirst]
    split
    · exact .cons hxy (.cons hfirst hrest)
    · exact .cons hfirst ih

/-- Sorting by the keys looks at nothing else. -/
theorem forall₂_sortByKey (hkey : ∀ x y, R x y → x.1 = y.1) {xs : List (PyStr × α)}
    {ys : List (PyStr × β)} (h : List.Forall₂ R xs ys) :
    List.Forall₂ R (sortByKey xs) (sortByKey ys) := by
  induction h with
  | nil => exact .nil
  | cons hfirst _ ih => exact forall₂_orderedInsert hkey hfirst ih

end

theorem perm_sortByKey {α : Type} (entries : List (PyStr × α)) : (sortByKey entries).Perm entries :=
  List.perm_insertionSort _ entries

section

variable {rt : Runtime} {hooks : Hooks} {depth : Nat}

theorem scans_dict {texts : List (PyStr × Bytes)} {entries : List (PyStr × Value)}
    (h : List.Forall₂ (ScansEntry rt hooks depth) texts entries)
    (hnodup : (entries.map Prod.fst).Nodup) :
    Scans rt hooks (depth + 1) ([123] ++ joinComma ((sortByKey texts).map entryText) ++ [125])
      (.dict (sortByKey entries)) := by
  have hsorted := forall₂_sortByKey (fun _ _ h => ScansEntry.key h) h
  have hkeys : ((sortByKey entries).map Prod.fst).Nodup :=
    ((perm_sortByKey entries).map Prod.fst).nodup_iff.mpr hnodup
  generalize sortByKey texts = texts at hsorted
  generalize sortByKey entries = entries at hsorted hkeys
  have hpoints : points ([123] ++ joinComma (texts.map entryText) ++ [125]) =
      123 :: (points (joinComma (texts.map entryText)) ++ [125]) := by
    rw [points_append, points_append]
    rfl
  refine ⟨⟨123, _, hpoints, by decide, by decide, by decide, by decide, by decide, by decide⟩, ?_⟩
  intro fuel rest _ hfuel
  have hlength : ([123] ++ joinComma (texts.map entryText) ++ [125] : Bytes).length =
      (joinComma (texts.map entryText)).length + 2 := by
    rw [List.length_append, List.length_append]
    simp only [List.length_cons, List.length_nil]
    omega
  have hobject : hooks.object entries = .ok (.dict entries) := if_pos hkeys
  obtain ⟨fuel, rfl⟩ : ∃ n, fuel = n + 3 := ⟨fuel - 3, by omega⟩
  rw [hpoints, List.cons_append, List.append_assoc, List.singleton_append, scanValue.eq_def]
  simp only [Nat.reduceEqDiff, if_false, if_true]
  cases hsorted with
  | nil =>
    change (scanDict rt hooks (fuel + 2) depth (125 :: rest) >>= _) = _
    rw [scanDict, ok_bind, hobject, ok_bind]
  | @cons text entry texts entries hfirst hrest =>
    have hopens : Opens (joinComma ((text :: texts).map entryText)) :=
      opens_joinComma (opens_entryText text)
    have hpairs := scanPairs_of (List.Forall₂.cons hfirst hrest) (List.cons_ne_nil _ _) (fuel + 1) rest
      (by omega)
    have hdict : scanDict rt hooks (fuel + 2) depth
        (points (joinComma ((text :: texts).map entryText)) ++ 125 :: rest) =
        scanPairs rt hooks (fuel + 1) depth
          (points (joinComma ((text :: texts).map entryText)) ++ 125 :: rest) := by
      obtain ⟨c, tail, hcons, -, -, -, -, -, hbrace⟩ := hopens
      rw [hcons, List.cons_append, scanDict]
      intro tail' heq
      exact hbrace (List.cons.inj heq).1
    rw [hopens.skipSpace, hdict, hpairs, ok_bind, hobject, ok_bind]

theorem pairwise_sortByKey {α : Type} (entries : List (PyStr × α)) :
    (sortByKey entries).Pairwise fun a b => a.1.le b.1 := by
  have : Std.Total fun a b : PyStr × α => a.1.le b.1 :=
    ⟨fun a b => List.le_total a.1.codePoints b.1.codePoints⟩
  have : IsTrans (PyStr × α) fun a b => a.1.le b.1 := ⟨fun a b c h h' => List.le_trans h h'⟩
  exact List.pairwise_insertionSort (fun a b : PyStr × α => a.1.le b.1) entries

/-- Entries whose keys are in order stay where they are. -/
theorem sortByKey_eq {α : Type} {entries : List (PyStr × α)}
    (h : (entries.map Prod.fst).Pairwise PyStr.le) : sortByKey entries = entries :=
  (List.pairwise_map.mp h).insertionSort_eq

/-- The order of the keys is the only one, where they are distinct. -/
theorem sortByKey_congr {α : Type} {xs ys : List (PyStr × α)} (h : xs.Perm ys)
    (hnodup : (xs.map Prod.fst).Nodup) : sortByKey xs = sortByKey ys := by
  have hperm : (sortByKey xs).Perm (sortByKey ys) :=
    ((perm_sortByKey xs).trans h).trans (perm_sortByKey ys).symm
  refine hperm.eq_of_pairwise ?_ (pairwise_sortByKey xs) (pairwise_sortByKey ys)
  intro a b ha hb hab hba
  have hkeys : a.1 = b.1 := by
    have hpoints : a.1.codePoints = b.1.codePoints := List.le_antisymm hab hba
    obtain ⟨⟨_⟩, _⟩ := a
    obtain ⟨⟨_⟩, _⟩ := b
    exact congrArg PyStr.mk hpoints
  have ha' := (perm_sortByKey xs).mem_iff.mp ha
  have hb' := h.mem_iff.mpr ((perm_sortByKey ys).mem_iff.mp hb)
  exact List.inj_on_of_nodup_map hnodup ha' hb' hkeys

/-! ## 6. Every value -/

/-- Induction over a value, its lists and its objects. -/
theorem value_induction {P : Value → Prop} {Q : List Value → Prop}
    {R : List (PyStr × Value) → Prop} (hnone : P .none) (hbool : ∀ b, P (.bool b))
    (hint : ∀ n, P (.int n)) (hfloat : ∀ x, P (.float x)) (hstr : ∀ s, P (.str s))
    (hlist : ∀ items, Q items → P (.list items)) (hdict : ∀ entries, R entries → P (.dict entries))
    (hother : P .other) (hnil : Q []) (hcons : ∀ item items, P item → Q items → Q (item :: items))
    (hempty : R [])
    (hentry : ∀ key value entries, P value → R entries → R ((key, value) :: entries)) (v : Value) :
    P v :=
  @Value.rec P Q R (fun e => P e.2) hnone hbool hint hfloat hstr hlist hdict hother hnil hcons hempty
    (fun e entries he hentries => hentry e.1 e.2 entries he hentries) (fun _ _ h => h) v

/-- **The scanner reads a value off the text that was written for it.** -/
theorem scans_dumps (v : Value) : ∀ {depth : Nat} {text : Bytes},
    dumps jsonFloat depth v = .ok text → Readable v → Scans rt hooks depth text (ordered v) := by
  refine @value_induction
    (fun v => ∀ {depth : Nat} {text : Bytes}, dumps jsonFloat depth v = .ok text → Readable v →
      Scans rt hooks depth text (ordered v))
    (fun items => ∀ {depth : Nat} {texts : List Bytes}, dumpsList jsonFloat depth items = .ok texts →
      ReadableList items → List.Forall₂ (Scans rt hooks depth) texts (orderedList items))
    (fun entries => ∀ {depth : Nat} {texts : List (PyStr × Bytes)},
      dumpsEntries jsonFloat depth entries = .ok texts → ReadableEntries entries →
        List.Forall₂ (ScansEntry rt hooks depth) texts (orderedEntries entries))
    ?_ ?_ ?_ ?_ ?_ ?_ ?_ ?_ ?_ ?_ ?_ ?_ v
  · intro depth text h _
    rw [dumps] at h
    rw [← Except.ok.inj h]
    exact scans_scalar rfl (by decide) fun rest _ => rfl
  · intro b depth text h _
    cases b with
    | true =>
      rw [dumps] at h
      rw [← Except.ok.inj h]
      exact scans_scalar rfl (by decide) fun rest _ => rfl
    | false =>
      rw [dumps] at h
      rw [← Except.ok.inj h]
      exact scans_scalar rfl (by decide) fun rest _ => rfl
  · intro n depth text h _
    rw [dumps] at h
    exact scans_int h
  · intro x depth text _ hreadable
    exact hreadable.elim
  · intro s depth text h hreadable
    rw [dumps] at h
    rw [← Except.ok.inj h]
    exact scans_str hreadable
  · intro items ih depth text h hreadable
    cases depth with
    | zero =>
      rw [dumps] at h
      cases h
    | succ depth =>
      rw [dumps, bind_eq_ok] at h
      obtain ⟨texts, htexts, h⟩ := h
      rw [← Except.ok.inj h]
      exact scans_list (ih htexts hreadable)
  · intro entries ih depth text h hreadable
    cases depth with
    | zero =>
      rw [dumps] at h
      cases h
    | succ depth =>
      rw [dumps, bind_eq_ok] at h
      obtain ⟨texts, htexts, h⟩ := h
      rw [← Except.ok.inj h]
      refine scans_dict (ih htexts hreadable.2) ?_
      rw [keys_orderedEntries]
      exact hreadable.1
  · intro depth text _ hreadable
    exact hreadable.elim
  · intro depth texts h _
    rw [dumpsList] at h
    rw [← Except.ok.inj h]
    exact .nil
  · intro item items ih ihs depth texts h hreadable
    rw [dumpsList, bind_eq_ok] at h
    obtain ⟨text, htext, h⟩ := h
    rw [bind_eq_ok] at h
    obtain ⟨rest, hrest, h⟩ := h
    rw [← Except.ok.inj h]
    exact .cons (ih htext hreadable.1) (ihs hrest hreadable.2)
  · intro depth texts h _
    rw [dumpsEntries] at h
    rw [← Except.ok.inj h]
    exact .nil
  · intro key value entries ih ihs depth texts h hreadable
    rw [dumpsEntries, bind_eq_ok] at h
    obtain ⟨text, htext, h⟩ := h
    rw [bind_eq_ok] at h
    obtain ⟨rest, hrest, h⟩ := h
    rw [← Except.ok.inj h]
    exact .cons ⟨rfl, hreadable.1, ih htext hreadable.2.1⟩ (ihs hrest hreadable.2.2)

/-- **`json.loads(json.dumps(value))`** is the value with its keys in order; a newline may follow. -/
theorem loads_dumps {v : Value} {text : Bytes} (h : dumps jsonFloat rt.maxDepth v = .ok text)
    (hreadable : Readable v) : loads rt hooks ⟨points (text ++ [10])⟩ = .ok (ordered v) := by
  have hscans : Scans rt hooks rt.maxDepth text (ordered v) := scans_dumps v h hreadable
  have hskip := hscans.opens.skipSpace [10]
  have hread := hscans.reads (2 * (points (text ++ [10])).length + 4) [10] (stops_cons (by omega)) (by
    rw [length_points, List.length_append]
    omega)
  have hpoints : points (text ++ [10]) = points text ++ [10] := points_append _ _
  have hmark : ¬ (points text ++ [10]).head? = some 0xfeff := by
    obtain ⟨c, tail, hcons, -⟩ := hscans.opens
    intro hhead
    have hc : c.toUInt8.toNat = c := by
      have hmem : c ∈ points text := by
        rw [hcons]
        exact List.mem_cons_self
      obtain ⟨b, -, rfl⟩ := List.mem_map.mp hmem
      exact toNat_toUInt8 b.toNat_lt
    rw [hcons, List.cons_append, List.head?_cons, Option.some.injEq] at hhead
    rw [hhead] at hc
    exact absurd hc (by decide)
  rw [hpoints] at hread
  rw [loads]
  simp only [hpoints, hmark, if_false, hskip, PyStr.length, hread, ok_bind]
  rfl

end

/-! ## 7. The text of what was read -/

section

variable {float : PyFloat → Py Bytes} {depth : Nat}

theorem sortByKey_sortByKey {α : Type} (entries : List (PyStr × α)) :
    sortByKey (sortByKey entries) = sortByKey entries :=
  sortByKey_eq (List.pairwise_map.mpr (pairwise_sortByKey entries))

theorem dumpsEntries_iff {entries : List (PyStr × Value)} {texts : List (PyStr × Bytes)} :
    dumpsEntries float depth entries = .ok texts ↔
      List.Forall₂ (fun text e => text.1 = e.1 ∧ dumps float depth e.2 = .ok text.2) texts entries := by
  induction entries generalizing texts with
  | nil =>
    rw [dumpsEntries, List.forall₂_nil_right_iff, Except.ok.injEq]
    exact eq_comm
  | cons e entries ih =>
    obtain ⟨key, value⟩ := e
    simp only [dumpsEntries, bind_eq_ok, Except.ok.injEq]
    constructor
    · rintro ⟨text, htext, rest, hrest, rfl⟩
      exact .cons ⟨rfl, htext⟩ (ih.mp hrest)
    · rintro (_ | ⟨⟨hkey, htext⟩, hrest⟩)
      obtain rfl : _ = key := hkey
      exact ⟨_, htext, _, ih.mpr hrest, rfl⟩

/-- **What was read has the text that it was read from.** -/
theorem dumps_ordered (v : Value) : ∀ {depth : Nat} {text : Bytes},
    dumps float depth v = .ok text → dumps float depth (ordered v) = .ok text := by
  refine @value_induction
    (fun v => ∀ {depth : Nat} {text : Bytes}, dumps float depth v = .ok text →
      dumps float depth (ordered v) = .ok text)
    (fun items => ∀ {depth : Nat} {texts : List Bytes}, dumpsList float depth items = .ok texts →
      dumpsList float depth (orderedList items) = .ok texts)
    (fun entries => ∀ {depth : Nat} {texts : List (PyStr × Bytes)},
      dumpsEntries float depth entries = .ok texts →
        dumpsEntries float depth (orderedEntries entries) = .ok texts)
    (fun h => h) (fun _ _ _ h => h) (fun _ _ _ h => h) (fun _ _ _ h => h) (fun _ _ _ h => h)
    ?_ ?_ (fun h => h) (fun h => h) ?_ (fun h => h) ?_ v
  · intro items ih depth text h
    cases depth with
    | zero =>
      rw [dumps] at h
      cases h
    | succ depth =>
      rw [dumps, bind_eq_ok] at h
      obtain ⟨texts, htexts, h⟩ := h
      rw [ordered, dumps, ih htexts, ok_bind]
      exact h
  · intro entries ih depth text h
    cases depth with
    | zero =>
      rw [dumps] at h
      cases h
    | succ depth =>
      rw [dumps, bind_eq_ok] at h
      obtain ⟨texts, htexts, h⟩ := h
      have hsorted := dumpsEntries_iff.mpr
        (forall₂_sortByKey (fun _ _ h => h.1) (dumpsEntries_iff.mp (ih htexts)))
      rw [ordered, dumps, hsorted, ok_bind, sortByKey_sortByKey]
      exact h
  · intro item items ih ihs depth texts h
    rw [dumpsList, bind_eq_ok] at h
    obtain ⟨text, htext, h⟩ := h
    rw [bind_eq_ok] at h
    obtain ⟨rest, hrest, h⟩ := h
    rw [orderedList, dumpsList, ih htext, ok_bind, ihs hrest, ok_bind]
    exact h
  · intro key value entries ih ihs depth texts h
    rw [dumpsEntries, bind_eq_ok] at h
    obtain ⟨text, htext, h⟩ := h
    rw [bind_eq_ok] at h
    obtain ⟨rest, hrest, h⟩ := h
    rw [orderedEntries, dumpsEntries, ih htext, ok_bind, ihs hrest, ok_bind]
    exact h

/-- The order in which a dict has its entries does not show in its text. -/
theorem dumps_perm {entries entries' : List (PyStr × Value)} {text : Bytes}
    (hperm : entries.Perm entries') (hnodup : (entries.map Prod.fst).Nodup)
    (h : dumps float depth (.dict entries) = .ok text) :
    dumps float depth (.dict entries') = .ok text := by
  cases depth with
  | zero =>
    rw [dumps] at h
    cases h
  | succ depth =>
    rw [dumps, bind_eq_ok] at h
    obtain ⟨texts, htexts, h⟩ := h
    obtain ⟨texts', hforall, hpermed⟩ := List.perm_comp_forall₂ hperm.symm (dumpsEntries_iff.mp htexts).flip
    have hread : dumpsEntries float depth entries' = .ok texts' := dumpsEntries_iff.mpr hforall.flip
    have hkeys : texts.map Prod.fst = entries.map Prod.fst := by
      have hfst := dumpsEntries_iff.mp htexts
      clear htexts hpermed hperm hnodup h hforall hread
      induction hfst with
      | nil => rfl
      | cons hfirst _ ih => rw [List.map_cons, List.map_cons, hfirst.1, ih]
    have hsorted : sortByKey texts' = sortByKey texts := by
      refine (sortByKey_congr hpermed.symm ?_).symm
      rw [hkeys]
      exact hnodup
    rw [dumps, hread, ok_bind, hsorted]
    exact h

/-- A key of the value in order. -/
theorem find?_ordered (entries : List (PyStr × Value)) (key : PyStr) :
    (ordered (.dict entries)).find? key = (lookup entries key).map ordered := by
  have hentries : lookup (orderedEntries entries) key = (lookup entries key).map ordered := by
    induction entries with
    | nil => rfl
    | cons e entries ih =>
      obtain ⟨k, value⟩ := e
      rw [orderedEntries, lookup, lookup, ih]
      cases lookup entries key with
      | some found => rfl
      | none =>
        simp only [Option.map_none, Option.none_or]
        split
        · rfl
        · rfl
  rw [ordered, Value.find?, lookup_sortByKey, hentries]

/-- **Two values with one text are one value, up to the order of the keys.** -/
theorem ordered_of_dumps {v w : Value} {text : Bytes} (hv : dumps jsonFloat depth v = .ok text)
    (hw : dumps jsonFloat depth w = .ok text) (hreadable : Readable v) (hreadable' : Readable w) :
    ordered v = ordered w := by
  have hloads (v : Value) (h : dumps jsonFloat depth v = .ok text) (hreadable : Readable v) :
      loads ⟨fun _ => "", depth, fun s => ⟨s, none⟩, []⟩ ⟨.jsonDecodeError, none⟩
        ⟨points (text ++ [10])⟩ = .ok (ordered v) := loads_dumps h hreadable
  exact Except.ok.inj ((hloads v hv hreadable).symm.trans (hloads w hw hreadable'))

end

/-! ## 8. The octets -/

theorem utf8Decode_ascii {octets : Bytes} (h : ∀ b ∈ octets, b.toNat < 128) :
    utf8Decode octets = some (points octets) := by
  induction octets with
  | nil => rfl
  | cons b octets ih =>
    rw [utf8Decode.eq_def]
    simp only [show b.toNat < 128 from h b List.mem_cons_self, if_true,
      ih fun c hc => h c (List.mem_cons_of_mem _ hc)]
    rfl

theorem ascii_joinComma {texts : List Bytes} (h : ∀ text ∈ texts, ∀ b ∈ text, b.toNat < 128) :
    ∀ b ∈ joinComma texts, b.toNat < 128 := by
  induction texts with
  | nil =>
    intro b hb
    cases hb
  | cons text texts ih =>
    obtain ⟨hfirst, hrest⟩ := List.forall_mem_cons.mp h
    cases texts with
    | nil => exact hfirst
    | cons next texts =>
      rw [joinComma]
      · simp only [List.forall_mem_append, List.forall_mem_singleton]
        exact ⟨⟨hfirst, by decide⟩, ih hrest⟩
      · exact List.cons_ne_nil _ _

theorem ascii_bytes_toString (n : Int) : ∀ b ∈ bytes (toString n), b.toNat < 128 := by
  have hdigits (m : Nat) : ∀ b ∈ bytes (toString m), b.toNat < 128 := by
    intro b hb
    have hmem : b.toNat ∈ points (bytes (toString m)) := List.mem_map_of_mem hb
    rw [points_repr] at hmem
    have hdigit := isDigit_toDigits _ hmem
    simp only [isDigit, Bool.and_eq_true, decide_eq_true_eq] at hdigit
    omega
  cases n with
  | ofNat m => exact hdigits m
  | negSucc m =>
    have hlist : (toString (Int.negSucc m)).toList = '-' :: (toString (m + 1)).toList := by
      change ("-" ++ (m + 1).repr).toList = _
      rw [String.toList_append]
      rfl
    rw [bytes, hlist, List.map_cons, List.forall_mem_cons]
    exact ⟨by decide, hdigits (m + 1)⟩

/-- The text of a value is ASCII. -/
theorem ascii_dumps (v : Value) : ∀ {depth : Nat} {text : Bytes},
    dumps jsonFloat depth v = .ok text → Readable v → ∀ b ∈ text, b.toNat < 128 := by
  have hstring (s : PyStr) : ∀ b ∈ jsonString s, b.toNat < 128 := by
    intro b hb
    have hprint := printable_jsonString s b hb
    omega
  refine @value_induction
    (fun v => ∀ {depth : Nat} {text : Bytes}, dumps jsonFloat depth v = .ok text → Readable v →
      ∀ b ∈ text, b.toNat < 128)
    (fun items => ∀ {depth : Nat} {texts : List Bytes}, dumpsList jsonFloat depth items = .ok texts →
      ReadableList items → ∀ text ∈ texts, ∀ b ∈ text, b.toNat < 128)
    (fun entries => ∀ {depth : Nat} {texts : List (PyStr × Bytes)},
      dumpsEntries jsonFloat depth entries = .ok texts → ReadableEntries entries →
        ∀ e ∈ texts, ∀ b ∈ e.2, b.toNat < 128)
    ?_ ?_ ?_ ?_ ?_ ?_ ?_ ?_ ?_ ?_ ?_ ?_ v
  · intro depth text h _
    rw [dumps] at h
    rw [← Except.ok.inj h]
    decide +kernel
  · intro b depth text h _
    cases b with
    | true =>
      rw [dumps] at h
      rw [← Except.ok.inj h]
      decide +kernel
    | false =>
      rw [dumps] at h
      rw [← Except.ok.inj h]
      decide +kernel
  · intro n depth text h _
    rw [dumps, jsonInt] at h
    split at h
    · cases h
    · rw [← Except.ok.inj h]
      exact ascii_bytes_toString n
  · intro x depth text _ hreadable
    exact hreadable.elim
  · intro s depth text h _
    rw [dumps] at h
    rw [← Except.ok.inj h]
    exact hstring s
  · intro items ih depth text h hreadable
    cases depth with
    | zero =>
      rw [dumps] at h
      cases h
    | succ depth =>
      rw [dumps, bind_eq_ok] at h
      obtain ⟨texts, htexts, h⟩ := h
      rw [← Except.ok.inj h]
      simp only [List.forall_mem_append, List.forall_mem_singleton]
      exact ⟨⟨by decide, ascii_joinComma (ih htexts hreadable)⟩, by decide⟩
  · intro entries ih depth text h hreadable
    cases depth with
    | zero =>
      rw [dumps] at h
      cases h
    | succ depth =>
      rw [dumps, bind_eq_ok] at h
      obtain ⟨texts, htexts, h⟩ := h
      rw [← Except.ok.inj h]
      simp only [List.forall_mem_append, List.forall_mem_singleton]
      refine ⟨⟨by decide, ascii_joinComma ?_⟩, by decide⟩
      intro text htext
      obtain ⟨e, he, rfl⟩ := List.mem_map.mp htext
      simp only [List.forall_mem_append, List.forall_mem_singleton]
      exact ⟨⟨hstring e.1, by decide⟩,
        ih htexts hreadable.2 e ((perm_sortByKey texts).mem_iff.mp he)⟩
  · intro depth text _ hreadable
    exact hreadable.elim
  · intro depth texts h _
    rw [dumpsList] at h
    rw [← Except.ok.inj h]
    intro text htext
    cases htext
  · intro item items ih ihs depth texts h hreadable
    rw [dumpsList, bind_eq_ok] at h
    obtain ⟨text, htext, h⟩ := h
    rw [bind_eq_ok] at h
    obtain ⟨rest, hrest, h⟩ := h
    rw [← Except.ok.inj h, List.forall_mem_cons]
    exact ⟨ih htext hreadable.1, ihs hrest hreadable.2⟩
  · intro depth texts h _
    rw [dumpsEntries] at h
    rw [← Except.ok.inj h]
    intro e he
    cases he
  · intro key value entries ih ihs depth texts h hreadable
    rw [dumpsEntries, bind_eq_ok] at h
    obtain ⟨text, htext, h⟩ := h
    rw [bind_eq_ok] at h
    obtain ⟨rest, hrest, h⟩ := h
    rw [← Except.ok.inj h, List.forall_mem_cons]
    exact ⟨ih htext hreadable.2.1, ihs hrest hreadable.2.2⟩

end Supplementary.Json
