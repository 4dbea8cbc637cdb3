/-
# A string literal, read back

`scanString_jsonString`: the interpreter's scanner, run on the literal that `json.dumps` writes for a
text, gives the text back, but for surrogates in a row that make up one code point (`reload`).  So
two texts have one literal exactly if they agree after that (`jsonString_inj`), and a text of scalar
values is its literal's only one.

The scanner looks ahead after the escape of a high surrogate.  `NoLow` says that what follows is not
the escape of a low one, and each way in which a literal goes on has its lemma.
-/
import Supplementary.Python.Json
import Supplementary.Python.Utf8

namespace Supplementary.Json

open Supplementary

/-- The code points of an ASCII text. -/
def points (octets : Bytes) : List Nat := octets.map UInt8.toNat

@[simp] theorem points_append (a b : Bytes) : points (a ++ b) = points a ++ points b :=
  List.map_append

/-! ## 1. Escapes -/

theorem hexValue_hexDigit {n : Nat} (h : n < 16) : hexValue (hexDigit n).toNat = some n := by
  have hall : ∀ n : Fin 16, hexValue (hexDigit n).toNat = some n.val := by decide
  exact hall ⟨n, h⟩

theorem points_unicodeEscape (v : Nat) : points (unicodeEscape v) =
    [92, 117, (hexDigit (v / 4096 % 16)).toNat, (hexDigit (v / 256 % 16)).toNat,
      (hexDigit (v / 16 % 16)).toNat, (hexDigit (v % 16)).toNat] := rfl

theorem hexFour_digits {v : Nat} (h : v < 0x10000) :
    hexFour (hexDigit (v / 4096 % 16)).toNat (hexDigit (v / 256 % 16)).toNat
      (hexDigit (v / 16 % 16)).toNat (hexDigit (v % 16)).toNat = some v := by
  have hdigit (n : Nat) : hexValue (hexDigit (n % 16)).toNat = some (n % 16) :=
    hexValue_hexDigit (Nat.mod_lt _ (by omega))
  simp only [hexFour, hdigit, Option.pure_def, Option.bind_eq_bind, Option.bind_some,
    Option.some.injEq]
  omega

def IsHigh (v : Nat) : Prop := 0xd800 ≤ v ∧ v < 0xdc00
def IsLow (v : Nat) : Prop := 0xdc00 ≤ v ∧ v < 0xe000

/-- What follows is not the escape of a low surrogate. -/
def NoLow (text : List Nat) : Prop := ∀ e f g h rest, text = 92 :: 117 :: e :: f :: g :: h :: rest →
  ∃ low, hexFour e f g h = some low ∧ ¬ IsLow low

section

variable {v : Nat} {rest : List Nat}

theorem scanEscape_unicode (hv : v < 0x10000) (h : IsHigh v → NoLow rest) :
    scanEscape ((points (unicodeEscape v)).tail ++ rest) = .ok (v, rest) := by
  rw [points_unicodeEscape, List.tail_cons]
  simp only [List.cons_append, List.nil_append, scanEscape, hexFour_digits hv]
  split
  · next hhigh =>
    split
    · obtain ⟨low, hlow, hnot⟩ := h hhigh _ _ _ _ _ rfl
      rw [hlow]
      exact if_neg hnot
    · rfl
  · rfl

theorem scanEscape_pair {high low : Nat} (hhigh : IsHigh high) (hlow : IsLow low) :
    scanEscape ((points (unicodeEscape high)).tail ++ (points (unicodeEscape low) ++ rest)) =
      .ok (0x10000 + (high - 0xd800) * 1024 + (low - 0xdc00), rest) := by
  obtain ⟨hh, hh'⟩ := hhigh
  obtain ⟨hl, hl'⟩ := hlow
  rw [points_unicodeEscape, points_unicodeEscape, List.tail_cons]
  simp only [List.cons_append, List.nil_append, scanEscape,
    hexFour_digits (v := high) (by omega), hexFour_digits (v := low) (by omega)]
  rw [if_pos ⟨hh, hh'⟩, if_pos ⟨hl, hl'⟩]

theorem noLow_quote : NoLow (34 :: rest) := by
  intro e f g h tail heq
  cases heq

theorem noLow_unicode (hv : v < 0x10000) (h : ¬ IsLow v) :
    NoLow (points (unicodeEscape v) ++ rest) := by
  intro e f g k tail heq
  rw [points_unicodeEscape] at heq
  cases heq
  exact ⟨v, hexFour_digits hv, h⟩

/-- A backslash, as it stands before an escaped character. -/
theorem noLow_short {c : Nat} (h : c ≠ 117) : NoLow (92 :: c :: rest) := by
  intro e f g k tail heq
  cases heq
  exact absurd rfl h

end

/-! ## 2. One code point -/

/-- The seven escapes with a letter of their own. -/
theorem jsonEscape_cases (v : Nat) (hv : v ≤ 0x10ffff) :
    (∃ c : UInt8, jsonEscape v = [92, c] ∧ c ≠ 117 ∧ escapedChar c.toNat = some v) ∨
    (jsonEscape v = [v.toUInt8] ∧ v ≠ 34 ∧ v ≠ 92 ∧ 32 ≤ v ∧ v ≤ 126) ∨
    (jsonEscape v = unicodeEscape v ∧ v < 0x10000) ∨
    (0x10000 ≤ v ∧ jsonEscape v = unicodeEscape (0xd800 + (v - 0x10000) / 1024) ++
      unicodeEscape (0xdc00 + (v - 0x10000) % 1024)) := by
  by_cases hgt : 0x10000 ≤ v
  · exact Or.inr (Or.inr (Or.inr ⟨hgt, jsonEscape_of_gt hgt⟩))
  · by_cases hshort : v = 34 ∨ v = 92 ∨ v = 10 ∨ v = 13 ∨ v = 9 ∨ v = 12 ∨ v = 8
    · left
      rcases hshort with rfl | rfl | rfl | rfl | rfl | rfl | rfl
      · exact ⟨34, rfl, by decide, rfl⟩
      · exact ⟨92, rfl, by decide, rfl⟩
      · exact ⟨110, rfl, by decide, rfl⟩
      · exact ⟨114, rfl, by decide, rfl⟩
      · exact ⟨116, rfl, by decide, rfl⟩
      · exact ⟨102, rfl, by decide, rfl⟩
      · exact ⟨98, rfl, by decide, rfl⟩
    · simp only [not_or] at hshort
      obtain ⟨h1, h2, h3, h4, h5, h6, h7⟩ := hshort
      by_cases hprint : 32 ≤ v ∧ v ≤ 126
      · refine Or.inr (Or.inl ⟨?_, h1, h2, hprint⟩)
        rw [jsonEscape, if_neg h1, if_neg h2, if_neg h3, if_neg h4, if_neg h5, if_neg h6, if_neg h7,
          if_pos hprint]
      · refine Or.inr (Or.inr (Or.inl ⟨?_, by omega⟩))
        rw [jsonEscape, if_neg h1, if_neg h2, if_neg h3, if_neg h4, if_neg h5, if_neg h6, if_neg h7,
          if_neg hprint, if_pos (by omega)]

section

variable {v fuel : Nat} {rest : List Nat}

/-- A literal goes on with the escape of a low surrogate only at a low surrogate. -/
theorem noLow_jsonEscape (hv : v ≤ 0x10ffff) (h : ¬ IsLow v) :
    NoLow (points (jsonEscape v) ++ rest) := by
  rcases jsonEscape_cases v hv with ⟨c, heq, hc, -⟩ | ⟨heq, -, hback, hlow, hhigh⟩ | ⟨heq, hlt⟩ |
    ⟨hgt, heq⟩
  · rw [heq]
    refine noLow_short (c := c.toNat) fun hfalse => hc ?_
    exact UInt8.toNat_inj.mp hfalse
  · rw [heq]
    intro e f g k tail htail
    have hhead : v.toUInt8.toNat = 92 := (List.cons.inj htail).1
    rw [toNat_toUInt8 (by omega)] at hhead
    exact absurd hhead hback
  · rw [heq]
    exact noLow_unicode hlt h
  · rw [heq, points_append, List.append_assoc]
    refine noLow_unicode (by omega) ?_
    simp only [IsLow]
    omega

/-- The scanner reads one code point back. -/
theorem scanString_jsonEscape (hv : v ≤ 0x10ffff) (h : IsHigh v → NoLow rest) :
    scanString (fuel + 1) (points (jsonEscape v) ++ rest) =
      scanString fuel rest >>= fun read => .ok (v :: read.1, read.2) := by
  rcases jsonEscape_cases v hv with ⟨c, heq, hc, hescaped⟩ | ⟨heq, hquote, hback, hlow, hhigh⟩ |
    ⟨heq, hlt⟩ | ⟨hgt, heq⟩
  · rw [heq]
    change scanString (fuel + 1) (92 :: c.toNat :: rest) = _
    have hscan : scanEscape (c.toNat :: rest) = .ok (v, rest) := by
      unfold scanEscape
      split
      · next heq' =>
        exact absurd (UInt8.toNat_inj.mp (List.cons.inj heq').1) hc
      · next heq' =>
        obtain ⟨rfl, rfl⟩ := List.cons.inj heq'
        rw [hescaped]
      · next heq' => cases heq'
    simp only [scanString, Nat.reduceEqDiff, Nat.reduceLT, if_false, if_true, hscan, ok_bind]
  · have hpoint : points (jsonEscape v) = [v] := by
      rw [heq]
      exact congrArg (fun n => [n]) (toNat_toUInt8 (by omega))
    rw [hpoint, List.singleton_append, scanString, if_neg hquote, if_neg (by omega), if_neg hback]
    rfl
  · have hscan := @scanEscape_unicode v rest hlt h
    rw [heq]
    rw [points_unicodeEscape] at hscan ⊢
    simp only [List.tail_cons, List.cons_append, List.nil_append] at hscan ⊢
    simp only [scanString, Nat.reduceEqDiff, Nat.reduceLT, if_false, if_true, hscan, ok_bind]
  · have hscan := @scanEscape_pair rest (0xd800 + (v - 0x10000) / 1024)
      (0xdc00 + (v - 0x10000) % 1024) (by simp only [IsHigh]; omega) (by simp only [IsLow]; omega)
    have hval : 0x10000 + (0xd800 + (v - 0x10000) / 1024 - 0xd800) * 1024 +
        (0xdc00 + (v - 0x10000) % 1024 - 0xdc00) = v := by omega
    rw [hval] at hscan
    rw [heq, points_append, List.append_assoc]
    rw [points_unicodeEscape (0xd800 + (v - 0x10000) / 1024)] at hscan ⊢
    simp only [List.tail_cons, List.cons_append, List.nil_append] at hscan ⊢
    simp only [scanString, Nat.reduceEqDiff, Nat.reduceLT, if_false, if_true, hscan, ok_bind]

/-- Two surrogates that make up one code point are read back as this code point. -/
theorem scanString_pair {high low : Nat} (hhigh : IsHigh high) (hlow : IsLow low) :
    scanString (fuel + 1) (points (jsonEscape high) ++ (points (jsonEscape low) ++ rest)) =
      scanString fuel rest >>= fun read =>
        .ok ((0x10000 + (high - 0xd800) * 1024 + (low - 0xdc00)) :: read.1, read.2) := by
  have hscan := @scanEscape_pair rest _ _ hhigh hlow
  obtain ⟨hh, hh'⟩ := hhigh
  obtain ⟨hl, hl'⟩ := hlow
  rw [jsonEscape_of_ge (v := high) (by omega) (by omega),
    jsonEscape_of_ge (v := low) (by omega) (by omega)]
  rw [points_unicodeEscape high] at hscan ⊢
  simp only [List.tail_cons, List.cons_append, List.nil_append] at hscan ⊢
  simp only [scanString, Nat.reduceEqDiff, Nat.reduceLT, if_false, if_true, hscan, ok_bind]

end

/-! ## 3. A literal -/

/-- The scanner, after the opening quote of a literal.  Induction along `rejoin`: a pair of
surrogates is one code point, and no other escape is taken for half of one. -/
theorem scanString_literal {text tail : List Nat} (htext : ∀ c ∈ text, c ≤ 0x10ffff) {fuel : Nat}
    (hfuel : text.length < fuel) :
    scanString fuel (points (text.flatMap jsonEscape) ++ 34 :: tail) =
      .ok (PyStr.rejoin text, tail) := by
  obtain ⟨fuel, rfl⟩ : ∃ n, fuel = n + 1 := ⟨fuel - 1, by omega⟩
  fun_induction PyStr.rejoin text generalizing fuel with
  | case1 => rfl
  | case2 v =>
    obtain ⟨fuel, rfl⟩ : ∃ n, fuel = n + 1 := ⟨fuel - 1, by simp at hfuel; omega⟩
    rw [List.flatMap_singleton, scanString_jsonEscape (htext v List.mem_cons_self)
      fun _ => noLow_quote]
    rfl
  | case3 high low rest hpair ih =>
    obtain ⟨fuel, rfl⟩ : ∃ n, fuel = n + 1 := ⟨fuel - 1, by simp at hfuel; omega⟩
    rw [List.flatMap_cons, List.flatMap_cons, points_append, points_append, List.append_assoc,
      List.append_assoc, scanString_pair ⟨hpair.1, hpair.2.1⟩ ⟨hpair.2.2.1, hpair.2.2.2⟩,
      ih (fun c hc => htext c (List.mem_cons_of_mem _ (List.mem_cons_of_mem _ hc))) fuel
        (by simp at hfuel; omega)]
    rfl
  | case4 high low rest hpair ih =>
    obtain ⟨fuel, rfl⟩ : ∃ n, fuel = n + 1 := ⟨fuel - 1, by simp at hfuel; omega⟩
    have hnext := ih (fun c hc => htext c (List.mem_cons_of_mem _ hc)) fuel (by simp at hfuel ⊢; omega)
    rw [List.flatMap_cons, points_append, List.append_assoc,
      scanString_jsonEscape (htext high List.mem_cons_self), hnext]
    · rfl
    · intro hhigh
      rw [List.flatMap_cons, points_append, List.append_assoc]
      refine noLow_jsonEscape (htext low (List.mem_cons_of_mem _ List.mem_cons_self)) fun hlow => ?_
      exact hpair ⟨hhigh.1, hhigh.2, hlow.1, hlow.2⟩

theorem length_flatMap_jsonEscape (text : List Nat) :
    text.length ≤ (points (text.flatMap jsonEscape)).length := by
  induction text with
  | nil => exact Nat.le_refl 0
  | cons v text ih =>
    have hone : 1 ≤ (jsonEscape v).length := by
      unfold jsonEscape
      repeat' split
      all_goals simp [bytes, unicodeEscape]
    simp only [List.flatMap_cons, points_append, List.length_append, List.length_cons]
    simp only [points, List.length_map] at ih ⊢
    omega

theorem scanValue_quote {rt : Runtime} {hooks : Hooks} {fuel depth : Nat} {rest : List Nat} :
    scanValue rt hooks (fuel + 1) depth (34 :: rest) =
      scanString (rest.length + 1) rest >>= fun read => .ok (.str ⟨read.1⟩, read.2) := by
  rw [scanValue.eq_def]
  exact if_pos rfl

/-- **`json.loads(json.dumps(text))`** is the text after reloading. -/
theorem loads_jsonString (rt : Runtime) (hooks : Hooks) {s : PyStr} (hs : s.IsText) :
    loads rt hooks ⟨points (jsonString s)⟩ = .ok (.str s.reload) := by
  have hpoints : points (jsonString s) = 34 :: (points (s.codePoints.flatMap jsonEscape) ++ [34]) := by
    simp [jsonString, points]
  have hscan := @scanString_literal s.codePoints [] hs
    ((points (s.codePoints.flatMap jsonEscape) ++ [34]).length + 1) (by
      have hlength := length_flatMap_jsonEscape s.codePoints
      rw [List.length_append]
      omega)
  rw [loads]
  simp only [hpoints, List.head?_cons, skipSpace]
  rw [if_neg (by simp), if_neg (by simp), scanValue_quote, hscan]
  rfl

/-- Two texts have one literal exactly if they are one text after reloading. -/
theorem jsonString_inj {s t : PyStr} (hs : s.IsText) (ht : t.IsText) :
    jsonString s = jsonString t ↔ s.reload = t.reload := by
  constructor
  · intro h
    have hooks : Hooks := ⟨.jsonDecodeError, none⟩
    have rt : Runtime := ⟨fun _ => ⟨[]⟩, 0, fun s => ⟨s, none⟩, []⟩
    have hloads := loads_jsonString rt hooks hs
    rw [h, loads_jsonString rt hooks ht] at hloads
    exact (Value.str.inj (Except.ok.inj hloads)).symm
  · intro h
    rw [← jsonString_reload s, h, jsonString_reload]

/-- A literal is printable ASCII. -/
theorem printable_jsonString (s : PyStr) : ∀ b ∈ jsonString s, 32 ≤ b.toNat ∧ b.toNat ≤ 126 := by
  have hdigit (n : Nat) : 32 ≤ (hexDigit (n % 16)).toNat ∧ (hexDigit (n % 16)).toNat ≤ 126 := by
    have hall : ∀ n : Fin 16, 32 ≤ (hexDigit n).toNat ∧ (hexDigit n).toNat ≤ 126 := by decide
    exact hall ⟨n % 16, Nat.mod_lt _ (by omega)⟩
  have hunicode (v : Nat) : ∀ b ∈ unicodeEscape v, 32 ≤ b.toNat ∧ b.toNat ≤ 126 := by
    intro b hb
    have hmem : b ∈ ([92, 117, hexDigit (v / 4096 % 16), hexDigit (v / 256 % 16),
      hexDigit (v / 16 % 16), hexDigit (v % 16)] : Bytes) := hb
    simp only [List.mem_cons, List.not_mem_nil, or_false] at hmem
    rcases hmem with rfl | rfl | rfl | rfl | rfl | rfl
    · decide
    · decide
    · exact hdigit _
    · exact hdigit _
    · exact hdigit _
    · exact hdigit _
  have hpoint (v : Nat) : ∀ b ∈ jsonEscape v, 32 ≤ b.toNat ∧ b.toNat ≤ 126 := by
    unfold jsonEscape
    split_ifs with h1 h2 h3 h4 h5 h6 h7 h8 h9
    · decide +kernel
    · decide +kernel
    · decide +kernel
    · decide +kernel
    · decide +kernel
    · decide +kernel
    · decide +kernel
    · intro b hb
      rw [List.mem_singleton.mp hb, toNat_toUInt8 (by omega)]
      exact h8
    · exact hunicode v
    · intro b hb
      rcases List.mem_append.mp hb with hb | hb
      · exact hunicode _ b hb
      · exact hunicode _ b hb
  intro b hb
  simp only [jsonString, List.mem_append, List.mem_singleton, List.mem_flatMap] at hb
  rcases hb with (rfl | ⟨v, -, hb⟩) | rfl
  · decide
  · exact hpoint v b hb
  · decide

/-! ## 4. Scalar values -/

/-- A text of scalar values: no surrogate stands alone. -/
def IsScalar (s : PyStr) : Prop := ∀ c ∈ s.codePoints, c ≤ 0x10ffff ∧ ¬ (0xd800 ≤ c ∧ c ≤ 0xdfff)

theorem IsScalar.isText {s : PyStr} (h : IsScalar s) : s.IsText := fun c hc => (h c hc).1

/-- A text of scalar values is read back as it is. -/
theorem IsScalar.reload {s : PyStr} (h : IsScalar s) : s.reload = s := by
  obtain ⟨text⟩ := s
  have hrejoin : PyStr.rejoin text = text := by
    fun_induction PyStr.rejoin text with
    | case1 => rfl
    | case2 => rfl
    | case3 high low rest hpair =>
      exact absurd ⟨hpair.1, by omega⟩ (h high List.mem_cons_self).2
    | case4 high low rest hpair ih =>
      rw [ih fun c hc => h c (List.mem_cons_of_mem _ hc)]
  exact congrArg PyStr.mk hrejoin

end Supplementary.Json
