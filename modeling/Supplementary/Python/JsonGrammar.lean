/-
# The grammar of the texts `json.loads` reads

`Derives part w n d` says that the units `w` are a value, the inside of an array or the inside of
an object, with `n` containers, scalar values and object keys in it and `d` containers around its
innermost part.  The grammar is the one of Python's decoder, so the constants `NaN`, `Infinity`
and `-Infinity` are in it, and a key that occurs twice counts twice.

The units are numbers: the code points of a text or the octets of its encoding.  An encoding that
keeps ASCII and spells everything else with units of 128 and above turns a derivation of the text
into one of its octets, with the same two counts (`Derives.spelled`).
-/
import Supplementary.Python.Incremental
import Supplementary.Python.Json

namespace Supplementary.Json

/-! ## 1. Tokens -/

def IsBlank (w : List Nat) : Prop := ∀ c ∈ w, c = 32 ∨ c = 9 ∨ c = 10 ∨ c = 13

def IsHexDigit (c : Nat) : Prop := 48 ≤ c ∧ c ≤ 57 ∨ 97 ≤ c ∧ c ≤ 102 ∨ 65 ≤ c ∧ c ≤ 70

/-- The characters `"\/bfnrt`, which may stand after a backslash. -/
def escapables : List Nat := [34, 92, 47, 98, 102, 110, 114, 116]

/-- What may stand between the quotes of a string. -/
inductive IsBody : List Nat → Prop
  | nil : IsBody []
  | plain {c : Nat} {w : List Nat} (hc : 32 ≤ c ∧ c ≠ 34 ∧ c ≠ 92) (h : IsBody w) : IsBody (c :: w)
  | escape {c : Nat} {w : List Nat} (hc : c ∈ escapables) (h : IsBody w) : IsBody (92 :: c :: w)
  | unicode {w : List Nat} {x y z u : Nat} (hx : IsHexDigit x) (hy : IsHexDigit y)
      (hz : IsHexDigit z) (hu : IsHexDigit u) (h : IsBody w) :
      IsBody (92 :: 117 :: x :: y :: z :: u :: w)

def IsString (w : List Nat) : Prop := ∃ body, IsBody body ∧ w = 34 :: (body ++ [34])

def IsDigits (w : List Nat) : Prop := w ≠ [] ∧ ∀ c ∈ w, isDigit c = true

/-- A zero, or digits that do not start with one. -/
def IsWhole (w : List Nat) : Prop := w = [48] ∨ IsDigits w ∧ w.head? ≠ some 48

def IsFraction (w : List Nat) : Prop := w = [] ∨ ∃ digits, IsDigits digits ∧ w = 46 :: digits

def IsExponent (w : List Nat) : Prop :=
  w = [] ∨ ∃ e sign digits, (e = 101 ∨ e = 69) ∧ (sign = [] ∨ sign = [43] ∨ sign = [45]) ∧
    IsDigits digits ∧ w = e :: (sign ++ digits)

def IsNumber (w : List Nat) : Prop :=
  ∃ sign whole fraction exponent, (sign = [] ∨ sign = [45]) ∧ IsWhole whole ∧
    IsFraction fraction ∧ IsExponent exponent ∧ w = sign ++ whole ++ fraction ++ exponent

/-- `null`, `true`, `false`, `NaN`, `Infinity` and `-Infinity`. -/
def constants : List (List Nat) :=
  [[110, 117, 108, 108], [116, 114, 117, 101], [102, 97, 108, 115, 101], [78, 97, 78],
    [73, 110, 102, 105, 110, 105, 116, 121], [45, 73, 110, 102, 105, 110, 105, 116, 121]]

def IsWord (w : List Nat) : Prop := w ∈ constants ∨ IsNumber w

/-- A letter, a digit, a sign or a point: what a constant or a number is made of. -/
def IsWordUnit (c : Nat) : Prop :=
  48 ≤ c ∧ c ≤ 57 ∨ 97 ≤ c ∧ c ≤ 122 ∨ 65 ≤ c ∧ c ≤ 90 ∨ c = 43 ∨ c = 45 ∨ c = 46

theorem isDigit_iff {c : Nat} : isDigit c = true ↔ 48 ≤ c ∧ c ≤ 57 := by
  simp [isDigit]

theorem IsDigits.unit {w : List Nat} (h : IsDigits w) : ∀ c ∈ w, IsWordUnit c := by
  intro c hc
  exact .inl (isDigit_iff.mp (h.2 c hc))

theorem IsWhole.digits {w : List Nat} (h : IsWhole w) : IsDigits w := by
  rcases h with rfl | ⟨h, -⟩
  · exact ⟨List.cons_ne_nil _ _, by simp [isDigit]⟩
  · exact h

theorem IsNumber.unit {w : List Nat} (h : IsNumber w) : ∀ c ∈ w, IsWordUnit c := by
  obtain ⟨sign, whole, fraction, exponent, hsign, hwhole, hfraction, hexponent, rfl⟩ := h
  intro c hc
  simp only [List.append_assoc, List.mem_append] at hc
  rcases hc with hc | hc | hc | hc
  · rcases hsign with rfl | rfl
    · cases hc
    · rw [List.mem_singleton.mp hc]
      simp [IsWordUnit]
  · exact hwhole.digits.unit c hc
  · rcases hfraction with rfl | ⟨digits, hdigits, rfl⟩
    · cases hc
    · rcases List.mem_cons.mp hc with rfl | hc
      · simp [IsWordUnit]
      · exact hdigits.unit c hc
  · rcases hexponent with rfl | ⟨e, sign, digits, he, hsign, hdigits, rfl⟩
    · cases hc
    · rcases List.mem_cons.mp hc with rfl | hc
      · rcases he with rfl | rfl <;> simp [IsWordUnit]
      · rcases List.mem_append.mp hc with hc | hc
        · rcases hsign with rfl | rfl | rfl
          · cases hc
          all_goals
            rw [List.mem_singleton.mp hc]
            simp [IsWordUnit]
        · exact hdigits.unit c hc

theorem IsNumber.ne_nil {w : List Nat} (h : IsNumber w) : w ≠ [] := by
  obtain ⟨sign, whole, fraction, exponent, -, hwhole, -, -, rfl⟩ := h
  simp [hwhole.digits.1]

theorem IsWord.unit {w : List Nat} (h : IsWord w) : ∀ c ∈ w, IsWordUnit c := by
  rcases h with h | h
  · intro c hc
    simp only [constants, List.mem_cons, List.not_mem_nil, or_false] at h
    simp only [IsWordUnit]
    rcases h with rfl | rfl | rfl | rfl | rfl | rfl <;> simp at hc <;> omega
  · exact h.unit

theorem IsWord.ne_nil {w : List Nat} (h : IsWord w) : w ≠ [] := by
  rcases h with h | h
  · simp only [constants, List.mem_cons, List.not_mem_nil, or_false] at h
    rcases h with rfl | rfl | rfl | rfl | rfl | rfl <;> exact List.cons_ne_nil _ _
  · exact h.ne_nil

/-! ## 2. Values -/

/-- What a piece of a text is to the value around it: a value, a value with the blanks around it,
a key with its value, and rows of the latter two with commas between them. -/
inductive Part
  | value
  | element
  | member
  | elements
  | members

/-- `Derives part w n d`: `w` is such a part, with `n` containers, scalar values and keys in it,
nested `d` deep. -/
inductive Derives : Part → List Nat → Nat → Nat → Prop
  | word {w : List Nat} (h : IsWord w) : Derives .value w 1 0
  | string {w : List Nat} (h : IsString w) : Derives .value w 1 0
  | emptyArray {b : List Nat} (h : IsBlank b) : Derives .value (91 :: (b ++ [93])) 1 1
  | array {w : List Nat} {n d : Nat} (h : Derives .elements w n d) :
      Derives .value (91 :: (w ++ [93])) (n + 1) (d + 1)
  | emptyObject {b : List Nat} (h : IsBlank b) : Derives .value (123 :: (b ++ [125])) 1 1
  | object {w : List Nat} {n d : Nat} (h : Derives .members w n d) :
      Derives .value (123 :: (w ++ [125])) (n + 1) (d + 1)
  | element {a v b : List Nat} {n d : Nat} (ha : IsBlank a) (h : Derives .value v n d)
      (hb : IsBlank b) : Derives .element (a ++ (v ++ b)) n d
  | member {a k b v : List Nat} {n d : Nat} (ha : IsBlank a) (hk : IsString k) (hb : IsBlank b)
      (h : Derives .element v n d) : Derives .member (a ++ (k ++ (b ++ 58 :: v))) (n + 1) d
  | lastElement {w : List Nat} {n d : Nat} (h : Derives .element w n d) : Derives .elements w n d
  | elements {v w : List Nat} {n m d e : Nat} (hv : Derives .element v n d)
      (hw : Derives .elements w m e) : Derives .elements (v ++ 44 :: w) (n + m) (max d e)
  | lastMember {w : List Nat} {n d : Nat} (h : Derives .member w n d) : Derives .members w n d
  | members {v w : List Nat} {n m d e : Nat} (hv : Derives .member v n d)
      (hw : Derives .members w m e) : Derives .members (v ++ 44 :: w) (n + m) (max d e)

/-- Every part has a node. -/
theorem Derives.pos {part : Part} {w : List Nat} {n d : Nat} (h : Derives part w n d) : 0 < n := by
  induction h <;> omega

/-- `w` is a text of the grammar: a value, blanks around it. -/
def IsJson (w : List Nat) (n d : Nat) : Prop := Derives .element w n d

/-! ## 3. Encodings -/

section

variable {spell : Nat → List Nat} (hascii : ∀ c < 128, spell c = [c])
  (hother : ∀ c, 128 ≤ c → ∀ b ∈ spell c, 128 ≤ b)

include hascii in
theorem flatMap_ascii {w : List Nat} (h : ∀ c ∈ w, c < 128) : w.flatMap spell = w := by
  induction w with
  | nil => rfl
  | cons c w ih =>
    rw [List.flatMap_cons, hascii c (h c (by simp)), ih fun x hx => h x (by simp [hx])]
    rfl

theorem IsBlank.ascii {w : List Nat} (h : IsBlank w) : ∀ c ∈ w, c < 128 := by
  intro c hc
  have := h c hc
  omega

theorem IsWord.ascii {w : List Nat} (h : IsWord w) : ∀ c ∈ w, c < 128 := by
  intro c hc
  have hunit := h.unit c hc
  simp only [IsWordUnit] at hunit
  omega

theorem IsBody.high {v w : List Nat} (h : IsBody w) (hv : ∀ b ∈ v, 128 ≤ b) : IsBody (v ++ w) := by
  induction v with
  | nil => exact h
  | cons b v ih =>
    have hb := hv b (by simp)
    exact .plain (by omega) (ih fun x hx => hv x (by simp [hx]))

include hascii hother in
theorem IsBody.spelled {w : List Nat} (h : IsBody w) : IsBody (w.flatMap spell) := by
  have hhex : ∀ c, IsHexDigit c → spell c = [c] := by
    intro c hc
    simp only [IsHexDigit] at hc
    exact hascii c (by omega)
  induction h with
  | nil => exact .nil
  | @plain c w hc _ ih =>
    rw [List.flatMap_cons]
    by_cases hlow : c < 128
    · rw [hascii c hlow]
      exact .plain hc ih
    · exact ih.high (hother c (by omega))
  | @escape c w hc _ ih =>
    have hlow : c < 128 := by
      simp only [escapables, List.mem_cons, List.not_mem_nil, or_false] at hc
      omega
    rw [List.flatMap_cons, List.flatMap_cons, hascii 92 (by omega), hascii c hlow]
    exact .escape hc ih
  | unicode hx hy hz hu _ ih =>
    simp only [List.flatMap_cons, hascii 92 (by omega), hascii 117 (by omega), hhex _ hx,
      hhex _ hy, hhex _ hz, hhex _ hu]
    exact .unicode hx hy hz hu ih

include hascii hother in
theorem IsString.spelled {w : List Nat} (h : IsString w) : IsString (w.flatMap spell) := by
  obtain ⟨body, hbody, rfl⟩ := h
  refine ⟨body.flatMap spell, hbody.spelled hascii hother, ?_⟩
  simp [hascii 34 (by omega)]

include hascii hother in
/-- The encoding of a text derives as the text does. -/
theorem Derives.spelled {part : Part} {w : List Nat} {n d : Nat} (h : Derives part w n d) :
    Derives part (w.flatMap spell) n d := by
  have hblank : ∀ w, IsBlank w → w.flatMap spell = w := fun w hw =>
    flatMap_ascii hascii hw.ascii
  induction h with
  | word h =>
    rw [flatMap_ascii hascii h.ascii]
    exact .word h
  | string h => exact .string (h.spelled hascii hother)
  | emptyArray h =>
    simp only [List.flatMap_cons, List.flatMap_append, List.flatMap_nil, hblank _ h,
      hascii 91 (by omega), hascii 93 (by omega), List.append_nil]
    exact .emptyArray h
  | array _ ih =>
    simp only [List.flatMap_cons, List.flatMap_append, List.flatMap_nil,
      hascii 91 (by omega), hascii 93 (by omega), List.append_nil]
    exact .array ih
  | emptyObject h =>
    simp only [List.flatMap_cons, List.flatMap_append, List.flatMap_nil, hblank _ h,
      hascii 123 (by omega), hascii 125 (by omega), List.append_nil]
    exact .emptyObject h
  | object _ ih =>
    simp only [List.flatMap_cons, List.flatMap_append, List.flatMap_nil,
      hascii 123 (by omega), hascii 125 (by omega), List.append_nil]
    exact .object ih
  | element ha _ hb ih =>
    simp only [List.flatMap_append, hblank _ ha, hblank _ hb]
    exact .element ha ih hb
  | member ha hk hb _ ih =>
    simp only [List.flatMap_append, List.flatMap_cons, hblank _ ha, hblank _ hb,
      hascii 58 (by omega)]
    exact .member ha (hk.spelled hascii hother) hb ih
  | lastElement _ ih => exact .lastElement ih
  | elements _ _ ihv ihw =>
    simp only [List.flatMap_append, List.flatMap_cons, hascii 44 (by omega)]
    exact .elements ihv ihw
  | lastMember _ ih => exact .lastMember ih
  | members _ _ ihv ihw =>
    simp only [List.flatMap_append, List.flatMap_cons, hascii 44 (by omega)]
    exact .members ihv ihw

end

/-! ## 4. UTF-8 -/

/-- The octets of a code point, as numbers. -/
def octetsOf (v : Nat) : List Nat := ((utf8EncodePoint v).getD []).map UInt8.toNat

theorem octetsOf_ascii {c : Nat} (h : c < 128) : octetsOf c = [c] := by
  rw [octetsOf, utf8EncodePoint, if_pos (by omega)]
  simp only [Option.getD_some, List.map_cons, List.map_nil, List.cons.injEq, and_true]
  exact toNat_toUInt8 (by omega)

theorem octetsOf_other {c : Nat} (h : 128 ≤ c) : ∀ b ∈ octetsOf c, 128 ≤ b := by
  have hhigh : ∀ m, 128 ≤ m → m < 256 → 128 ≤ m.toUInt8.toNat := by
    intro m hm hbyte
    rw [toNat_toUInt8 hbyte]
    exact hm
  have hfollow : ∀ m, 128 ≤ (m % 0x40 + 0x80).toUInt8.toNat := fun m =>
    hhigh _ (by omega) (by omega)
  intro b hb
  rw [octetsOf, utf8EncodePoint, if_neg (by omega)] at hb
  split at hb
  · simp only [Option.getD_some, List.map_cons, List.map_nil, List.mem_cons, List.not_mem_nil,
      or_false] at hb
    rcases hb with rfl | rfl
    · exact hhigh _ (by omega) (by omega)
    · exact hfollow _
  · split at hb
    · cases hb
    · split at hb
      · simp only [Option.getD_some, List.map_cons, List.map_nil, List.mem_cons,
          List.not_mem_nil, or_false] at hb
        rcases hb with rfl | rfl | rfl
        · exact hhigh _ (by omega) (by omega)
        · exact hfollow _
        · exact hfollow _
      · simp only [Option.getD_some, List.map_cons, List.map_nil, List.mem_cons,
          List.not_mem_nil, or_false] at hb
        rcases hb with rfl | rfl | rfl | rfl
        · exact hhigh _ (by omega) (by omega)
        all_goals exact hfollow _

/-- **The octets of a text of the grammar are one too**, with the same counts. -/
theorem IsJson.octets {text : PyStr} {n d : Nat} (h : IsJson text.codePoints n d)
    {octets : Bytes} (hoctets : text.utf8Encode = some octets) :
    IsJson (octets.map UInt8.toNat) n d := by
  have hflat : octets.map UInt8.toNat = text.codePoints.flatMap octetsOf := by
    rw [← (PyStr.utf8Encode_eq_some.mp hoctets).2, PyStr.octets, List.map_flatMap]
    rfl
  rw [hflat]
  exact Derives.spelled (fun _ => octetsOf_ascii) (fun _ => octetsOf_other) h

end Supplementary.Json
