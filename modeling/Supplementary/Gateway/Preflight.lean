/-
# The allocation guard in front of the JSON parser

`single_review_resources.preflight_json`: it counts the containers, scalar values and keys of a
payload and the nesting of its containers before anything is parsed.  `token` is one turn of its
loop, on the octets of the payload as numbers; a turn that leaves the index where it was has
counted a node, and that makes the loop end on every payload (`preflight_ends`).

On a text of the grammar the turns follow the parts of the text.  `Weighs` says what they do with
one part: the scan passes it with its nodes counted if they and its nesting fit, and raises if
they do not; every constructor of `Derives` is one lemma about it.
-/
import Supplementary.Python.JsonGrammar

namespace Supplementary.Preflight

open Supplementary Json

/-! ## 1. The scan -/

/-- The variables of the loop. -/
structure Scan where
  index : Nat
  nodes : Int
  depth : Int
  deriving DecidableEq, Repr

/-- `payload.find(b'"', index)`. -/
def findQuote (payload : List Nat) (index : Nat) : Option Nat :=
  ((payload.drop index).findIdx? (· == 34)).map (index + ·)

/-- `end - slash - 1` where the loop over `slash` stops: the backslashes right before `end`. -/
def backslashes (payload : List Nat) : (stop : Nat) → Nat
  | 0 => 0
  | stop + 1 => if payload[stop]? = some 92 then backslashes payload stop + 1 else 0

theorem findQuote_eq_some {payload : List Nat} {index stop : Nat}
    (h : findQuote payload index = some stop) : index ≤ stop ∧ stop < payload.length := by
  obtain ⟨i, hi, rfl⟩ := Option.map_eq_some_iff.mp h
  have hlt := (List.findIdx?_eq_some_iff_getElem.mp hi).1
  rw [List.length_drop] at hlt
  omega

/-- The `while True` loop of a string: the index after its closing quote; `none` when there is
none. -/
def closeString (payload : List Nat) (index : Nat) : Option Nat :=
  match h : findQuote payload index with
  | none => none
  | some stop =>
    if backslashes payload stop % 2 = 0 then some (stop + 1) else closeString payload (stop + 1)
termination_by payload.length - index
decreasing_by
  have := findQuote_eq_some h
  omega

/-- `rb"[\s,\]\x7d:]"`. -/
def delimiters : List Nat := [32, 9, 10, 11, 12, 13, 44, 93, 125, 58]

/-- `end.start() if end else length` of the search for a delimiter. -/
def scalarEnd (payload : List Nat) (index : Nat) : Nat :=
  index + (payload.drop index).findIdx fun c => decide (c ∈ delimiters)

/-- One turn of the loop, at the octet `char`. -/
def token (payload : List Nat) (nodeLimit depthLimit : Int) (char : Nat) (s : Scan) : Py Scan :=
  if char ∈ [32, 9, 10, 13, 44, 58] then .ok { s with index := s.index + 1 }
  else if char ∈ [125, 93] then
    if s.depth - 1 < 0 then .error (.valueError "single-json-depth")
    else .ok { s with depth := s.depth - 1, index := s.index + 1 }
  else if nodeLimit < s.nodes + 1 then .error (.valueError "single-json-node-budget")
  else if char ∈ [123, 91] then
    if depthLimit < s.depth + 1 then .error (.valueError "single-json-depth")
    else .ok { index := s.index + 1, nodes := s.nodes + 1, depth := s.depth + 1 }
  else if char = 34 then
    match closeString payload (s.index + 1) with
    | none => .error (.valueError "single-json-string")
    | some index => .ok { s with index := index, nodes := s.nodes + 1 }
  else .ok { s with index := scalarEnd payload s.index, nodes := s.nodes + 1 }

theorem closeString_le {payload : List Nat} {index stop : Nat}
    (h : closeString payload index = some stop) : index < stop ∧ stop ≤ payload.length := by
  fun_induction closeString payload index with
  | case1 => cases h
  | case2 index e he =>
    cases h
    have := findQuote_eq_some he
    omega
  | case3 index e he _ ih =>
    have := findQuote_eq_some he
    have := ih h
    omega

theorem scalarEnd_le {payload : List Nat} {index : Nat} (h : index ≤ payload.length) :
    index ≤ scalarEnd payload index ∧ scalarEnd payload index ≤ payload.length := by
  have hle : (payload.drop index).findIdx (fun c => decide (c ∈ delimiters)) ≤
      (payload.drop index).length := List.findIdx_le_length
  rw [List.length_drop] at hle
  rw [scalarEnd]
  omega

/-- What a turn that does not raise can do: move on, or stay and count one more node that fits. -/
theorem token_moves {payload : List Nat} {nodeLimit depthLimit : Int} {char : Nat} {s s' : Scan}
    (hs : s.index < payload.length)
    (h : token payload nodeLimit depthLimit char s = .ok s') :
    (s.index < s'.index ∧ s'.index ≤ payload.length ∧ s.nodes ≤ s'.nodes) ∨
      s'.index = s.index ∧ s'.nodes = s.nodes + 1 ∧ s.nodes < nodeLimit := by
  have hend := scalarEnd_le hs.le
  have hnext : s.index < s.index + 1 ∧ s.index + 1 ≤ payload.length := by omega
  have hcount : s.nodes ≤ s.nodes + 1 := by omega
  simp only [token] at h
  split at h
  · cases h
    exact .inl ⟨hnext.1, hnext.2, le_refl _⟩
  · split at h
    · split at h
      · cases h
      · cases h
        exact .inl ⟨hnext.1, hnext.2, le_refl _⟩
    · split at h
      · cases h
      · rename_i hroom
        split at h
        · split at h
          · cases h
          · cases h
            exact .inl ⟨hnext.1, hnext.2, hcount⟩
        · split at h
          · split at h
            · cases h
            · rename_i index hclose
              cases h
              have := closeString_le hclose
              exact .inl ⟨by simp only; omega, this.2, hcount⟩
          · cases h
            rcases eq_or_lt_of_le hend.1 with hstay | hmove
            · exact .inr ⟨hstay.symm, rfl, by omega⟩
            · exact .inl ⟨hmove, hend.2, hcount⟩

/-- The loop. -/
def scan (payload : List Nat) (nodeLimit depthLimit : Int) (s : Scan) : Py Scan :=
  if hs : s.index < payload.length then
    match h : token payload nodeLimit depthLimit payload[s.index] s with
    | .error e => .error e
    | .ok s' => scan payload nodeLimit depthLimit s'
  else .ok s
termination_by (payload.length - s.index, (nodeLimit - s.nodes).toNat)
decreasing_by
  rcases token_moves hs h with hmove | hstay
  · exact .left _ _ (by omega)
  · rw [hstay.1]
    exact .right _ (by omega)

/-- What a caller may hand over. -/
inductive Argument
  | str (text : PyStr)
  | bytes (payload : Bytes)
  | int (value : Int)
  /-- A value of any other type, a `bool` included. -/
  | other

/-- The loop and the check after it. -/
def guard (payload : Bytes) (nodeLimit depthLimit : Int) : Py Unit := do
  let s ← scan (payload.map UInt8.toNat) nodeLimit depthLimit ⟨0, 0, 0⟩
  if s.depth ≠ 0 then .error (.valueError "single-json-depth") else .ok ()

/-- `preflight_json(payload, node_limit, depth_limit)`. -/
def preflightJson (payload nodeLimit depthLimit : Argument) : Py Unit := do
  let payload ← match payload with
    | .str text =>
      match text.utf8Encode with
      | some octets => .ok (Argument.bytes octets)
      | none => .error .unicodeError
    | payload => .ok payload
  match payload, nodeLimit, depthLimit with
  | .bytes octets, .int nodeLimit, .int depthLimit => guard octets nodeLimit depthLimit
  | _, _, _ => .error (.valueError "single-json-resource-shape")

/-! ## 2. Every payload -/

section

variable {payload : List Nat} {nodeLimit depthLimit : Int}

/-- `Turns s moving standing result`: from `s` the loop makes `moving` turns that advance the
index and `standing` turns that do not, the one that raises among the latter, and ends with
`result`. -/
inductive Turns (payload : List Nat) (nodeLimit depthLimit : Int) :
    Scan → Nat → Nat → Py Scan → Prop
  | done {s : Scan} (h : ¬ s.index < payload.length) : Turns payload nodeLimit depthLimit s 0 0 (.ok s)
  | raises {s : Scan} {e : PyError} (hs : s.index < payload.length)
      (h : token payload nodeLimit depthLimit payload[s.index] s = .error e) :
      Turns payload nodeLimit depthLimit s 0 1 (.error e)
  | moves {s s' : Scan} {a b : Nat} {r : Py Scan} (hs : s.index < payload.length)
      (h : token payload nodeLimit depthLimit payload[s.index] s = .ok s')
      (hmove : s.index < s'.index) (hrest : Turns payload nodeLimit depthLimit s' a b r) :
      Turns payload nodeLimit depthLimit s (a + 1) b r
  | stands {s s' : Scan} {a b : Nat} {r : Py Scan} (hs : s.index < payload.length)
      (h : token payload nodeLimit depthLimit payload[s.index] s = .ok s')
      (hstand : s'.index = s.index) (hrest : Turns payload nodeLimit depthLimit s' a b r) :
      Turns payload nodeLimit depthLimit s a (b + 1) r

theorem exists_turns (s : Scan) (hs : s.index ≤ payload.length) :
    ∃ a b, Turns payload nodeLimit depthLimit s a b (scan payload nodeLimit depthLimit s) ∧
      a ≤ payload.length - s.index ∧ b ≤ (nodeLimit - s.nodes).toNat + 1 := by
  fun_induction scan payload nodeLimit depthLimit s with
  | case1 s hlt e he => exact ⟨0, 1, .raises hlt he, by omega, by omega⟩
  | case2 s hlt s' hs' ih =>
    rcases token_moves hlt hs' with ⟨hmove, hle, hnodes⟩ | ⟨hstand, hnodes, hroom⟩
    · obtain ⟨a, b, hturns, ha, hb⟩ := ih hle
      exact ⟨a + 1, b, .moves hlt hs' hmove hturns, by omega, by omega⟩
    · obtain ⟨a, b, hturns, ha, hb⟩ := ih (by omega)
      exact ⟨a, b + 1, .stands hlt hs' hstand hturns, by omega, by omega⟩
  | case3 s hlt => exact ⟨0, 0, .done hlt, by omega, by omega⟩

end

/-! ## 3. The turns over a text of the grammar -/

section

variable {payload pre rest : List Nat} {nodeLimit depthLimit : Int} {s s' : Scan} {c : Nat}

theorem scan_of_ok (hpayload : payload = pre ++ c :: rest) (hs : s.index = pre.length)
    (h : token payload nodeLimit depthLimit c s = .ok s') :
    scan payload nodeLimit depthLimit s = scan payload nodeLimit depthLimit s' := by
  have hlt : s.index < payload.length := by
    rw [hpayload, hs]
    simp
  have hc : payload[s.index] = c := by simp [hpayload, hs]
  rw [← hc] at h
  rw [scan, dif_pos hlt]
  split
  · rename_i e he
    rw [h] at he
    cases he
  · rename_i s'' hs''
    rw [h] at hs''
    cases hs''
    rfl

theorem scan_of_error {e : PyError} (hpayload : payload = pre ++ c :: rest)
    (hs : s.index = pre.length) (h : token payload nodeLimit depthLimit c s = .error e) :
    scan payload nodeLimit depthLimit s = .error e := by
  have hlt : s.index < payload.length := by
    rw [hpayload, hs]
    simp
  have hc : payload[s.index] = c := by simp [hpayload, hs]
  rw [← hc] at h
  rw [scan, dif_pos hlt]
  split
  · rename_i e' he
    rw [h] at he
    exact he.symm
  · rename_i s'' hs''
    rw [h] at hs''
    cases hs''

end

/-- What follows a constant or a number: the end of the payload or a delimiter. -/
def Delimited (post : List Nat) : Prop := ∀ c ∈ post.head?, c ∈ delimiters

/-- `n` more nodes and `d` more nested containers are within the limits. -/
def Fits (nodeLimit depthLimit : Int) (s : Scan) (n d : Nat) : Prop :=
  (n = 0 ∨ s.nodes + n ≤ nodeLimit) ∧ (d = 0 ∨ s.depth + d ≤ depthLimit)

/-- The scan after a part `w` with `n` nodes. -/
def Scan.past (s : Scan) (w : List Nat) (n : Nat) : Scan :=
  { s with index := s.index + w.length, nodes := s.nodes + n }

/-- Wherever `w` stands, with what `P` allows after it, the scan passes it and counts `n` nodes
if these and `d` nested containers fit, and raises if not. -/
def Weighs (P : List Nat → Prop) (w : List Nat) (n d : Nat) : Prop :=
  ∀ (nodeLimit depthLimit : Int) (pre post : List Nat) (s : Scan), P post →
    s.index = pre.length → 0 ≤ s.depth →
    (Fits nodeLimit depthLimit s n d → scan (pre ++ (w ++ post)) nodeLimit depthLimit s =
      scan (pre ++ (w ++ post)) nodeLimit depthLimit (s.past w n)) ∧
    (¬ Fits nodeLimit depthLimit s n d →
      ∃ e, scan (pre ++ (w ++ post)) nodeLimit depthLimit s = .error e)

section

variable {P Q : List Nat → Prop} {v w : List Nat} {n m d e : Nat}

theorem Scan.past_append (s : Scan) (v w : List Nat) (n m : Nat) :
    s.past (v ++ w) (n + m) = (s.past v n).past w m := by
  simp [Scan.past, Nat.add_assoc, Int.add_assoc]

theorem fits_append {nodeLimit depthLimit : Int} {s : Scan} :
    Fits nodeLimit depthLimit s (n + m) (max d e) ↔
      Fits nodeLimit depthLimit s n d ∧ Fits nodeLimit depthLimit (s.past v n) m e := by
  simp only [Fits, Scan.past]
  omega

theorem Weighs.weaken (h : Weighs P w n d) (hPQ : ∀ post, Q post → P post) : Weighs Q w n d :=
  fun nodeLimit depthLimit pre post s hpost => h nodeLimit depthLimit pre post s (hPQ post hpost)

theorem Weighs.append (hv : Weighs P v n d) (hw : Weighs Q w m e)
    (hP : ∀ post, Q post → P (w ++ post)) : Weighs Q (v ++ w) (n + m) (max d e) := by
  intro nodeLimit depthLimit pre post s hpost hs hdepth
  have hfirst := hv nodeLimit depthLimit pre (w ++ post) s (hP post hpost) hs hdepth
  have hsecond := hw nodeLimit depthLimit (pre ++ v) post (s.past v n) hpost
    (by simp [Scan.past, hs]) hdepth
  rw [List.append_assoc] at hsecond ⊢
  rw [Scan.past_append, fits_append (v := v)]
  constructor
  · rintro ⟨hn, hm⟩
    rw [hfirst.1 hn, hsecond.1 hm]
  · intro hnot
    by_cases hn : Fits nodeLimit depthLimit s n d
    · obtain ⟨e', he'⟩ := hsecond.2 fun hm => hnot ⟨hn, hm⟩
      exact ⟨e', (hfirst.1 hn).trans he'⟩
    · exact hfirst.2 hn

theorem weighs_nil : Weighs P [] 0 0 := by
  intro nodeLimit depthLimit pre post s _ _ _
  constructor
  · intro _
    simp [Scan.past]
  · intro hnot
    exact absurd ⟨.inl rfl, .inl rfl⟩ hnot

/-- Blanks, commas and colons are passed. -/
theorem weighs_separators (h : ∀ c ∈ w, c ∈ [32, 9, 10, 13, 44, 58]) : Weighs P w 0 0 := by
  induction w with
  | nil => exact weighs_nil
  | cons c w ih =>
    have hone : Weighs (fun _ => True) [c] 0 0 := by
      intro nodeLimit depthLimit pre post s _ hs _
      constructor
      · intro _
        refine scan_of_ok rfl hs ?_
        rw [token, if_pos (h c (by simp))]
        simp [Scan.past]
      · intro hnot
        exact absurd ⟨.inl rfl, .inl rfl⟩ hnot
    have hrest := ih fun x hx => h x (by simp [hx])
    exact hone.append hrest fun _ _ => trivial

theorem weighs_blank (h : IsBlank w) : Weighs P w 0 0 := by
  refine weighs_separators fun c hc => ?_
  rcases h c hc with rfl | rfl | rfl | rfl <;> simp

theorem Delimited.blank (hw : IsBlank w) {post : List Nat} (hpost : Delimited post) :
    Delimited (w ++ post) := by
  cases w with
  | nil => exact hpost
  | cons c w =>
    intro x hx
    obtain rfl : c = x := by simpa using hx
    rcases hw c (by simp) with rfl | rfl | rfl | rfl <;> simp [delimiters]

/-- The parts of a container, one level further down. -/
theorem Weighs.container {left right : Nat} (hleft : left ∈ [123, 91]) (hright : right ∈ [125, 93])
    (h : Weighs Delimited w n d) : Weighs P (left :: (w ++ [right])) (n + 1) (d + 1) := by
  intro nodeLimit depthLimit pre post s _ hs hdepth
  have hclosing : Delimited (right :: post) := by
    intro x hx
    obtain rfl : right = x := by simpa using hx
    simp only [List.mem_cons, List.not_mem_nil, or_false] at hright
    rcases hright with rfl | rfl <;> simp [delimiters]
  have hopens : left ∉ [32, 9, 10, 13, 44, 58] ∧ left ∉ [125, 93] := by
    simp only [List.mem_cons, List.not_mem_nil, or_false] at hleft ⊢
    omega
  have hcloses : right ∉ [32, 9, 10, 13, 44, 58] := by
    simp only [List.mem_cons, List.not_mem_nil, or_false] at hright ⊢
    omega
  have hinner := h nodeLimit depthLimit (pre ++ [left]) (right :: post)
    ⟨s.index + 1, s.nodes + 1, s.depth + 1⟩ hclosing (by simp [hs]) (by simp only; omega)
  have hpayload : pre ++ (left :: (w ++ [right]) ++ post) =
      pre ++ [left] ++ (w ++ right :: post) := by simp
  rw [hpayload]
  have hleftAt : pre ++ [left] ++ (w ++ right :: post) = pre ++ left :: (w ++ right :: post) := by
    simp
  have hrightAt : pre ++ [left] ++ (w ++ right :: post) =
      (pre ++ left :: w) ++ right :: post := by simp
  generalize pre ++ [left] ++ (w ++ right :: post) = payload at *
  by_cases hnode : nodeLimit < s.nodes + 1
  · have herror : scan payload nodeLimit depthLimit s =
        .error (.valueError "single-json-node-budget") := by
      refine scan_of_error hleftAt hs ?_
      rw [token, if_neg hopens.1, if_neg hopens.2, if_pos hnode]
    constructor
    · rintro ⟨hn, -⟩
      omega
    · intro _
      exact ⟨_, herror⟩
  · by_cases hroom : depthLimit < s.depth + 1
    · have herror : scan payload nodeLimit depthLimit s =
          .error (.valueError "single-json-depth") := by
        refine scan_of_error hleftAt hs ?_
        rw [token, if_neg hopens.1, if_neg hopens.2, if_neg hnode, if_pos hleft, if_pos hroom]
      constructor
      · rintro ⟨-, hd⟩
        omega
      · intro _
        exact ⟨_, herror⟩
    · have hopen : scan payload nodeLimit depthLimit s =
          scan payload nodeLimit depthLimit ⟨s.index + 1, s.nodes + 1, s.depth + 1⟩ := by
        refine scan_of_ok hleftAt hs ?_
        rw [token, if_neg hopens.1, if_neg hopens.2, if_neg hnode, if_pos hleft, if_neg hroom]
      have hfits : Fits nodeLimit depthLimit s (n + 1) (d + 1) ↔
          Fits nodeLimit depthLimit ⟨s.index + 1, s.nodes + 1, s.depth + 1⟩ n d := by
        simp only [Fits]
        omega
      rw [hopen, hfits]
      constructor
      · intro hfit
        rw [hinner.1 hfit]
        refine scan_of_ok hrightAt (by simp [Scan.past, hs]; omega) ?_
        rw [token, if_neg hcloses, if_pos hright, if_neg (by simp only [Scan.past]; omega)]
        simp only [Scan.past, List.length_cons, List.length_append, List.length_nil]
        congr 1
        simp only [Scan.mk.injEq]
        omega
      · exact hinner.2

theorem findIdx_scalar {post : List Nat} (hw : ∀ c ∈ w, IsWordUnit c) (hpost : Delimited post) :
    (w ++ post).findIdx (fun c => decide (c ∈ delimiters)) = w.length := by
  induction w with
  | nil =>
    cases post with
    | nil => rfl
    | cons c post => simp [List.findIdx_cons, hpost c (by simp)]
  | cons c w ih =>
    have hc : c ∉ delimiters := by
      have := hw c (by simp)
      simp only [IsWordUnit] at this
      simp only [delimiters, List.mem_cons, List.not_mem_nil, or_false]
      omega
    rw [List.cons_append, List.findIdx_cons, decide_eq_false hc,
      ih fun x hx => hw x (by simp [hx])]
    simp

/-- A comma between two parts. -/
theorem Weighs.row (hv : Weighs Delimited v n d) (hw : Weighs Delimited w m e) :
    Weighs Delimited (v ++ 44 :: w) (n + m) (max d e) := by
  have hcomma : Weighs (fun _ => True) [44] 0 0 := weighs_separators (by simp)
  have hrest := hcomma.append hw fun _ _ => trivial
  have hall := hv.append hrest fun post _ c hc => by
    obtain rfl : 44 = c := by simpa using hc
    simp [delimiters]
  simpa using hall

/-- A token that is one node and no container. -/
theorem weighs_leaf {c : Nat}
    (htoken : ∀ (nodeLimit depthLimit : Int) (pre post : List Nat) (s : Scan), P post →
      s.index = pre.length → s.nodes + 1 ≤ nodeLimit →
      token (pre ++ c :: (w ++ post)) nodeLimit depthLimit c s = .ok (s.past (c :: w) 1))
    (hfull : ∀ (payload : List Nat) (nodeLimit depthLimit : Int) (s : Scan),
      nodeLimit < s.nodes + 1 →
      token payload nodeLimit depthLimit c s = .error (.valueError "single-json-node-budget")) :
    Weighs P (c :: w) 1 0 := by
  intro nodeLimit depthLimit pre post s hpost hs _
  by_cases hroom : s.nodes + 1 ≤ nodeLimit
  · constructor
    · intro _
      exact scan_of_ok rfl hs
        (htoken nodeLimit depthLimit pre post s hpost hs hroom)
    · intro hnot
      exact absurd ⟨.inr hroom, .inl rfl⟩ hnot
  · constructor
    · rintro ⟨hn, -⟩
      omega
    · intro _
      exact ⟨_, scan_of_error rfl hs (hfull _ _ _ _ (by omega))⟩

theorem weighs_scalar (h : IsWord w) : Weighs Delimited w 1 0 := by
  obtain ⟨c, w, rfl⟩ := List.exists_cons_of_ne_nil h.ne_nil
  have hunit := h.unit c (by simp)
  simp only [IsWordUnit] at hunit
  have hseparator : c ∉ [32, 9, 10, 13, 44, 58] := by
    simp only [List.mem_cons, List.not_mem_nil, or_false]
    omega
  have hcloses : c ∉ [125, 93] := by
    simp only [List.mem_cons, List.not_mem_nil, or_false]
    omega
  have hopens : c ∉ [123, 91] := by
    simp only [List.mem_cons, List.not_mem_nil, or_false]
    omega
  refine weighs_leaf ?_ ?_
  · intro nodeLimit depthLimit pre post s hpost hs hroom
    rw [token, if_neg hseparator, if_neg hcloses, if_neg (by omega), if_neg hopens,
      if_neg (by omega), scalarEnd, hs, List.drop_left, ← List.cons_append,
      findIdx_scalar h.unit hpost]
    simp [Scan.past, hs]
  · intro payload nodeLimit depthLimit s hfull
    rw [token, if_neg hseparator, if_neg hcloses, if_pos hfull]

end

/-! ## 4. Strings -/

section

variable {payload : List Nat} {index c : Nat}

theorem findQuote_here (h : payload[index]? = some 34) : findQuote payload index = some index := by
  obtain ⟨hlt, hc⟩ := List.getElem?_eq_some_iff.mp h
  rw [findQuote, List.drop_eq_getElem_cons hlt, hc, List.findIdx?_cons]
  simp

theorem findQuote_skip (h : payload[index]? = some c) (hc : c ≠ 34) :
    findQuote payload index = findQuote payload (index + 1) := by
  obtain ⟨hlt, hget⟩ := List.getElem?_eq_some_iff.mp h
  rw [findQuote, findQuote, List.drop_eq_getElem_cons hlt, hget, List.findIdx?_cons,
    if_neg (by simpa using hc), Option.map_map]
  congr 1
  funext i
  simp only [Function.comp_apply]
  omega

theorem closeString_eq (payload : List Nat) (index : Nat) :
    closeString payload index = match findQuote payload index with
      | none => none
      | some stop =>
        if backslashes payload stop % 2 = 0 then some (stop + 1)
        else closeString payload (stop + 1) := by
  rw [closeString]
  split <;> rename_i hfound <;> rw [hfound]

theorem closeString_skip (h : payload[index]? = some c) (hc : c ≠ 34) :
    closeString payload index = closeString payload (index + 1) := by
  rw [closeString_eq, closeString_eq payload (index + 1), findQuote_skip h hc]

theorem backslashes_zero (h : payload[index]? = some c) (hc : c ≠ 92) :
    backslashes payload (index + 1) = 0 := by
  rw [backslashes, h, if_neg]
  simpa using hc

theorem backslashes_succ (h : payload[index]? = some 92) :
    backslashes payload (index + 1) = backslashes payload index + 1 := by
  rw [backslashes, if_pos h]

/-- The search started after the opening quote stops right after the closing one, the
backslashes before the start being even in number. -/
theorem closeString_body {body : List Nat} (h : IsBody body) (pre post : List Nat)
    (hpayload : payload = pre ++ (body ++ 34 :: post))
    (heven : backslashes payload pre.length % 2 = 0) :
    closeString payload pre.length = some (pre.length + body.length + 1) := by
  induction h generalizing pre with
  | nil =>
    have hquote : payload[pre.length]? = some 34 := by simp [hpayload]
    rw [closeString_eq, findQuote_here hquote]
    simp [heven]
  | @plain c w hc _ ih =>
    have hget : payload[pre.length]? = some c := by simp [hpayload]
    have hrest := ih (pre ++ [c]) (by simp [hpayload])
      (by rw [List.length_append, List.length_singleton, backslashes_zero hget hc.2.2])
    rw [closeString_skip hget hc.2.1]
    simp only [List.length_append, List.length_singleton] at hrest
    rw [hrest, List.length_cons]
    congr 1
    omega
  | @escape c w hc _ ih =>
    have hslash : payload[pre.length]? = some 92 := by simp [hpayload]
    have hget : payload[pre.length + 1]? = some c := by
      rw [hpayload, List.getElem?_append_right (by omega)]
      simp
    have hparity : backslashes payload (pre.length + 1 + 1) % 2 = 0 := by
      by_cases hsame : c = 92
      · subst hsame
        rw [backslashes_succ hget, backslashes_succ hslash]
        omega
      · rw [backslashes_zero hget hsame]
    have hrest := ih (pre ++ [92, c]) (by simp [hpayload]) (by simpa using hparity)
    have hjump : closeString payload (pre.length + 1) = closeString payload (pre.length + 1 + 1) := by
      by_cases hquote : c = 34
      · subst hquote
        -- the escaped quote is found, and an odd number of backslashes stands before it
        rw [closeString_eq, findQuote_here hget]
        simp only
        rw [if_neg]
        rw [backslashes_succ hslash]
        omega
      · exact closeString_skip hget hquote
    rw [closeString_skip hslash (by omega), hjump]
    simp only [List.length_append, List.length_cons, List.length_nil] at hrest
    rw [hrest]
    simp only [List.length_cons]
    congr 1
    omega
  | @unicode w x y z u hx hy hz hu _ ih =>
    have hunit : ∀ c, IsHexDigit c → c ≠ 34 ∧ c ≠ 92 := by
      intro c hc
      simp only [IsHexDigit] at hc
      omega
    have hget : ∀ i, payload[pre.length + i]? =
        (92 :: 117 :: x :: y :: z :: u :: (w ++ 34 :: post))[i]? := by
      intro i
      rw [hpayload, List.getElem?_append_right (by omega)]
      simp
    have hrest := ih (pre ++ [92, 117, x, y, z, u]) (by simp [hpayload])
      (by
        rw [List.length_append]
        exact congrArg (· % 2) (backslashes_zero (hget 5) (hunit u hu).2))
    have hslash : payload[pre.length]? = some 92 := hget 0
    rw [closeString_skip hslash (by omega), closeString_skip (hget 1) (by omega),
      closeString_skip (hget 2) (hunit x hx).1, closeString_skip (hget 3) (hunit y hy).1,
      closeString_skip (hget 4) (hunit z hz).1, closeString_skip (hget 5) (hunit u hu).1]
    simp only [List.length_append, List.length_cons, List.length_nil] at hrest
    rw [hrest]
    simp only [List.length_cons]
    congr 1
    omega

theorem weighs_string {P : List Nat → Prop} {w : List Nat} (h : IsString w) : Weighs P w 1 0 := by
  obtain ⟨body, hbody, rfl⟩ := h
  refine weighs_leaf ?_ ?_
  · intro nodeLimit depthLimit pre post s _ hs hroom
    have hpayload : pre ++ 34 :: (body ++ [34] ++ post) =
        (pre ++ [34]) ++ (body ++ 34 :: post) := by simp
    have hquote : (pre ++ 34 :: (body ++ [34] ++ post))[pre.length]? = some 34 := by simp
    have hclose := closeString_body hbody (pre ++ [34]) post hpayload
      (by rw [List.length_append, List.length_singleton, backslashes_zero hquote (by omega)])
    rw [List.length_append, List.length_singleton] at hclose
    rw [token, if_neg (by simp), if_neg (by simp), if_neg (by omega), if_neg (by simp),
      if_pos rfl, hs, hclose]
    simp only [Scan.past, List.length_cons, List.length_append, List.length_nil]
    congr 1
    simp only [Scan.mk.injEq]
    exact ⟨by omega, rfl, trivial⟩
  · intro payload nodeLimit depthLimit s hfull
    rw [token, if_neg (by simp), if_neg (by simp), if_pos hfull]

end

/-! ## 5. The grammar -/

/-- **The scan follows the grammar**: every part counts for what it derives with. -/
theorem weighs_of_derives {part : Part} {w : List Nat} {n d : Nat} (h : Derives part w n d) :
    Weighs Delimited w n d := by
  induction h with
  | word h => exact weighs_scalar h
  | string h => exact weighs_string h
  | emptyArray h => exact (weighs_blank h).container (by simp) (by simp)
  | array _ ih => exact ih.container (by simp) (by simp)
  | emptyObject h => exact (weighs_blank h).container (by simp) (by simp)
  | object _ ih => exact ih.container (by simp) (by simp)
  | element ha _ hb ih =>
    have hvalue := ih.append (weighs_blank hb) fun _ => Delimited.blank hb
    have hall := (weighs_blank (P := fun _ => True) ha).append hvalue fun _ _ => trivial
    simpa using hall
  | @member a k b v n d ha hk hb _ ih =>
    have hcolon : Weighs (fun _ => True) [58] 0 0 := weighs_separators (by simp)
    have hvalue := hcolon.append ih fun _ _ => trivial
    have hblank := (weighs_blank (P := fun _ => True) hb).append hvalue fun _ _ => trivial
    have hkey := (weighs_string (P := fun _ => True) hk).append hblank fun _ _ => trivial
    have hall := (weighs_blank (P := fun _ => True) ha).append hkey fun _ _ => trivial
    have hcount : 0 + (1 + (0 + (0 + n))) = n + 1 := by omega
    rw [hcount] at hall
    simpa using hall
  | lastElement _ ih => exact ih
  | lastMember _ ih => exact ih
  | elements _ _ ihv ihw => exact Weighs.row ihv ihw
  | members _ _ ihv ihw => exact Weighs.row ihv ihw

/-! ## 6. The guard -/

theorem guard_turns (octets : Bytes) (nodeLimit depthLimit : Int) :
    ∃ a b result, Turns (octets.map UInt8.toNat) nodeLimit depthLimit ⟨0, 0, 0⟩ a b result ∧
      a ≤ octets.length ∧ b ≤ nodeLimit.toNat + 1 ∧
      guard octets nodeLimit depthLimit = result.bind fun s =>
        if s.depth ≠ 0 then .error (.valueError "single-json-depth") else .ok () := by
  obtain ⟨a, b, hturns, ha, hb⟩ := @exists_turns (octets.map UInt8.toNat) nodeLimit depthLimit
    ⟨0, 0, 0⟩ (Nat.zero_le _)
  refine ⟨a, b, _, hturns, ?_, ?_, rfl⟩
  · simpa using ha
  · simpa using hb

theorem guard_eq_ok {octets : Bytes} {n d : Nat} (h : IsJson (octets.map UInt8.toNat) n d)
    (nodeLimit depthLimit : Int) :
    guard octets nodeLimit depthLimit = .ok () ↔ n ≤ nodeLimit ∧ (d = 0 ∨ d ≤ depthLimit) := by
  have hpos := Derives.pos h
  have hscan := weighs_of_derives h nodeLimit depthLimit [] [] ⟨0, 0, 0⟩ (by simp [Delimited]) rfl
    (le_refl _)
  have hfits : Fits nodeLimit depthLimit ⟨0, 0, 0⟩ n d ↔
      n ≤ nodeLimit ∧ (d = 0 ∨ d ≤ depthLimit) := by
    simp only [Fits]
    omega
  rw [List.append_nil, List.nil_append, hfits] at hscan
  by_cases hfit : n ≤ nodeLimit ∧ (d = 0 ∨ d ≤ depthLimit)
  · have hend : scan (octets.map UInt8.toNat) nodeLimit depthLimit ⟨0, 0, 0⟩ =
        .ok ⟨octets.length, n, 0⟩ := by
      rw [hscan.1 hfit, scan, dif_neg (by simp [Scan.past])]
      simp [Scan.past]
    rw [guard, hend]
    exact ⟨fun _ => hfit, fun _ => rfl⟩
  · obtain ⟨e, he⟩ := hscan.2 hfit
    rw [guard, he]
    constructor
    · intro hok
      cases hok
    · intro hok
      exact absurd hok hfit

theorem preflightJson_text {text : PyStr} {n d : Nat} (h : IsJson text.codePoints n d)
    {octets : Bytes} (hoctets : text.utf8Encode = some octets) (nodeLimit depthLimit : Int) :
    preflightJson (.str text) (.int nodeLimit) (.int depthLimit) = .ok () ↔
      n ≤ nodeLimit ∧ (d = 0 ∨ d ≤ depthLimit) := by
  rw [← guard_eq_ok (h.octets hoctets), preflightJson, hoctets]
  rfl

/-- **The guard is exact.**  Of a text of the grammar with `n` containers, scalar values and keys
nested `d` deep, handed over as the text or as its octets, it lets through the ones within the
limits and no other; and on any octets its loop ends, with at most one turn that leaves the index
alone for each node allowed and one more. -/
theorem preflight_exact :
    (∀ (text : PyStr) (octets : Bytes) (n d : Nat) (nodeLimit depthLimit : Int),
      IsJson text.codePoints n d → text.utf8Encode = some octets →
      ∀ payload ∈ [Argument.str text, Argument.bytes octets],
        preflightJson payload (.int nodeLimit) (.int depthLimit) = .ok () ↔
          n ≤ nodeLimit ∧ (d = 0 ∨ d ≤ depthLimit)) ∧
    ∀ (octets : Bytes) (nodeLimit depthLimit : Int),
      ∃ a b result, Turns (octets.map UInt8.toNat) nodeLimit depthLimit ⟨0, 0, 0⟩ a b result ∧
        a ≤ octets.length ∧ b ≤ nodeLimit.toNat + 1 ∧
        preflightJson (.bytes octets) (.int nodeLimit) (.int depthLimit) = result.bind fun s =>
          if s.depth ≠ 0 then .error (.valueError "single-json-depth") else .ok () := by
  constructor
  · intro text octets n d nodeLimit depthLimit htext hoctets payload hpayload
    simp only [List.mem_cons, List.not_mem_nil, or_false] at hpayload
    rcases hpayload with rfl | rfl
    · exact preflightJson_text htext hoctets nodeLimit depthLimit
    · exact guard_eq_ok (htext.octets hoctets) nodeLimit depthLimit
  · intro octets nodeLimit depthLimit
    exact guard_turns octets nodeLimit depthLimit

/-- `[NaN,"\x7d"]`. -/
def sampleText : PyStr := ⟨[91, 78, 97, 78, 44, 34, 125, 34, 93]⟩

theorem isJson_sampleText : IsJson sampleText.codePoints 3 1 := by
  have hblank : IsBlank [] := by simp [IsBlank]
  have hword : IsWord [78, 97, 78] := .inl (by simp [constants])
  have hconstant : Derives .element [78, 97, 78] 1 0 :=
    Derives.element hblank (.word hword) hblank
  have hbody : IsBody [125] := .plain (by decide) .nil
  have hstring : Derives .element [34, 125, 34] 1 0 :=
    Derives.element hblank (.string ⟨_, hbody, rfl⟩) hblank
  have hrow := Derives.elements hconstant (.lastElement hstring)
  exact Derives.element hblank (.array hrow) hblank

theorem preflight_exact_sample :
    IsJson sampleText.codePoints 3 1 ∧
      (preflightJson (.str sampleText) (.int 3) (.int 1) = .ok () ↔
        ((3 : Nat) : Int) ≤ 3 ∧ ((1 : Nat) = 0 ∨ ((1 : Nat) : Int) ≤ 1)) :=
  ⟨isJson_sampleText,
    preflight_exact.1 sampleText (sampleText.codePoints.map Nat.toUInt8) 3 1 3 1 isJson_sampleText
      rfl _ (by simp)⟩

/-- A lone surrogate is a text of the grammar that has no octets. -/
def surrogateText : PyStr := ⟨[34, 0xd800, 34]⟩

theorem isJson_surrogateText : IsJson surrogateText.codePoints 1 0 := by
  have hbody : IsBody [0xd800] := .plain (by decide) .nil
  have hvalue : Derives .value [34, 0xd800, 34] 1 0 := .string ⟨_, hbody, rfl⟩
  have hblank : IsBlank [] := by simp [IsBlank]
  exact Derives.element hblank hvalue hblank

theorem isJson_one : IsJson (PyStr.codePoints "1") 1 0 := by
  have hnumber : IsNumber [49] :=
    ⟨[], [49], [], [], .inl rfl, .inr ⟨by simp [IsDigits, Json.isDigit], by simp⟩, .inl rfl, .inl rfl, rfl⟩
  have hblank : IsBlank [] := by simp [IsBlank]
  exact Derives.element hblank (.word (.inr hnumber)) hblank

/-- A text with a lone surrogate is refused with room for it, a number is let through with no room
for its depth of zero, and below zero the nodes allowed do not bound the turns. -/
theorem preflight_inexact :
    (IsJson surrogateText.codePoints 1 0 ∧
      preflightJson (.str surrogateText) (.int 1) (.int 0) = .error .unicodeError) ∧
    (IsJson (PyStr.codePoints "1") 1 0 ∧
      preflightJson (.str "1") (.int 1) (.int (-1)) = .ok ()) ∧
    Turns [49] (-2) 0 ⟨0, 0, 0⟩ 0 1 (.error (.valueError "single-json-node-budget")) := by
  refine ⟨⟨isJson_surrogateText, rfl⟩, ⟨isJson_one, ?_⟩, ?_⟩
  · exact (preflightJson_text isJson_one rfl 1 (-1)).mpr (by omega)
  · exact .raises (by simp) rfl

end Supplementary.Preflight
