/-
# Lines, and the fragments they arrive in

`split_text_fragments` reads a text in chunks and yields it in fragments, each with the separator
that ends its line or with none where the line goes on.  A carriage return at the end of a chunk is
kept back, since the next chunk may complete it to one separator.

`merged_splitTextFragments` is all that its readers need: fragments of one line put together are the
lines of `str.splitlines`, wherever the text is cut.
-/
import Supplementary.Python.Split

namespace Supplementary.Push

open PyStr

/-! ## 1. Lines with what ends them -/

/-- Some text of a line, and the separator after it; `none` where the line goes on. -/
abbrev Fragment := PyStr × Option PyStr

/-- The lines of a text; the last one has no separator if the text ends without one.  `line` is the
one that is being read, backwards. -/
def endedLinesFrom : (line : List Nat) → List Nat → List Fragment
  | [], [] => []
  | line, [] => [(⟨line.reverse⟩, none)]
  | line, 13 :: 10 :: rest => (⟨line.reverse⟩, some ⟨[13, 10]⟩) :: endedLinesFrom [] rest
  | line, c :: rest =>
    if isLineEnd c then (⟨line.reverse⟩, some ⟨[c]⟩) :: endedLinesFrom [] rest
    else endedLinesFrom (c :: line) rest

def endedLines (s : PyStr) : List Fragment := endedLinesFrom [] s.codePoints

/-- A line as `splitlines(keepends=True)` has it. -/
def whole (l : Fragment) : PyStr := l.1 ++ l.2.getD ""

/-- `text.splitlines(keepends=True)`. -/
def splitLinesKeepEnds (s : PyStr) : List PyStr := (endedLines s).map whole

/-! ## 2. `split_text_fragments` -/

/-- The fragments of one chunk, and whether a carriage return is kept back; `fragment` is the one
that is being read, backwards. -/
def fragmentsIn : (fragment : List Nat) → List Nat → List Fragment × Bool
  | [], [] => ([], false)
  | fragment, [] => ([(⟨fragment.reverse⟩, none)], false)
  | fragment, [13] => ([(⟨fragment.reverse⟩, none)], true)
  | fragment, 13 :: 10 :: rest =>
    ((⟨fragment.reverse⟩, some ⟨[13, 10]⟩) :: (fragmentsIn [] rest).1, (fragmentsIn [] rest).2)
  | fragment, c :: rest =>
    if isLineEnd c then
      ((⟨fragment.reverse⟩, some ⟨[c]⟩) :: (fragmentsIn [] rest).1, (fragmentsIn [] rest).2)
    else fragmentsIn (c :: fragment) rest

/-- `split_text_fragments(chunks)`. -/
def splitTextFragments : (pendingCr : Bool) → List PyStr → List Fragment
  | pendingCr, [] => if pendingCr then [("", some "\r")] else []
  | pendingCr, chunk :: chunks =>
    if chunk = "" then splitTextFragments pendingCr chunks
    else
      let kept : List Fragment :=
        if pendingCr then [("", some (if chunk.startsWith "\n" then "\r\n" else "\r"))] else []
      let text := if pendingCr && chunk.startsWith "\n" then chunk.codePoints.drop 1
        else chunk.codePoints
      kept ++ (fragmentsIn [] text).1 ++ splitTextFragments (fragmentsIn [] text).2 chunks

/-! ## 3. Fragments put together -/

/-- The fragments with those of one line put together; `line` is what was read of the one at hand,
if anything was. -/
def merged : (line : Option (List Nat)) → List Fragment → List Fragment
  | none, [] => []
  | some line, [] => [(⟨line⟩, none)]
  | line, (fragment, none) :: rest => merged (some (line.getD [] ++ fragment.codePoints)) rest
  | line, (fragment, some ending) :: rest =>
    (⟨line.getD [] ++ fragment.codePoints⟩, some ending) :: merged none rest

theorem endedLinesFrom_pair {line rest : List Nat} : endedLinesFrom line (13 :: 10 :: rest) =
    (⟨line.reverse⟩, some ⟨[13, 10]⟩) :: endedLinesFrom [] rest := by
  cases line <;> rfl

/-- A separator of one character. -/
theorem endedLinesFrom_end {c : Nat} {line rest : List Nat} (h : isLineEnd c = true)
    (hsingle : c = 13 → rest.head? ≠ some 10) : endedLinesFrom line (c :: rest) =
      (⟨line.reverse⟩, some ⟨[c]⟩) :: endedLinesFrom [] rest := by
  rw [endedLinesFrom.eq_def]
  split
  · next heq => cases heq
  · next heq => cases heq
  · next heq =>
    obtain ⟨rfl, rfl⟩ := List.cons.inj heq
    exact absurd rfl (hsingle rfl)
  · next heq =>
    obtain ⟨rfl, rfl⟩ := List.cons.inj heq
    rw [if_pos h]

theorem endedLinesFrom_other {c : Nat} {line rest : List Nat} (h : isLineEnd c = false) :
    endedLinesFrom line (c :: rest) = endedLinesFrom (c :: line) rest := by
  rw [endedLinesFrom.eq_def]
  split
  · next heq => cases heq
  · next heq => cases heq
  · next heq =>
    obtain ⟨rfl, rfl⟩ := List.cons.inj heq
    cases h
  · next heq =>
    obtain ⟨rfl, rfl⟩ := List.cons.inj heq
    rw [if_neg (by simp [h])]

theorem merged_none_cons {line : Option (List Nat)} {fragment : PyStr} {rest : List Fragment} :
    merged line ((fragment, none) :: rest) =
      merged (some (line.getD [] ++ fragment.codePoints)) rest := by
  cases line <;> rfl

theorem merged_some_cons {line : Option (List Nat)} {fragment ending : PyStr}
    {rest : List Fragment} : merged line ((fragment, some ending) :: rest) =
      (⟨line.getD [] ++ fragment.codePoints⟩, some ending) :: merged none rest := by
  cases line <;> rfl

/-- The fragments of a chunk, put before fragments that read on in the same way: `tail` is what the
rest of the text gives, a carriage return kept back in front of it. -/
theorem merged_fragmentsIn {fragment text rest : List Nat} {tail : List Fragment}
    (htail : ∀ line, ((fragmentsIn fragment text).2 = false → line ≠ some []) →
      merged line tail = endedLinesFrom (line.getD []).reverse
        (if (fragmentsIn fragment text).2 then 13 :: rest else rest))
    {line : Option (List Nat)} (hline : fragment = [] → line ≠ some []) :
    merged line ((fragmentsIn fragment text).1 ++ tail) =
      endedLinesFrom (fragment ++ (line.getD []).reverse) (text ++ rest) := by
  fun_induction fragmentsIn fragment text generalizing line with
  | case1 => exact htail line fun _ => hline rfl
  | case2 fragment hne =>
    rw [List.singleton_append, merged_none_cons, htail]
    · simp
    · intro _ hnil
      have hboth := Option.some.inj hnil
      simp only [List.append_eq_nil_iff, List.reverse_eq_nil_iff] at hboth
      exact hne hboth.2
  | case3 fragment =>
    rw [List.singleton_append, merged_none_cons, htail _ (by simp)]
    simp
  | case4 fragment text ih =>
    have hrest := @ih htail none (by simp)
    rw [List.cons_append, merged_some_cons, hrest, List.cons_append, List.cons_append,
      endedLinesFrom_pair]
    simp
  | case5 fragment c text hlast hpair hend ih =>
    have hrest := @ih htail none (by simp)
    have hsingle : c = 13 → (text ++ rest).head? ≠ some 10 := by
      rintro rfl hhead
      cases text with
      | nil => exact hlast rfl rfl
      | cons d text =>
        cases hhead
        exact hpair text rfl rfl
    rw [List.cons_append, merged_some_cons, hrest, List.cons_append, endedLinesFrom_end hend hsingle]
    simp
  | case6 fragment c text hlast hpair hend ih =>
    rw [ih htail (by simp), List.cons_append, List.cons_append,
      endedLinesFrom_other (by simpa using hend)]

/-- With a carriage return kept back or without one, the rest of the chunks reads on. -/
theorem merged_splitTextFragments_from {chunks : List PyStr} {pendingCr : Bool}
    {line : Option (List Nat)} (hline : pendingCr = false → line ≠ some []) :
    merged line (splitTextFragments pendingCr chunks) =
      endedLinesFrom (line.getD []).reverse
        (if pendingCr then 13 :: chunks.flatMap codePoints else chunks.flatMap codePoints) := by
  induction chunks generalizing pendingCr line with
  | nil =>
    cases pendingCr with
    | false =>
      cases line with
      | none => rfl
      | some l =>
        obtain ⟨c, l', hl⟩ := List.exists_cons_of_ne_nil
          (List.reverse_ne_nil_iff.mpr fun hnil => hline rfl (congrArg some hnil))
        have hback : l = (c :: l').reverse := by rw [← hl, List.reverse_reverse]
        simp [splitTextFragments, merged, hback, endedLinesFrom]
    | true =>
      have hreturn := @endedLinesFrom_end 13 (line.getD []).reverse [] rfl (by simp)
      simp only [splitTextFragments, if_true, merged_some_cons, List.flatMap_nil, hreturn]
      simp [merged, endedLinesFrom, ofString]
  | cons chunk chunks ih =>
    have hmore (text : List Nat) {line : Option (List Nat)} (hline : line ≠ some []) :
        merged line ((fragmentsIn [] text).1 ++ splitTextFragments (fragmentsIn [] text).2 chunks) =
          endedLinesFrom (line.getD []).reverse (text ++ chunks.flatMap codePoints) :=
      merged_fragmentsIn (fun _ h => ih h) fun _ => hline
    rw [splitTextFragments, List.flatMap_cons]
    obtain ⟨points⟩ := chunk
    cases points with
    | nil => exact ih hline
    | cons d text =>
      have hstarts : (⟨d :: text⟩ : PyStr).startsWith "\n" = decide (d = 10) := by
        change (10 == d && List.isPrefixOf [] text) = decide (d = 10)
        by_cases hd : d = 10
        · simp [hd]
        · simp [hd, Ne.symm hd]
      have hempty : (⟨d :: text⟩ : PyStr) ≠ "" :=
        fun h => List.cons_ne_nil d text (congrArg codePoints h)
      rw [if_neg hempty]
      cases pendingCr with
      | false => exact hmore (d :: text) (hline rfl)
      | true =>
        by_cases hd : d = 10
        · subst hd
          have hread := @hmore text none (by simp)
          simp only [hstarts, decide_true, if_true, Bool.and_self,
            List.drop_one, List.tail_cons, List.cons_append, merged_some_cons, endedLinesFrom_pair]
          simp only [List.nil_append, hread]
          simp [ofString]
        · have hread := @hmore (d :: text) none (by simp)
          have hreturn := @endedLinesFrom_end 13 (line.getD []).reverse
            (d :: text ++ chunks.flatMap codePoints) rfl (by simpa using hd)
          simp only [hstarts, hd, decide_false, if_true, Bool.and_false, List.cons_append,
            merged_some_cons]
          rw [List.cons_append] at hreturn
          rw [hreturn]
          simp only [List.nil_append, Bool.false_eq_true, if_false, hread]
          simp [ofString]

/-- **Fragments of one line put together are the lines of the text**, wherever it is cut. -/
theorem merged_splitTextFragments (chunks : List PyStr) :
    merged none (splitTextFragments false chunks) = endedLines ⟨chunks.flatMap codePoints⟩ :=
  merged_splitTextFragments_from (by simp)

/-! ## 4. What lines are made of -/

/-- The text of fragments. -/
def textOf (fragments : List Fragment) : List Nat := fragments.flatMap fun l => (whole l).codePoints

theorem textOf_cons (l : Fragment) (fragments : List Fragment) :
    textOf (l :: fragments) = l.1.codePoints ++ (l.2.getD "").codePoints ++ textOf fragments := rfl

theorem textOf_merged (line : Option (List Nat)) (fragments : List Fragment) :
    textOf (merged line fragments) = line.getD [] ++ textOf fragments := by
  induction fragments generalizing line with
  | nil => cases line <;> simp [merged, textOf, whole, ofString]
  | cons l fragments ih =>
    obtain ⟨fragment, ending⟩ := l
    cases ending with
    | none =>
      rw [merged_none_cons, ih, textOf_cons]
      simp [ofString]
    | some ending =>
      rw [merged_some_cons, textOf_cons, ih, textOf_cons]
      simp

/-- The lines of a text with what ends them are the text. -/
theorem textOf_endedLinesFrom (line text : List Nat) :
    textOf (endedLinesFrom line text) = line.reverse ++ text := by
  fun_induction endedLinesFrom line text with
  | case1 => rfl
  | case2 line hne => simp [textOf, whole, ofString]
  | case3 line rest ih => simp [textOf_cons, ih]
  | case4 line c rest hpair hend ih => simp [textOf_cons, ih]
  | case5 line c rest hpair hend ih => simpa using ih

/-- Chunks are their fragments. -/
theorem textOf_splitTextFragments (chunks : List PyStr) :
    textOf (splitTextFragments false chunks) = chunks.flatMap codePoints := by
  have hmerged := congrArg textOf (merged_splitTextFragments chunks)
  rw [textOf_merged, endedLines, textOf_endedLinesFrom] at hmerged
  simpa using hmerged

/-- A line holds no separator, and what ends it is one. -/
structure IsEnded (l : Fragment) : Prop where
  text : ∀ c ∈ l.1.codePoints, isLineEnd c = false
  ending : l.2 = none ∨ l.2 = some ⟨[13, 10]⟩ ∨ ∃ c, isLineEnd c = true ∧ l.2 = some ⟨[c]⟩

theorem isEnded_of_mem {line text : List Nat} (hline : ∀ c ∈ line, isLineEnd c = false) :
    ∀ l ∈ endedLinesFrom line text, IsEnded l := by
  have hread (line : List Nat) (h : ∀ c ∈ line, isLineEnd c = false) :
      ∀ c ∈ line.reverse, isLineEnd c = false := fun c hc => h c (List.mem_reverse.mp hc)
  fun_induction endedLinesFrom line text with
  | case1 => intro l hl; cases hl
  | case2 line hne =>
    intro l hl
    rw [List.mem_singleton.mp hl]
    exact ⟨hread line hline, Or.inl rfl⟩
  | case3 line rest ih =>
    exact List.forall_mem_cons.mpr ⟨⟨hread line hline, Or.inr (Or.inl rfl)⟩, ih (by simp)⟩
  | case4 line c rest hpair hend ih =>
    exact List.forall_mem_cons.mpr
      ⟨⟨hread line hline, Or.inr (Or.inr ⟨c, hend, rfl⟩)⟩, ih (by simp)⟩
  | case5 line c rest hpair hend ih =>
    exact ih (List.forall_mem_cons.mpr ⟨by simpa using hend, hline⟩)

end Supplementary.Push
