/-
# What `split`, `partition` and `join` undo

`join_segments`: a text is its segments with the separator between them.  `segments_join`: for a
separator of one character, parts without that character are the segments of the text they make.
`splitLines_ofLines`: lines that hold no line end are read back from the text that ends each of them.
`breakOn` reads the text before the first separator, which for a text that starts with a part
without the separator's first character is that part.
-/
import Supplementary.Python.Text

namespace Supplementary.PyStr

/-! ## 1. Joining -/

theorem ext {s t : PyStr} (h : s.codePoints = t.codePoints) : s = t := by
  cases s
  cases t
  exact congrArg PyStr.mk h

@[simp] theorem codePoints_append (s t : PyStr) :
    (s ++ t).codePoints = s.codePoints ++ t.codePoints := rfl

theorem startsWith_iff {s t : PyStr} : s.startsWith t = true ↔ ∃ rest, s = t ++ rest := by
  rw [startsWith, List.isPrefixOf_iff_prefix]
  constructor
  · rintro ⟨rest, hrest⟩
    exact ⟨⟨rest⟩, ext (by rw [codePoints_append, hrest])⟩
  · rintro ⟨rest, rfl⟩
    exact ⟨rest.codePoints, (codePoints_append t rest).symm⟩

/-- A member of a text is a separator or in one of the parts. -/
theorem mem_splitOn (sep : Nat) {c : Nat} {xs : List Nat} (h : c ∈ xs) :
    c = sep ∨ ∃ part ∈ xs.splitOn sep, c ∈ part := by
  induction xs with
  | nil => cases h
  | cons x xs ih =>
    rw [List.splitOn_cons_eq_if_modifyHead]
    by_cases hx : (x == sep) = true
    · rw [if_pos hx]
      rcases List.mem_cons.mp h with rfl | hmem
      · exact Or.inl (beq_iff_eq.mp hx)
      · refine (ih hmem).imp_right ?_
        rintro ⟨part, hpart, hc⟩
        exact ⟨part, List.mem_cons_of_mem _ hpart, hc⟩
    · rw [if_neg hx]
      obtain ⟨head, parts, hparts⟩ := List.exists_cons_of_ne_nil (List.splitOn_ne_nil sep xs)
      rw [hparts] at ih ⊢
      rw [List.modifyHead_cons]
      rcases List.mem_cons.mp h with rfl | hmem
      · exact Or.inr ⟨c :: head, List.mem_cons_self, List.mem_cons_self⟩
      · refine (ih hmem).imp_right ?_
        rintro ⟨part, hpart, hc⟩
        rcases List.mem_cons.mp hpart with rfl | hpart
        · exact ⟨x :: part, List.mem_cons_self, List.mem_cons_of_mem _ hc⟩
        · exact ⟨part, List.mem_cons_of_mem _ hpart, hc⟩

theorem join_cons_cons (separator s t : PyStr) (rest : List PyStr) :
    join separator (s :: t :: rest) = s ++ separator ++ join separator (t :: rest) := rfl

theorem segmentsFrom_ne_nil {separator : List Nat} {skip : Nat} {segment text : List Nat} :
    segmentsFrom separator skip segment text ≠ [] := by
  fun_induction segmentsFrom separator skip segment text with
  | case1 => exact List.cons_ne_nil _ _
  | case2 _ _ _ _ ih => exact ih
  | case3 => exact List.cons_ne_nil _ _
  | case4 _ _ _ _ ih => exact ih

theorem join_segmentsFrom {separator segment text : List Nat} {skip : Nat} (hne : separator ≠ [])
    (hskip : skip ≤ text.length) : join ⟨separator⟩ (segmentsFrom separator skip segment text) =
      ⟨segment.reverse ++ text.drop skip⟩ := by
  fun_induction segmentsFrom separator skip segment text with
  | case1 segment skip => simp [join]
  | case2 segment skip c rest ih =>
    rw [ih (Nat.le_of_succ_le_succ hskip)]
    rfl
  | case3 segment c rest hprefix ih =>
    obtain ⟨tail, htail⟩ := List.isPrefixOf_iff_prefix.mp hprefix
    obtain ⟨d, separator, rfl⟩ := List.exists_cons_of_ne_nil hne
    rw [List.cons_append] at htail
    obtain ⟨rfl, rfl⟩ := List.cons.inj htail
    obtain ⟨head, parts, hparts⟩ := List.exists_cons_of_ne_nil
      (@segmentsFrom_ne_nil (d :: separator) ((d :: separator).length - 1) [] (separator ++ tail))
    rw [hparts] at ih ⊢
    rw [join_cons_cons, ih (by simp)]
    apply ext
    simp
  | case4 segment c rest hprefix ih =>
    rw [ih (Nat.zero_le _)]
    simp

/-- A text is its segments, joined again. -/
theorem join_segments {separator : PyStr} (s : PyStr) (h : separator.codePoints ≠ []) :
    join separator (s.segments separator) = s :=
  join_segmentsFrom h (Nat.zero_le _)

/-! ## 2. Separators of one character -/

section

variable {c : Nat}

/-- Characters other than the separator are read into the segment. -/
theorem segmentsFrom_append {unit segment text : List Nat} (h : c ∉ unit) :
    segmentsFrom [c] 0 segment (unit ++ text) =
      segmentsFrom [c] 0 (unit.reverse ++ segment) text := by
  induction unit generalizing segment with
  | nil => rfl
  | cons d unit ih =>
    rw [List.mem_cons, not_or] at h
    have hprefix : ¬ List.isPrefixOf [c] (d :: (unit ++ text)) = true := by
      simp [List.isPrefixOf, h.1]
    rw [List.cons_append, segmentsFrom, if_neg hprefix, ih h.2]
    simp

theorem segmentsFrom_separator {segment text : List Nat} :
    segmentsFrom [c] 0 segment (c :: text) = ⟨segment.reverse⟩ :: segmentsFrom [c] 0 [] text := by
  have hprefix : List.isPrefixOf [c] (c :: text) = true := by simp [List.isPrefixOf]
  rw [segmentsFrom, if_pos hprefix]
  rfl

theorem segments_of_not_mem {s : PyStr} (h : c ∉ s.codePoints) : s.segments ⟨[c]⟩ = [s] := by
  have hread := @segmentsFrom_append c s.codePoints [] [] h
  rw [List.append_nil, List.append_nil] at hread
  rw [segments, hread, segmentsFrom, List.reverse_reverse]

theorem segments_of_append {s t : PyStr} (h : c ∉ s.codePoints) :
    (s ++ ⟨[c]⟩ ++ t).segments ⟨[c]⟩ = s :: t.segments ⟨[c]⟩ := by
  change segmentsFrom [c] 0 [] (s.codePoints ++ [c] ++ t.codePoints) = _
  rw [List.append_assoc, segmentsFrom_append h, List.singleton_append, segmentsFrom_separator]
  simp [segments]

/-- Parts without the separator are the segments of the text that they are joined to. -/
theorem segments_join {parts : List PyStr} (hne : parts ≠ []) (h : ∀ s ∈ parts, c ∉ s.codePoints) :
    (join ⟨[c]⟩ parts).segments ⟨[c]⟩ = parts := by
  induction parts with
  | nil => exact absurd rfl hne
  | cons s parts ih => cases parts with
    | nil => exact segments_of_not_mem (h s List.mem_cons_self)
    | cons t parts =>
      rw [join_cons_cons, segments_of_append (h s List.mem_cons_self),
        ih (List.cons_ne_nil _ _) fun u hu => h u (List.mem_cons_of_mem _ hu)]

theorem not_mem_of_mem_segmentsFrom {skip : Nat} {segment text : List Nat} {s : PyStr}
    (hsegment : c ∉ segment) (h : s ∈ segmentsFrom [c] skip segment text) :
    c ∉ s.codePoints := by
  fun_induction segmentsFrom [c] skip segment text with
  | case1 segment skip =>
    rw [List.mem_singleton.mp h]
    simpa using hsegment
  | case2 segment skip d rest ih => exact ih hsegment h
  | case3 segment d rest hprefix ih =>
    rcases List.mem_cons.mp h with rfl | h
    · simpa using hsegment
    · exact ih List.not_mem_nil h
  | case4 segment d rest hprefix ih =>
    refine ih ?_ h
    rw [List.mem_cons, not_or]
    refine ⟨?_, hsegment⟩
    rintro rfl
    exact hprefix (by simp)

/-- No segment holds the separator. -/
theorem not_mem_of_mem_segments {s t : PyStr} (h : t ∈ s.segments ⟨[c]⟩) :
    c ∉ t.codePoints := not_mem_of_mem_segmentsFrom List.not_mem_nil h

end

/-! ## 3. The first separator -/

section

variable {s separator before : PyStr}

theorem eq_of_breakOn_none (h : s.breakOn separator = (before, none)) : s = before := by
  unfold breakOn at h
  split at h
  · cases h
  · cases h
    rfl

theorem eq_of_breakOn_some {after : PyStr} (hne : separator.codePoints ≠ [])
    (h : s.breakOn separator = (before, some after)) : s = before ++ separator ++ after := by
  unfold breakOn at h
  split at h
  · next first second rest hsegments =>
    cases h
    rw [← join_cons_cons, ← hsegments, join_segments s hne]
  · cases h

/-- What stands before the first separator of one character. -/
theorem breakOn_fst {c : Nat} {after : List Nat} (h : c ∉ before.codePoints)
    (hs : s.codePoints = before.codePoints ++ c :: after) : (s.breakOn ⟨[c]⟩).1 = before := by
  have heq : s = before ++ ⟨[c]⟩ ++ ⟨after⟩ := ext (by simp [hs])
  obtain ⟨second, rest, hrest⟩ := List.exists_cons_of_ne_nil
    (@segmentsFrom_ne_nil [c] 0 [] after)
  have hsegments : (⟨after⟩ : PyStr).segments ⟨[c]⟩ = second :: rest := hrest
  rw [breakOn, heq, segments_of_append h, hsegments]

theorem breakOn_fst_of_not_mem {c : Nat} (h : c ∉ s.codePoints) : (s.breakOn ⟨[c]⟩).1 = s := by
  rw [breakOn, segments_of_not_mem h]

end

/-! ## 4. Lines -/

/-- The text of some lines, each with its end. -/
def ofLines (lines : List PyStr) : PyStr := ⟨lines.flatMap fun line => line.codePoints ++ [10]⟩

/-- `"\n".join(lines) + "\n"`. -/
theorem join_newline {lines : List PyStr} (h : lines ≠ []) :
    join ⟨[10]⟩ lines ++ ⟨[10]⟩ = ofLines lines := by
  apply ext
  induction lines with
  | nil => exact absurd rfl h
  | cons s lines ih => cases lines with
    | nil => simp [join, ofLines]
    | cons t lines =>
      have hrest := ih (List.cons_ne_nil _ _)
      rw [codePoints_append] at hrest
      rw [join_cons_cons, codePoints_append, codePoints_append, codePoints_append, List.append_assoc,
        hrest]
      rfl

/-- The characters of a line are read into it, up to its end. -/
theorem linesFrom_line {line acc rest : List Nat} (h : ∀ c ∈ line, isLineEnd c = false) :
    linesFrom acc (line ++ 10 :: rest) = ⟨acc.reverse ++ line⟩ :: linesFrom [] rest := by
  induction line generalizing acc with
  | nil => simp [linesFrom, isLineEnd]
  | cons c line ih =>
    have hc := h c List.mem_cons_self
    have hnext : linesFrom (c :: acc) (line ++ 10 :: rest) =
        ⟨(c :: acc).reverse ++ line⟩ :: linesFrom [] rest :=
      ih fun d hd => h d (List.mem_cons_of_mem _ hd)
    have hread : linesFrom acc (c :: (line ++ 10 :: rest)) =
        linesFrom (c :: acc) (line ++ 10 :: rest) := by
      have hreturn : c ≠ 13 := by
        rintro rfl
        cases hc
      rw [linesFrom.eq_def]
      split
      · next heq => cases heq
      · next heq => cases heq
      · next heq => exact absurd (List.cons.inj heq).1 hreturn
      · next heq =>
        obtain ⟨rfl, rfl⟩ := List.cons.inj heq
        rw [if_neg (by simp [hc])]
    rw [List.cons_append, hread, hnext]
    simp

/-- **Lines without a line end in them are the lines of their text.** -/
theorem splitLines_ofLines {lines : List PyStr}
    (h : ∀ line ∈ lines, ∀ c ∈ line.codePoints, isLineEnd c = false) :
    (ofLines lines).splitLines = lines := by
  induction lines with
  | nil => rfl
  | cons line lines ih =>
    have hrest := ih fun l hl => h l (List.mem_cons_of_mem _ hl)
    rw [splitLines, ofLines, List.flatMap_cons, List.append_assoc, List.singleton_append,
      linesFrom_line (h line List.mem_cons_self)]
    exact congrArg (line :: ·) hrest

end Supplementary.PyStr
