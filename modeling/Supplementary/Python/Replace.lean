/-
# `str.replace`

`replaceFrom` rewrites the occurrences of a text in one pass from the left.  Where no occurrence
reaches across a place in the text, the two sides are rewritten on their own; and an end of the
rewritten text without the last character of the new text is an end of the old one, as is a beginning
without its first.
-/
import Supplementary.Python.Split
import Mathlib.Data.List.Infix

namespace Supplementary.PyStr

/-- What `replace` makes of a text; `skip` is what is left of the occurrence found last. -/
def replaceFrom (old new : List Nat) : (skip : Nat) → List Nat → List Nat
  | _, [] => []
  | skip + 1, _ :: rest => replaceFrom old new skip rest
  | 0, c :: rest =>
    if old.isPrefixOf (c :: rest) then new ++ replaceFrom old new (old.length - 1) rest
    else c :: replaceFrom old new 0 rest

theorem join_segmentsFrom_new {old new segment text : List Nat} {skip : Nat} :
    (join ⟨new⟩ (segmentsFrom old skip segment text)).codePoints =
      segment.reverse ++ replaceFrom old new skip text := by
  induction text generalizing skip segment with
  | nil =>
    cases skip <;> simp [segmentsFrom, join, replaceFrom]
  | cons c rest ih =>
    cases skip with
    | succ skip => exact ih
    | zero =>
      rw [segmentsFrom, replaceFrom]
      split
      · obtain ⟨first, others, hsegments⟩ := List.exists_cons_of_ne_nil
          (@segmentsFrom_ne_nil old (old.length - 1) [] rest)
        have htail := @ih [] (old.length - 1)
        rw [hsegments] at htail ⊢
        rw [join_cons_cons, codePoints_append, codePoints_append, htail]
        simp
      · rw [ih]
        simp

theorem replace_codePoints (s old new : PyStr) :
    (s.replace old new).codePoints = replaceFrom old.codePoints new.codePoints 0 s.codePoints := by
  rw [replace, segments, join_segmentsFrom_new]
  rfl

section

variable {old new text : List Nat}

theorem replaceFrom_skip (skip : Nat) :
    replaceFrom old new skip text = replaceFrom old new 0 (text.drop skip) := by
  induction text generalizing skip with
  | nil => cases skip <;> rfl
  | cons c rest ih =>
    cases skip with
    | zero => rfl
    | succ skip => exact ih skip

/-- An occurrence at the beginning is rewritten. -/
theorem replaceFrom_occurrence (h : old ≠ []) :
    replaceFrom old new 0 (old ++ text) = new ++ replaceFrom old new 0 text := by
  obtain ⟨c, old', rfl⟩ := List.exists_cons_of_ne_nil h
  rw [List.cons_append, replaceFrom, if_pos (by simp), replaceFrom_skip]
  simp

theorem replaceFrom_cons {c : Nat} (h : ¬ old <+: c :: text) :
    replaceFrom old new 0 (c :: text) = c :: replaceFrom old new 0 text := by
  rw [replaceFrom, if_neg]
  rwa [List.isPrefixOf_iff_prefix]

/-- No occurrence of a word begins before the end of `u` and ends after it. -/
def Apart (word u v : List Nat) : Prop :=
  ∀ x y, word = x ++ y → x ≠ [] → y ≠ [] → x <:+ u → ¬ y <+: v

instance {word u v : List Nat} : Decidable (Apart word u v) :=
  decidable_of_iff (∀ i < word.length, 0 < i → word.take i <:+ u → ¬ word.drop i <+: v) <| by
    constructor
    · rintro h x y rfl hx hy hu
      have hpos := List.length_pos_iff.mpr hx
      have hpos' := List.length_pos_iff.mpr hy
      have := h x.length (by simp; omega) hpos
      simp only [List.take_left', List.drop_left'] at this
      exact this hu
    · intro h i hi hpos hu
      refine h _ _ (List.take_append_drop i word).symm ?_ ?_ hu
      · rw [Ne, List.take_eq_nil_iff]
        rintro (rfl | rfl)
        · omega
        · cases hi
      · rw [Ne, List.drop_eq_nil_iff]
        omega

theorem Apart.of_suffix {word u u' v : List Nat} (h : Apart word u v) (hu : u' <:+ u) :
    Apart word u' v := fun x y hword hx hy hxu => h x y hword hx hy (hxu.trans hu)

/-- A character that the word does not have keeps what is beside it apart. -/
theorem apart_cons_of_not_mem {word u v : List Nat} {c : Nat} (h : c ∉ word) :
    Apart word u (c :: v) := by
  rintro x y rfl - hy - hv
  obtain ⟨d, y, rfl⟩ := List.exists_cons_of_ne_nil hy
  rw [List.cons_prefix_cons] at hv
  exact h (by simp [hv.1])

theorem apart_singleton_of_not_mem {word v : List Nat} {c : Nat} (h : c ∉ word) :
    Apart word [c] v := by
  rintro x y rfl hx - hc -
  have hsame := hc.sublist
  rw [List.sublist_singleton] at hsame
  rcases hsame with rfl | rfl
  · exact hx rfl
  · exact h (by simp)

/-- The two sides of such a place are rewritten on their own. -/
theorem replaceFrom_append {u v : List Nat} (hold : old ≠ []) (h : Apart old u v) :
    replaceFrom old new 0 (u ++ v) = replaceFrom old new 0 u ++ replaceFrom old new 0 v := by
  induction hn : u.length using Nat.strong_induction_on generalizing u with
  | _ n ih =>
    subst hn
    cases u with
    | nil => rfl
    | cons c u =>
      by_cases hoccurs : old <+: c :: u ++ v
      · -- the occurrence lies in `u`, for it does not reach across
        have hinside : old <+: c :: u := by
          obtain ⟨after, hafter⟩ := hoccurs
          rcases List.append_eq_append_iff.mp hafter with ⟨y, hu, -⟩ | ⟨y, hy, hv⟩
          · exact ⟨y, hu.symm⟩
          · cases y with
            | nil =>
              rw [List.append_nil] at hy
              rw [hy]
            | cons d y =>
              exact absurd ⟨after, hv.symm⟩ (h _ _ hy (by simp) (by simp) (List.suffix_refl _))
        obtain ⟨rest, hrest⟩ := hinside
        rw [← hrest, List.append_assoc, replaceFrom_occurrence hold, replaceFrom_occurrence hold,
          List.append_assoc, ih rest.length ?_ (h.of_suffix ⟨old, hrest⟩) rfl]
        rw [← hrest, List.length_append]
        have := List.length_pos_iff.mpr hold
        omega
      · have hnot : ¬ old <+: c :: u := fun hu => hoccurs (hu.trans (List.prefix_append _ _))
        rw [List.cons_append] at hoccurs ⊢
        rw [replaceFrom_cons hoccurs, replaceFrom_cons hnot,
          ih u.length (by simp) (h.of_suffix (List.suffix_cons c u)) rfl, List.cons_append]

/-- Either nothing is rewritten, or the last character of the new text is there. -/
theorem replaceFrom_eq_or_mem (hold : old ≠ []) {last : Nat} (hlast : last ∈ new) :
    replaceFrom old new 0 text = text ∨ last ∈ replaceFrom old new 0 text := by
  induction text with
  | nil => exact .inl rfl
  | cons c rest ih =>
    by_cases hoccurs : old <+: c :: rest
    · obtain ⟨after, hafter⟩ := hoccurs
      rw [← hafter, replaceFrom_occurrence hold]
      exact .inr (List.mem_append_left _ hlast)
    · rw [replaceFrom_cons hoccurs]
      rcases ih with hsame | hmem
      · rw [hsame]
        exact .inl rfl
      · exact .inr (List.mem_cons_of_mem c hmem)

/-- An end of the rewritten text that lacks the last character of the new text. -/
theorem suffix_of_replaceFrom (hold : old ≠ []) {init x : List Nat} {last : Nat}
    (hnew : new = init ++ [last]) (hx : last ∉ x) (h : x <:+ replaceFrom old new 0 text) :
    x <:+ text := by
  induction hn : text.length using Nat.strong_induction_on generalizing text with
  | _ n ih =>
    subst hn
    cases text with
    | nil => exact h
    | cons c rest =>
      by_cases hoccurs : old <+: c :: rest
      · obtain ⟨after, hafter⟩ := hoccurs
        have hlength := congrArg List.length hafter
        rw [List.length_append, List.length_cons] at hlength
        have hpos := List.length_pos_iff.mpr hold
        rw [← hafter, replaceFrom_occurrence hold] at h
        rw [← hafter]
        obtain ⟨before, hbefore⟩ := h
        rcases List.append_eq_append_iff.mp hbefore with ⟨p, hend, hp⟩ | ⟨p, -, hrest⟩
        swap
        · exact (ih after.length (by simp; omega) ⟨p, hrest.symm⟩ rfl).trans
            (List.suffix_append _ _)
        · -- `p` ends as the new text does
          rcases List.eq_nil_or_concat p with rfl | ⟨p, d, rfl⟩
          · rw [List.nil_append] at hp
            have hall : x <:+ replaceFrom old new 0 after := by rw [hp]
            exact (ih after.length (by simp; omega) hall rfl).trans (List.suffix_append _ _)
          · rw [hnew, List.concat_eq_append, ← List.append_assoc] at hend
            have hd := (List.append_inj' hend rfl).2
            cases hd
            exact absurd (by rw [hp]; simp) hx
      · rw [replaceFrom_cons hoccurs, List.suffix_cons_iff] at h
        rcases h with hall | hrest
        · have hlast : last ∈ new := by simp [hnew]
          have hcases : replaceFrom old new 0 rest = rest ∨ last ∈ replaceFrom old new 0 rest :=
            replaceFrom_eq_or_mem hold hlast
          rcases hcases with hsame | hmem
          · rw [hall, hsame]
          · exact absurd (by rw [hall]; exact List.mem_cons_of_mem _ hmem) hx
        · exact (ih rest.length (by simp) hrest rfl).trans (List.suffix_cons _ _)

/-- A beginning of the rewritten text that lacks the first character of the new text. -/
theorem prefix_of_replaceFrom (hold : old ≠ []) {first : Nat} {tail y : List Nat}
    (hnew : new = first :: tail) (hy : first ∉ y) (h : y <+: replaceFrom old new 0 text) :
    y <+: text := by
  induction text generalizing y with
  | nil => exact h
  | cons c rest ih =>
    by_cases hoccurs : old <+: c :: rest
    · obtain ⟨after, hafter⟩ := hoccurs
      rw [← hafter, replaceFrom_occurrence hold, hnew] at h
      cases y with
      | nil => exact List.nil_prefix
      | cons d y =>
        rw [List.cons_append, List.cons_prefix_cons] at h
        exact absurd (by simp [h.1]) hy
    · rw [replaceFrom_cons hoccurs] at h
      cases y with
      | nil => exact List.nil_prefix
      | cons d y =>
        rw [List.cons_prefix_cons] at h ⊢
        exact ⟨h.1, ih (fun hmem => hy (List.mem_cons_of_mem d hmem)) h.2⟩

/-- What was apart stays apart for a word that cannot touch the new text. -/
theorem Apart.replaceFrom {word u v : List Nat} {first last : Nat} (hold : old ≠ [])
    (h : Apart word u v) (hhead : new.head? = some first) (hend : new.getLast? = some last)
    (hlast : last ∉ word.dropLast) (hfirst : first ∉ word.tail) :
    Apart word (replaceFrom old new 0 u) (replaceFrom old new 0 v) := by
  obtain ⟨init, hinit⟩ := List.getLast?_eq_some_iff.mp hend
  obtain ⟨tail, htail⟩ := List.head?_eq_some_iff.mp hhead
  rintro x y rfl hx hy hu hv
  refine h x y rfl hx hy ?_ ?_
  · refine suffix_of_replaceFrom hold hinit (fun hmem => hlast ?_) hu
    rw [List.dropLast_append_of_ne_nil hy]
    exact List.mem_append_left _ hmem
  · refine prefix_of_replaceFrom hold htail (fun hmem => hfirst ?_) hv
    rw [List.tail_append_of_ne_nil hx]
    exact List.mem_append_right _ hmem

end

end Supplementary.PyStr
