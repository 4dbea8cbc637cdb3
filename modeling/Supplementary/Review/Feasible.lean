/-
# The partition is complete

`partition` refuses a payload for one reason only: no division into that many units exists.  The
farthest end is the greatest legal one within a unit, so it grows with the start, and greedy
division uses the fewest units from every start.  A preferred cut is taken only when `fits` still
covers the tail, hence `fits` is the invariant of the loop and no chunk it makes is refused.
-/
import Supplementary.Review.Partition
import Supplementary.Python.Utf8
import Mathlib.Data.List.Dedup

namespace Supplementary.Review

open Supplementary Tiling

/-! ## 1. Legal cuts -/

/-- A position between two characters, or an end of the payload. -/
def IsBoundary (payload : Bytes) (cut : Nat) : Prop :=
  cut ≤ payload.length ∧ (payload[cut]?).any isContinuation = false

/-- Where a piece may end. -/
structure Legal (payload : Bytes) (groups : List (Nat × Nat)) (cut : Nat) : Prop where
  boundary : IsBoundary payload cut
  outside : ∀ g ∈ groups, ¬ Inside cut g

/-- A division of the payload from `start` on: at most `limit` pieces within the bound, each
ending on a legal cut. -/
structure Division (payload : Bytes) (groups : List (Nat × Nat)) (limit start : Nat)
    (pieces : List Bytes) : Prop where
  join : pieces.flatten = payload.drop start
  size : ∀ piece ∈ pieces, 1 ≤ piece.length ∧ piece.length ≤ maxUnitBytes
  count : pieces.length ≤ limit
  legal : ∀ r ∈ ranges start pieces, Legal payload groups r.2

/-- Group ranges in order and apart, with both ends between characters. -/
structure GroupsApart (payload : Bytes) (groups : List (Nat × Nat)) : Prop where
  ordered : groups.Pairwise fun g h => g.2 ≤ h.1
  start : ∀ g ∈ groups, IsBoundary payload g.1
  stop : ∀ g ∈ groups, IsBoundary payload g.2

theorem GroupsApart.ok {payload : Bytes} {groups : List (Nat × Nat)}
    (h : GroupsApart payload groups) : GroupsOk payload groups :=
  ⟨h.ordered, fun g hg => (h.stop g hg).2⟩

theorem isBoundary_length (payload : Bytes) : IsBoundary payload payload.length :=
  ⟨le_rfl, by simp⟩

/-- A text does not start inside a character. -/
theorem isBoundary_zero {payload : Bytes} (h : (utf8Decode payload).isSome = true) :
    IsBoundary payload 0 := by
  refine ⟨Nat.zero_le _, ?_⟩
  have hstart := startsCharacter_of_decode h
  cases payload with
  | nil => rfl
  | cons b rest => simpa using startsCharacter_cons hstart

theorem IsBoundary.starts {payload : Bytes} {cut : Nat} (h : IsBoundary payload cut) :
    StartsCharacter (payload.drop cut) := by
  intro b hb
  have hget : payload[cut]? = some b := by
    rw [← List.head?_drop]
    exact hb
  have := h.2
  rw [hget] at this
  exact this

/-! ## 2. The farthest end is the greatest legal one -/

/-- A cut outside the groups is not left behind. -/
theorem le_leaveGroups {groups : List (Nat × Nat)} {cut stop : Nat} (hle : cut ≤ stop)
    (h : ∀ g ∈ groups, ¬ Inside cut g) : cut ≤ leaveGroups groups stop := by
  induction groups generalizing stop with
  | nil => exact hle
  | cons g gs ih =>
    have hrest : ∀ k ∈ gs, ¬ Inside cut k := fun k hk => h k (List.mem_cons_of_mem _ hk)
    simp only [leaveGroups, List.foldl_cons]
    split
    · next hin =>
      refine ih ?_ hrest
      by_contra hlt
      exact h g List.mem_cons_self ⟨by omega, hle.trans_lt hin.2⟩
    · exact ih hle hrest

theorem le_backUp {payload : Bytes} {cut stop : Nat} (hle : cut ≤ stop)
    (h : (payload[cut]?).any isContinuation = false) : cut ≤ backUp payload stop := by
  by_contra hlt
  have hcont := isContinuation_of_backUp (Nat.lt_of_not_le hlt) hle
  rw [hcont] at h
  cases h

theorem le_farthest {payload : Bytes} {groups : List (Nat × Nat)} {start cut : Nat}
    (hcut : Legal payload groups cut) (hle : cut ≤ start + maxUnitBytes) :
    cut ≤ farthest payload groups start :=
  le_backUp (le_leaveGroups (le_min hle hcut.boundary.1) hcut.outside) hcut.boundary.2

theorem backUp_boundary {payload : Bytes} (h : IsBoundary payload 0) (stop : Nat) :
    (payload[backUp payload stop]?).any isContinuation = false := by
  induction stop with
  | zero => exact h.2
  | succ stop ih =>
    unfold backUp
    split
    · exact ih
    · next hcont => simpa using hcont

theorem farthest_le_unit (payload : Bytes) (groups : List (Nat × Nat)) (start : Nat) :
    farthest payload groups start ≤ start + maxUnitBytes :=
  (backUp_le _ _).trans ((leaveGroups_le _ _).trans (min_le_left _ _))

theorem legal_farthest {payload : Bytes} {groups : List (Nat × Nat)}
    (hg : GroupsOk payload groups) (h : IsBoundary payload 0) (start : Nat) :
    Legal payload groups (farthest payload groups start) :=
  ⟨⟨farthest_le payload groups start, backUp_boundary h _⟩, farthest_not_inside hg start⟩

theorem farthest_mono {payload : Bytes} {groups : List (Nat × Nat)}
    (hg : GroupsOk payload groups) (h : IsBoundary payload 0) {start start' : Nat}
    (hle : start ≤ start') : farthest payload groups start ≤ farthest payload groups start' := by
  refine le_farthest (legal_farthest hg h start) ?_
  exact (farthest_le_unit payload groups start).trans (Nat.add_le_add_right hle _)

/-! ## 3. Greedy division uses the fewest units -/

theorem fits_length (payload : Bytes) (groups : List (Nat × Nat)) (slots : Nat) :
    fits payload groups slots payload.length = true := by
  cases slots <;> simp [fits]

/-- One greedy step. -/
theorem fits_succ {payload : Bytes} {groups : List (Nat × Nat)} {slots start : Nat}
    (hne : start ≠ payload.length) : fits payload groups (slots + 1) start = true ↔
      start < farthest payload groups start ∧
        fits payload groups slots (farthest payload groups start) = true := by
  simp only [fits, if_neg hne]
  split
  · next hle => simp; omega
  · next hlt => simp; omega

theorem fits_more {payload : Bytes} {groups : List (Nat × Nat)} {slots start : Nat}
    (h : fits payload groups slots start = true) :
    fits payload groups (slots + 1) start = true := by
  induction slots generalizing start with
  | zero =>
    obtain rfl : start = payload.length := by simpa [fits] using h
    exact fits_length payload groups 1
  | succ slots ih =>
    by_cases hlen : start = payload.length
    · rw [hlen]
      exact fits_length payload groups _
    · rw [fits_succ hlen] at h ⊢
      exact ⟨h.1, ih h.2⟩

/-- A later start needs no more slots. -/
theorem fits_later {payload : Bytes} {groups : List (Nat × Nat)} (hg : GroupsOk payload groups)
    (hzero : IsBoundary payload 0) {slots start start' : Nat} (hle : start ≤ start')
    (hlen : start' ≤ payload.length) (h : fits payload groups slots start = true) :
    fits payload groups slots start' = true := by
  induction slots generalizing start start' with
  | zero =>
    obtain rfl : start = payload.length := by simpa [fits] using h
    obtain rfl : start' = payload.length := by omega
    exact h
  | succ slots ih =>
    by_cases hlast : start' = payload.length
    · rw [hlast]
      exact fits_length payload groups _
    obtain ⟨hgrow, hrest⟩ := (fits_succ (by omega)).mp h
    by_cases hpast : farthest payload groups start ≤ start'
    · exact fits_more (ih hpast hlen hrest)
    · have hmono := farthest_mono hg hzero hle
      refine (fits_succ hlast).mpr ⟨by omega, ?_⟩
      exact ih hmono (farthest_le payload groups start') hrest

/-- **The exchange.**  Induction on the pieces: the first one ends no later than the greedy one. -/
theorem fits_of_division {payload : Bytes} {groups : List (Nat × Nat)}
    (hg : GroupsOk payload groups) (hzero : IsBoundary payload 0) {limit start : Nat}
    {pieces : List Bytes} (hstart : start ≤ payload.length)
    (h : Division payload groups limit start pieces) :
    fits payload groups limit start = true := by
  induction pieces generalizing limit start with
  | nil =>
    have hdrop : payload.drop start = [] := h.join.symm
    obtain rfl : start = payload.length :=
      Nat.le_antisymm hstart (List.drop_eq_nil_iff.mp hdrop)
    exact fits_length payload groups limit
  | cons piece pieces ih =>
    obtain ⟨hlow, hhigh⟩ := h.size piece List.mem_cons_self
    have hcut : Legal payload groups (start + piece.length) :=
      h.legal (start, start + piece.length) List.mem_cons_self
    have hfar := le_farthest hcut (Nat.add_le_add_left hhigh start)
    have hcount := h.count
    rw [List.length_cons] at hcount
    obtain ⟨slots, rfl⟩ : ∃ slots, limit = slots + 1 := ⟨limit - 1, by omega⟩
    have htail : Division payload groups slots (start + piece.length) pieces := by
      refine ⟨?_, fun p hp => h.size p (List.mem_cons_of_mem _ hp), by omega,
        fun r hr => h.legal r (List.mem_cons_of_mem _ hr)⟩
      have hjoin := h.join
      rw [List.flatten_cons] at hjoin
      rw [← List.drop_drop, ← hjoin, List.drop_left]
    have hbound := hcut.boundary.1
    refine (fits_succ (by omega)).mpr ⟨by omega, ?_⟩
    exact fits_later hg hzero hfar (farthest_le payload groups start) (ih hbound htail)

/-! ## 4. The loop keeps the tail coverable -/

theorem mem_cutsOf {payload : Bytes} {boundaries : List Nat} {groups : List (Nat × Nat)} {cut : Nat}
    (h : cut ∈ cutsOf payload boundaries groups) : cut ∈ boundaries ∨ cut = payload.length := by
  have hmem := (List.mem_insertionSort _).mp h
  rcases List.mem_append.mp (List.mem_dedup.mp (List.mem_filter.mp hmem).1) with hb | hlast
  · exact Or.inl hb
  · exact Or.inr (List.mem_singleton.mp hlast)

/-- Where a chunk ends when the units left can cover the payload: a later legal cut within the
unit bound, from which the remaining units still cover the tail. -/
theorem chunkEnd_fits {payload : Bytes} {boundaries : List Nat} {groups : List (Nat × Nat)}
    {start remaining : Nat} (hg : GroupsOk payload groups) (hzero : IsBoundary payload 0)
    (hboundaries : ∀ cut ∈ boundaries, IsBoundary payload cut)
    (hgrow : start < farthest payload groups start)
    (hrest : fits payload groups remaining (farthest payload groups start) = true) :
    let stop := chunkEnd payload (cutsOf payload boundaries groups) groups start remaining
    start < stop ∧ stop ≤ start + maxUnitBytes ∧ Legal payload groups stop ∧
      fits payload groups remaining stop = true := by
  have hfar := farthest_le_unit payload groups start
  intro stop
  simp only [stop, chunkEnd]
  split
  · -- a preferred cut
    next hcut =>
    obtain ⟨hmem, hle⟩ := getD_bisectRight (d := 0) hcut.1
    refine ⟨hcut.2.1, hle.trans hfar, ⟨?_, not_inside_of_mem_cutsOf hmem⟩, hcut.2.2⟩
    rcases mem_cutsOf hmem with hb | heq
    · exact hboundaries _ hb
    · rw [heq]
      exact isBoundary_length payload
  · split
    · -- out of a CRLF pair
      next hcrlf =>
      obtain ⟨hlow, hpair, houtside, hfit⟩ := hcrlf
      have hlen := farthest_le payload groups start
      have hreturn : payload[farthest payload groups start - 1]? = some 13 := by
        have hget := congrArg (fun l : Bytes => l[0]?) hpair
        simp only [slice, List.getElem?_take, List.getElem?_drop, Nat.add_zero] at hget
        rw [if_pos (by omega)] at hget
        exact hget
      refine ⟨hlow, by omega, ⟨⟨by omega, ?_⟩, houtside⟩, hfit⟩
      rw [hreturn]
      rfl
    · exact ⟨hgrow, hfar, legal_farthest hg hzero start, hrest⟩

/-- The bytes between two boundaries of a text are a text. -/
theorem text_slice {payload : Bytes} {start stop : Nat}
    (hnul : 0 ∉ payload) (htext : (utf8Decode (payload.drop start)).isSome = true)
    (hle : start ≤ stop) (hstop : IsBoundary payload stop) :
    text (slice payload start stop) = .ok () ∧
      (utf8Decode (payload.drop stop)).isSome = true := by
  rw [← slice_append_drop hle] at htext
  obtain ⟨hchunk, htail⟩ := utf8Decode_split hstop.starts htext
  refine ⟨?_, htail⟩
  have hzero : 0 ∉ slice payload start stop := fun h =>
    hnul (List.mem_of_mem_drop (List.mem_of_mem_take h))
  rw [text, require_of hzero, require_of hchunk]
  rfl

/-- **The loop.**  Induction on the rounds; the invariant is that the units left cover what is
left. -/
theorem chunksFrom_complete {payload : Bytes} {boundaries : List Nat} {groups : List (Nat × Nat)}
    {limit rounds start count : Nat} (hg : GroupsOk payload groups)
    (hzero : IsBoundary payload 0) (hnul : 0 ∉ payload)
    (hboundaries : ∀ cut ∈ boundaries, IsBoundary payload cut)
    (htext : (utf8Decode (payload.drop start)).isSome = true) (hstart : start ≤ payload.length)
    (hrounds : payload.length ≤ start + rounds)
    (hfits : fits payload groups (limit - count) start = true) :
    ∃ chunks, chunksFrom payload (cutsOf payload boundaries groups) groups limit rounds start count =
      .ok chunks ∧ Division payload groups (limit - count) start chunks := by
  have hdone : start = payload.length → Division payload groups (limit - count) start [] := by
    intro h
    exact ⟨by simp [h], by simp, by simp, by simp [ranges]⟩
  induction rounds generalizing start count with
  | zero => exact ⟨[], rfl, hdone (by omega)⟩
  | succ rounds ih =>
    by_cases hlast : start = payload.length
    · refine ⟨[], ?_, hdone hlast⟩
      rw [chunksFrom, if_neg (by omega)]
    obtain ⟨remaining, hslots⟩ : ∃ remaining, limit - count = remaining + 1 := by
      cases hc : limit - count with
      | zero =>
        rw [hc] at hfits
        exact absurd (by simpa [fits] using hfits) hlast
      | succ remaining => exact ⟨remaining, rfl⟩
    rw [hslots, fits_succ hlast] at hfits
    obtain ⟨hgrow, hhigh, hlegal, hrest⟩ :=
      chunkEnd_fits hg hzero hboundaries hfits.1 hfits.2
    have hremaining : limit - count - 1 = remaining := by omega
    generalize hstop : chunkEnd payload (cutsOf payload boundaries groups) groups start remaining =
      stop at hgrow hhigh hlegal hrest
    obtain ⟨hchunk, htail⟩ := text_slice hnul htext hgrow.le hlegal.boundary
    have hlen : (slice payload start stop).length = stop - start :=
      length_slice hlegal.boundary.1
    have hunit : validateUnit (slice payload start stop) = .ok () := by
      rw [validateUnit, hchunk, require_of (by omega)]
      rfl
    have hleft : limit - (count + 1) = remaining := by omega
    obtain ⟨chunks, hchunks, hdiv⟩ := ih htail hlegal.boundary.1 (by omega)
      (by rw [hleft]; exact hrest) (fun h => ⟨by simp [h], by simp, by simp, by simp [ranges]⟩)
    refine ⟨slice payload start stop :: chunks, ?_, ?_⟩
    · rw [chunksFrom, if_pos (by omega), hremaining, hstop]
      simp only [hunit, ok_bind, require_of (show count + 1 ≤ limit by omega), hchunks]
    · have hnext : start + (slice payload start stop).length = stop := by omega
      refine ⟨?_, ?_, ?_, ?_⟩
      · rw [List.flatten_cons, hdiv.join, slice_append_drop hgrow.le]
      · intro piece hpiece
        rcases List.mem_cons.mp hpiece with rfl | hpiece
        · omega
        · exact hdiv.size piece hpiece
      · have := hdiv.count
        rw [List.length_cons]
        omega
      · intro r hr
        rw [ranges, hnext] at hr
        rcases List.mem_cons.mp hr with rfl | hr
        · exact hlegal
        · exact hdiv.legal r hr

/-! ## 5. Completeness -/

/-- **Completeness.**  For a text with its groups apart and its preferred boundaries between
characters, the partitioner answers exactly when some division exists, and what it answers is
one. -/
theorem partition_complete (payload : Bytes) (boundaries : List Nat) (units : Int)
    (groups : List (Nat × Nat)) (hne : payload ≠ []) (hnul : 0 ∉ payload)
    (htext : (utf8Decode payload).isSome = true) (hunits : 1 ≤ units ∧ units ≤ maxUnits)
    (hgroups : GroupsApart payload groups)
    (hboundaries : ∀ cut ∈ boundaries, 0 < cut ∧ IsBoundary payload cut) :
    ((∃ chunks, partition payload boundaries (.int units) groups = .ok chunks) ↔
      ∃ pieces, Division payload groups units.toNat 0 pieces) ∧
    ∀ chunks, partition payload boundaries (.int units) groups = .ok chunks →
      Division payload groups units.toNat 0 chunks := by
  have hzero := isBoundary_zero htext
  have hpartition : partition payload boundaries (.int units) groups =
      require (fits payload groups units.toNat 0 = true) "unit-count-budget" >>= fun _ =>
        chunksFrom payload (cutsOf payload boundaries groups) groups units.toNat
          payload.length 0 0 := by
    rw [partition, text, require_of hnul, require_of htext, require_of hne, integer_int hunits]
    rfl
  have hloop : fits payload groups units.toNat 0 = true →
      ∃ chunks, partition payload boundaries (.int units) groups = .ok chunks ∧
        Division payload groups units.toNat 0 chunks := by
    intro hfits
    rw [hpartition, require_of hfits]
    exact chunksFrom_complete hgroups.ok hzero hnul (fun cut h => (hboundaries cut h).2) htext
      (Nat.zero_le _) (by omega) hfits
  refine ⟨⟨?_, ?_⟩, ?_⟩
  · rintro ⟨chunks, h⟩
    rw [hpartition, bind_eq_ok] at h
    obtain ⟨_, hfits, -⟩ := h
    obtain ⟨pieces, -, hpieces⟩ := hloop (require_eq_ok.mp hfits)
    exact ⟨pieces, hpieces⟩
  · rintro ⟨pieces, hpieces⟩
    obtain ⟨chunks, hchunks, -⟩ :=
      hloop (fits_of_division hgroups.ok hzero (Nat.zero_le _) hpieces)
    exact ⟨chunks, hchunks⟩
  · intro chunks h
    have hfits := h
    rw [hpartition, bind_eq_ok] at hfits
    obtain ⟨_, hfits, -⟩ := hfits
    obtain ⟨pieces, hpieces, hdiv⟩ := hloop (require_eq_ok.mp hfits)
    rw [hpieces] at h
    cases h
    exact hdiv

theorem partition_complete_sample :
    ((∃ chunks, partition (bytes "ab\r\nc") [4] (.int 2) [(2, 4)] = .ok chunks) ↔
      ∃ pieces, Division (bytes "ab\r\nc") [(2, 4)] (Int.toNat 2) 0 pieces) ∧
    ∀ chunks, partition (bytes "ab\r\nc") [4] (.int 2) [(2, 4)] = .ok chunks →
      Division (bytes "ab\r\nc") [(2, 4)] (Int.toNat 2) 0 chunks := by
  have hnul : 0 ∉ bytes "ab\r\nc" := by decide
  have htext : (utf8Decode (bytes "ab\r\nc")).isSome = true := by decide
  have hcut : ∀ cut ∈ [2, 4], 0 < cut ∧ IsBoundary (bytes "ab\r\nc") cut := by
    simp only [IsBoundary]
    decide
  have hgroups : GroupsApart (bytes "ab\r\nc") [(2, 4)] := by
    refine ⟨by simp, fun g hg => ?_, fun g hg => ?_⟩
    · rw [List.mem_singleton.mp hg]
      exact (hcut 2 (by simp)).2
    · rw [List.mem_singleton.mp hg]
      exact (hcut 4 (by simp)).2
  exact partition_complete (bytes "ab\r\nc") [4] 2 [(2, 4)] (by simp [bytes]) hnul htext
    (by decide) hgroups (fun cut h => hcut cut (List.mem_cons_of_mem _ h))

end Supplementary.Review
