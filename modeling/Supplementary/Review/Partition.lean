/-
# Cutting the payload into units

`partition` walks the payload once.  From each start it takes the farthest legal end, then steps
back to the last preferred cut (a file, hunk or group boundary) or out of a CRLF pair when the
units that are left can still cover the tail.

The hard constraints are the unit bound, UTF-8, and the semantic groups.  UTF-8 and the bound are
re-checked on every chunk; the groups are not, so that no cut falls inside one is an argument
about `farthest`: it leaves each group it lands in, and then backs over continuation bytes only,
which lie inside no group's boundary character.
-/
import Supplementary.Review.Records
import Mathlib.Data.List.TakeWhile

namespace Supplementary.Review

open Supplementary Tiling

/-! ## 1. Ends of a chunk -/

/-- `a < cut < b` for a group `(a, b)`. -/
def Inside (cut : Nat) (group : Nat × Nat) : Prop := group.1 < cut ∧ cut < group.2

instance (cut : Nat) (group : Nat × Nat) : Decidable (Inside cut group) :=
  inferInstanceAs (Decidable (group.1 < cut ∧ cut < group.2))

/-- `for a, b in groups: if a < end < b: end = a`. -/
def leaveGroups (groups : List (Nat × Nat)) (stop : Nat) : Nat :=
  groups.foldl (fun stop group => if Inside stop group then group.1 else stop) stop

/-- `while end < len(payload) and payload[end] & 0xC0 == 0x80: end -= 1`.  A text does not begin
with a continuation byte, so the source's loop does not run below zero. -/
def backUp (payload : Bytes) : Nat → Nat
  | 0 => 0
  | stop + 1 => if (payload[stop + 1]?).any isContinuation then backUp payload stop else stop + 1

/-- `farthest(start)`. -/
def farthest (payload : Bytes) (groups : List (Nat × Nat)) (start : Nat) : Nat :=
  backUp payload (leaveGroups groups (min (start + maxUnitBytes) payload.length))

/-- `fits(start, slots)`. -/
def fits (payload : Bytes) (groups : List (Nat × Nat)) : (slots start : Nat) → Bool
  | 0, start => start = payload.length
  | slots + 1, start =>
    if start = payload.length then true
    else
      let stop := farthest payload groups start
      if stop ≤ start then false else fits payload groups slots stop

/-- `sorted(cut for cut in set(boundaries + [len(payload)]) if not any(...))`. -/
def cutsOf (payload : Bytes) (boundaries : List Nat) (groups : List (Nat × Nat)) : List Nat :=
  ((boundaries ++ [payload.length]).dedup.filter fun cut =>
    ∀ group ∈ groups, ¬ Inside cut group).insertionSort (· ≤ ·)

/-- `bisect.bisect_right(cuts, x)` on a sorted list. -/
def bisectRight (cuts : List Nat) (x : Nat) : Nat := (cuts.takeWhile (· ≤ x)).length

/-- Where one iteration ends the chunk it starts at `start`, with `remaining` units after it. -/
def chunkEnd (payload : Bytes) (cuts : List Nat) (groups : List (Nat × Nat))
    (start remaining : Nat) : Nat :=
  let stop := farthest payload groups start
  let cut := cuts.getD (bisectRight cuts stop - 1) 0
  if 0 < bisectRight cuts stop ∧ start < cut ∧ fits payload groups remaining cut then cut
  else if start < stop - 1 ∧ slice payload (stop - 1) (stop + 1) = bytes "\r\n" ∧
      (∀ group ∈ groups, ¬ Inside (stop - 1) group) ∧ fits payload groups remaining (stop - 1) then
    stop - 1
  else stop

/-! ## 2. The loop -/

/-- `while start < len(payload)`, after `count` chunks.  A chunk is not empty, so as many rounds
as there are bytes are enough. -/
def chunksFrom (payload : Bytes) (cuts : List Nat) (groups : List (Nat × Nat)) (limit : Nat) :
    (rounds start count : Nat) → Py (List Bytes)
  | 0, _, _ => .ok []
  | rounds + 1, start, count =>
    if start < payload.length then do
      let stop := chunkEnd payload cuts groups start (limit - count - 1)
      let chunk := slice payload start stop
      validateUnit chunk
      require (count + 1 ≤ limit) "unit-count-budget"
      let chunks ← chunksFrom payload cuts groups limit rounds stop (count + 1)
      .ok (chunk :: chunks)
    else .ok []

/-- `partition(payload, boundaries, max_units, groups)`. -/
def partition (payload : Bytes) (boundaries : List Nat) (maxUnits : Value)
    (groups : List (Nat × Nat)) : Py (List Bytes) := do
  text payload
  require (payload ≠ []) "empty-input"
  let limit ← integer maxUnits 1 Review.maxUnits "unit-count-budget"
  let limit := limit.1.toNat
  let cuts := cutsOf payload boundaries groups
  require (fits payload groups limit 0 = true) "unit-count-budget"
  chunksFrom payload cuts groups limit payload.length 0 0

/-! ## 3. No end lies inside a group -/

/-- Groups as `plan` merges them: in order, without overlap, each ending on a character. -/
structure GroupsOk (payload : Bytes) (groups : List (Nat × Nat)) : Prop where
  ordered : groups.Pairwise fun g h => g.2 ≤ h.1
  stop : ∀ g ∈ groups, (payload[g.2]?).any isContinuation = false

theorem leaveGroups_le (groups : List (Nat × Nat)) (stop : Nat) :
    leaveGroups groups stop ≤ stop := by
  induction groups generalizing stop with
  | nil => exact le_rfl
  | cons g gs ih =>
    simp only [leaveGroups, List.foldl_cons]
    split
    · next hin => exact (ih g.1).trans hin.1.le
    · exact ih stop

/-- The fold ends where it started or at the start of some group. -/
theorem leaveGroups_eq (groups : List (Nat × Nat)) (stop : Nat) :
    leaveGroups groups stop = stop ∨ ∃ g ∈ groups, leaveGroups groups stop = g.1 := by
  induction groups generalizing stop with
  | nil => exact Or.inl rfl
  | cons g gs ih =>
    simp only [leaveGroups, List.foldl_cons]
    split
    · rcases ih g.1 with h | ⟨k, hk, h⟩
      · exact Or.inr ⟨g, by simp, h⟩
      · exact Or.inr ⟨k, List.mem_cons_of_mem _ hk, h⟩
    · rcases ih stop with h | ⟨k, hk, h⟩
      · exact Or.inl h
      · exact Or.inr ⟨k, List.mem_cons_of_mem _ hk, h⟩

/-- One pass over ordered groups leaves them all: stepping out of one lands before the later
ones and not inside an earlier one. -/
theorem leaveGroups_not_inside {groups : List (Nat × Nat)}
    (h : groups.Pairwise fun g h => g.2 ≤ h.1) (stop : Nat) :
    ∀ g ∈ groups, ¬ Inside (leaveGroups groups stop) g := by
  induction groups generalizing stop with
  | nil => simp
  | cons g gs ih =>
    obtain ⟨hfirst, hrest⟩ := List.pairwise_cons.mp h
    have hstep : leaveGroups (g :: gs) stop =
        leaveGroups gs (if Inside stop g then g.1 else stop) := rfl
    intro k hk
    rw [hstep]
    rcases List.mem_cons.mp hk with rfl | hk
    · rcases leaveGroups_eq gs (if Inside stop k then k.1 else stop) with heq | ⟨j, hj, heq⟩
      · rw [heq]
        split
        · exact fun hin => absurd hin.1 (lt_irrefl _)
        · assumption
      · rw [heq]
        exact fun hin => absurd (hin.2.trans_le (hfirst j hj)) (lt_irrefl _)
    · exact ih hrest _ k hk

theorem backUp_le (payload : Bytes) (stop : Nat) : backUp payload stop ≤ stop := by
  induction stop with
  | zero => exact le_rfl
  | succ stop ih =>
    unfold backUp
    split
    · exact ih.trans (Nat.le_succ stop)
    · exact le_rfl

/-- What `backUp` passes over are continuation bytes. -/
theorem isContinuation_of_backUp {payload : Bytes} {stop x : Nat} (hx : backUp payload stop < x)
    (hstop : x ≤ stop) : (payload[x]?).any isContinuation = true := by
  induction stop with
  | zero => simp [backUp] at hx; omega
  | succ stop ih =>
    unfold backUp at hx
    split at hx
    · rename_i hcont
      rcases Nat.lt_or_ge stop x with hlt | hge
      · obtain rfl : x = stop + 1 := by omega
        exact hcont
      · exact ih hx hge
    · omega

/-- Backing up enters no group, since it would have to pass the character the group ends on. -/
theorem backUp_not_inside {payload : Bytes} {g : Nat × Nat} {stop : Nat}
    (hend : (payload[g.2]?).any isContinuation = false) (h : ¬ Inside stop g) :
    ¬ Inside (backUp payload stop) g := by
  rintro ⟨hlow, hhigh⟩
  have hle := backUp_le payload stop
  have hpast : g.2 ≤ stop := by
    by_contra hlt
    exact h ⟨by omega, by omega⟩
  rw [isContinuation_of_backUp hhigh hpast] at hend
  cases hend

theorem farthest_not_inside {payload : Bytes} {groups : List (Nat × Nat)}
    (h : GroupsOk payload groups) (start : Nat) :
    ∀ g ∈ groups, ¬ Inside (farthest payload groups start) g := by
  intro g hg
  exact backUp_not_inside (h.stop g hg) (leaveGroups_not_inside h.ordered _ g hg)

theorem farthest_le (payload : Bytes) (groups : List (Nat × Nat)) (start : Nat) :
    farthest payload groups start ≤ payload.length :=
  (backUp_le _ _).trans ((leaveGroups_le _ _).trans (min_le_right _ _))

/-! ## 4. One chunk -/

/-- Reading the element before `bisectRight` gives one that is in the list and not past `x`. -/
theorem getD_bisectRight {cuts : List Nat} {x d : Nat} (h : 0 < bisectRight cuts x) :
    cuts.getD (bisectRight cuts x - 1) d ∈ cuts ∧ cuts.getD (bisectRight cuts x - 1) d ≤ x := by
  have hpre : cuts.takeWhile (· ≤ x) <+: cuts := List.takeWhile_prefix _
  have hlt : bisectRight cuts x - 1 < (cuts.takeWhile (· ≤ x)).length := Nat.sub_lt h Nat.one_pos
  have hget : cuts.getD (bisectRight cuts x - 1) d =
      (cuts.takeWhile (· ≤ x))[bisectRight cuts x - 1] := by
    rw [hpre.getElem hlt, List.getD_eq_getElem?_getD,
      List.getElem?_eq_getElem (hlt.trans_le hpre.length_le), Option.getD_some]
  have hmem := List.getElem_mem hlt
  rw [hget]
  exact ⟨hpre.subset hmem, by simpa using List.mem_takeWhile_imp hmem⟩

theorem not_inside_of_mem_cutsOf {payload : Bytes} {boundaries : List Nat}
    {groups : List (Nat × Nat)} {cut : Nat} (h : cut ∈ cutsOf payload boundaries groups) :
    ∀ g ∈ groups, ¬ Inside cut g := by
  have hmem := (List.mem_insertionSort _).mp h
  simpa using (List.mem_filter.mp hmem).2

/-- Where a chunk ends: inside no group and not past the payload. -/
theorem chunkEnd_spec {payload : Bytes} {boundaries : List Nat} {groups : List (Nat × Nat)}
    (h : GroupsOk payload groups) (start remaining : Nat) :
    (∀ g ∈ groups,
      ¬ Inside (chunkEnd payload (cutsOf payload boundaries groups) groups start remaining) g) ∧
    chunkEnd payload (cutsOf payload boundaries groups) groups start remaining ≤
      payload.length := by
  have hfar := farthest_le payload groups start
  simp only [chunkEnd]
  split
  · rename_i hcut
    obtain ⟨hmem, hle⟩ := getD_bisectRight (d := 0) hcut.1
    exact ⟨not_inside_of_mem_cutsOf hmem, hle.trans hfar⟩
  · split
    · rename_i hcrlf
      exact ⟨hcrlf.2.2.1, (Nat.sub_le _ _).trans hfar⟩
    · exact ⟨farthest_not_inside h start, hfar⟩

/-! ## 5. The whole partition -/

/-- The byte ranges of consecutive chunks, from `start` on. -/
def ranges (start : Nat) : List Bytes → List (Nat × Nat)
  | [] => []
  | chunk :: chunks => (start, start + chunk.length) :: ranges (start + chunk.length) chunks

/-- Chunks that are not empty tile the bytes they come from. -/
theorem tiles_ranges {chunks : List Bytes} (h : ∀ chunk ∈ chunks, 1 ≤ chunk.length)
    (start : Nat) : Tiles (ranges start chunks) start (start + chunks.flatten.length) := by
  induction chunks generalizing start with
  | nil => simp [ranges]
  | cons chunk chunks ih =>
    have hhead := h chunk (by simp)
    have hrest := ih (fun c hc => h c (List.mem_cons_of_mem _ hc)) (start + chunk.length)
    refine ⟨rfl, by omega, ?_⟩
    rwa [List.flatten_cons, List.length_append, ← Nat.add_assoc]

/-- What the partitioner promises about the chunks it cut from `start` on. -/
structure Cut (payload : Bytes) (groups : List (Nat × Nat)) (limit start : Nat)
    (chunks : List Bytes) : Prop where
  join : chunks.flatten = payload.drop start
  unit : ∀ chunk ∈ chunks, validateUnit chunk = .ok ()
  count : chunks.length ≤ limit
  outside : ∀ r ∈ ranges start chunks, ∀ g ∈ groups, ¬ Inside r.2 g

/-- **The loop.**  Induction on the rounds: each chunk begins where the one before it ended. -/
theorem chunksFrom_spec {payload : Bytes} {boundaries : List Nat} {groups : List (Nat × Nat)}
    {limit rounds start count : Nat} {chunks : List Bytes} (hg : GroupsOk payload groups)
    (hstart : start ≤ payload.length) (hrounds : payload.length ≤ start + rounds)
    (h : chunksFrom payload (cutsOf payload boundaries groups) groups limit rounds start count =
      .ok chunks) : Cut payload groups (limit - count) start chunks := by
  induction rounds generalizing start count chunks with
  | zero =>
    cases h
    exact ⟨by simp [show start = payload.length by omega], by simp, by simp, by simp [ranges]⟩
  | succ rounds ih =>
    simp only [chunksFrom] at h
    split at h
    · simp only [bind_eq_ok, require_eq_ok] at h
      obtain ⟨_, hunit, _, hcount, chunks', hrest, h⟩ := h
      cases h
      generalize hstop :
        chunkEnd payload (cutsOf payload boundaries groups) groups start (limit - count - 1) = stop
        at hunit hrest
      obtain ⟨hinside, hle⟩ := hstop ▸ chunkEnd_spec hg start (limit - count - 1)
      obtain ⟨-, hlow, -⟩ := validateUnit_eq_ok hunit
      have hlen : (slice payload start stop).length = stop - start := length_slice hle
      have hnext : start + (slice payload start stop).length = stop := by omega
      have hcut := ih hle (by omega) hrest
      refine ⟨?_, ?_, ?_, ?_⟩
      · rw [List.flatten_cons, hcut.join, slice_append_drop (by omega)]
      · intro chunk hchunk
        rcases List.mem_cons.mp hchunk with rfl | hchunk
        · exact hunit
        · exact hcut.unit chunk hchunk
      · have := hcut.count
        simp only [List.length_cons]
        omega
      · intro r hr
        rw [ranges, hnext] at hr
        rcases List.mem_cons.mp hr with rfl | hr
        · exact hinside
        · exact hcut.outside r hr
    · cases h
      exact ⟨by simp [show payload.drop start = [] from List.drop_eq_nil_iff.mpr (by omega)],
        by simp, by simp, by simp [ranges]⟩

/-- **The partition.**  Its chunks are the payload, each is a unit, no more than allowed, and no
cut is inside a group. -/
theorem partition_spec {payload : Bytes} {boundaries : List Nat} {maxUnits : Value}
    {groups : List (Nat × Nat)} {chunks : List Bytes} (hg : GroupsOk payload groups)
    (h : partition payload boundaries maxUnits groups = .ok chunks) :
    ∃ limit : Nat, maxUnits = .int limit ∧ Cut payload groups limit 0 chunks := by
  simp only [partition, bind_eq_ok, require_eq_ok] at h
  obtain ⟨_, -, _, -, limit, hlimit, _, -, h⟩ := h
  have hpos := limit.2.1
  refine ⟨limit.1.toNat, ?_, ?_⟩
  · rw [integer_eq_ok hlimit, Int.toNat_of_nonneg (by omega)]
  · simpa using chunksFrom_spec hg (Nat.zero_le _) (by omega) h

end Supplementary.Review
