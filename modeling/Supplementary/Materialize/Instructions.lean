/-
# The inventory of instruction files

`InstructionInventoryFilter` selects records of `git ls-tree -r -z` while they are read: of a record it
keeps the first bytes, the last 32 and the length.  `Instructions.of` is what it keeps, as a function of
the record, so that the filter on blocks is a scan of the bytes (`call_of`), and `close_of` says that
what is kept decides as the whole record would.
-/
import Supplementary.Python.Str

namespace Supplementary.Materialize

/-! ## 1. `InstructionInventoryFilter` -/

/-- `MAX_PROTECTED_ASSET_BYTES`. -/
def maxProtectedAssetBytes : Nat := 1000000

def malformed : String := "Protected instruction inventory is malformed."

def exceeded : String := "Protected instruction inventory exceeds its resource limit."

def truncated : String := "Protected instruction inventory is truncated."

/-- `data[-n:]`. -/
def lastBytes (n : Nat) (data : Bytes) : Bytes := data.drop (data.length - n)

/-- What follows the first tab. -/
def afterTab : Bytes → Option Bytes
  | [] => none
  | b :: rest => if b = 9 then some rest else afterTab rest

/-- `chunk.split(b"\0")`. -/
def pieces : Bytes → List Bytes
  | [] => [[]]
  | b :: rest =>
    if b = 0 then [] :: pieces rest
    else
      match pieces rest with
      | [] => [[b]]
      | piece :: more => (b :: piece) :: more

def agents : Bytes := bytes "AGENTS.md"

def copilotInstructions : Bytes := bytes ".github/copilot-instructions.md"

def agentsBelow : Bytes := bytes "/AGENTS.md"

def instructionsRoot : Bytes := bytes ".github/instructions/"

def instructionsSuffix : Bytes := bytes ".instructions.md"

/-- What is kept of the record that is being read. -/
structure InstructionInventoryFilter where
  lead : Bytes := []
  suffix : Bytes := []
  size : Nat := 0

namespace InstructionInventoryFilter

def extend (s : InstructionInventoryFilter) (piece : Bytes) : InstructionInventoryFilter where
  lead := s.lead ++ piece.take (maxProtectedAssetBytes + 1 - s.lead.length)
  suffix := lastBytes 32 (s.suffix ++ piece)
  size := s.size + piece.length

/-- The end of a record: what is selected. -/
def close (s : InstructionInventoryFilter) : Except String Bytes :=
  match afterTab s.lead with
  | none => .error malformed
  | some path =>
    let complete := s.size = s.lead.length
    let wanted := complete && (path = agents || path = copilotInstructions) ||
      agentsBelow.isSuffixOf s.suffix ||
      instructionsRoot.isPrefixOf path && instructionsSuffix.isSuffixOf s.suffix
    if wanted then
      if s.size + 1 > maxProtectedAssetBytes then .error exceeded else .ok (s.lead ++ [0])
    else .ok []

/-- The loop over the pieces of a block. -/
def feed : InstructionInventoryFilter → List Bytes → Except String (Bytes × InstructionInventoryFilter)
  | s, [] => .ok ([], s)
  | s, [piece] => .ok ([], s.extend piece)
  | s, piece :: more => do
    let selected ← (s.extend piece).close
    let (rest, s') ← feed {} more
    .ok (selected ++ rest, s')

/-- `__call__(chunk)`. -/
def call (s : InstructionInventoryFilter) (chunk : Bytes) :
    Except String (Bytes × InstructionInventoryFilter) := s.feed (pieces chunk)

/-- The filter on a listing that is read in blocks. -/
def calls : InstructionInventoryFilter → List Bytes → Except String (Bytes × InstructionInventoryFilter)
  | s, [] => .ok ([], s)
  | s, chunk :: chunks => do
    let (selected, s') ← s.call chunk
    let (rest, s'') ← calls s' chunks
    .ok (selected ++ rest, s'')

def finish (s : InstructionInventoryFilter) : Except String Unit :=
  if s.size ≠ 0 then .error truncated else .ok ()

/-! ## 2. What is kept of a record -/

/-- What is kept of the bytes of a record. -/
def of (record : Bytes) : InstructionInventoryFilter where
  lead := record.take (maxProtectedAssetBytes + 1)
  suffix := lastBytes 32 record
  size := record.length

theorem lastBytes_append (n : Nat) (a b : Bytes) :
    lastBytes n (lastBytes n a ++ b) = lastBytes n (a ++ b) := by
  have hle : a.length - n ≤ a.length := Nat.sub_le _ _
  have hjoin : lastBytes n a ++ b = (a ++ b).drop (a.length - n) := by
    rw [lastBytes, List.drop_append_of_le_length hle]
  rw [hjoin, lastBytes, lastBytes, List.drop_drop, List.length_drop, List.length_append]
  congr 1
  omega

theorem extend_of (record piece : Bytes) : (of record).extend piece = of (record ++ piece) := by
  have hlead : record.take (maxProtectedAssetBytes + 1) ++
      piece.take (maxProtectedAssetBytes + 1 - (record.take (maxProtectedAssetBytes + 1)).length) =
        (record ++ piece).take (maxProtectedAssetBytes + 1) := by
    rw [List.take_append, List.length_take]
    congr 2
    omega
  rw [extend, of, of, hlead, lastBytes_append, List.length_append]

end InstructionInventoryFilter

/-! ## 3. Whole records -/

/-- The paths that are selected. -/
def isInstruction (path : Bytes) : Bool :=
  path = agents || path = copilotInstructions || agentsBelow.isSuffixOf path ||
    instructionsRoot.isPrefixOf path && instructionsSuffix.isSuffixOf path

/-- What a record adds to the inventory. -/
def judge (record : Bytes) : Except String Bytes :=
  if 9 ∉ record.take (maxProtectedAssetBytes + 1) then .error malformed
  else if (afterTab record).any isInstruction then
    if record.length + 1 > maxProtectedAssetBytes then .error exceeded else .ok (record ++ [0])
  else .ok []

/-- Git writes at most 78 bytes before the tab: the mode, the type and the object. -/
def IsRecord (record : Bytes) : Prop := 9 ∈ record → (record.takeWhile fun b => b ≠ 9).length ≤ 78

instance (record : Bytes) : Decidable (IsRecord record) := by
  unfold IsRecord
  infer_instance

theorem afterTab_eq_none {data : Bytes} : afterTab data = none ↔ 9 ∉ data := by
  induction data with
  | nil => simp [afterTab]
  | cons b data ih =>
    rw [afterTab]
    by_cases hb : b = 9
    · simp [hb]
    · rw [if_neg hb, ih, List.mem_cons, not_or]
      exact ⟨fun h => ⟨Ne.symm hb, h⟩, And.right⟩

theorem afterTab_append {identity path : Bytes} (h : 9 ∉ identity) :
    afterTab (identity ++ 9 :: path) = some path := by
  induction identity with
  | nil => rfl
  | cons b identity ih =>
    rw [List.mem_cons, not_or] at h
    rw [List.cons_append, afterTab, if_neg (Ne.symm h.1), ih h.2]

theorem exists_tab {data : Bytes} (h : 9 ∈ data) :
    ∃ path, data = (data.takeWhile fun b => b ≠ 9) ++ 9 :: path ∧ 9 ∉ data.takeWhile fun b => b ≠ 9 := by
  induction data with
  | nil => cases h
  | cons b data ih =>
    by_cases hb : b = 9
    · subst hb
      exact ⟨data, by simp, by simp⟩
    · obtain ⟨path, hpath, hnot⟩ := ih ((List.mem_cons.mp h).resolve_left (Ne.symm hb))
      refine ⟨path, ?_, ?_⟩
      · rw [List.takeWhile_cons_of_pos (by simpa using hb), List.cons_append, ← hpath]
      · rw [List.takeWhile_cons_of_pos (by simpa using hb), List.mem_cons, not_or]
        exact ⟨Ne.symm hb, hnot⟩

/-- A suffix without a tab is one of the path. -/
theorem suffix_after_tab {identity path tail : Bytes} (htail : 9 ∉ tail) :
    tail <:+ identity ++ 9 :: path ↔ tail <:+ path := by
  constructor
  · intro h
    rcases Nat.lt_or_ge path.length tail.length with hlt | hge
    · have hpath : 9 :: path <:+ identity ++ 9 :: path := List.suffix_append _ _
      have hinner := List.suffix_of_suffix_length_le hpath h (Nat.succ_le_of_lt hlt)
      exact absurd (hinner.subset List.mem_cons_self) htail
    · exact List.suffix_of_suffix_length_le h
        ((List.suffix_cons 9 path).trans (List.suffix_append _ _)) hge
  · intro h
    exact h.trans ((List.suffix_cons 9 path).trans (List.suffix_append _ _))

theorem suffix_lastBytes {data tail : Bytes} (h : tail.length ≤ 32) :
    tail <:+ lastBytes 32 data ↔ tail <:+ data := by
  constructor
  · intro hsuffix
    exact hsuffix.trans (List.drop_suffix _ _)
  · intro hsuffix
    refine List.suffix_of_suffix_length_le hsuffix (List.drop_suffix _ _) ?_
    have hle := hsuffix.length_le
    rw [lastBytes, List.length_drop]
    omega

theorem prefix_take {n : Nat} {head path : Bytes} (h : head.length ≤ n) :
    head <+: path.take n ↔ head <+: path := by
  rw [List.prefix_take_iff]
  exact and_iff_left h

theorem take_eq_iff {n : Nat} {path word : Bytes} (h : word.length < n) :
    path.take n = word ↔ path = word := by
  constructor
  · intro heq
    have hlength := congrArg List.length heq
    rw [List.length_take] at hlength
    rwa [List.take_of_length_le (by omega)] at heq
  · rintro rfl
    exact List.take_of_length_le (Nat.le_of_lt h)

namespace InstructionInventoryFilter

/-- What is kept decides as the record would. -/
theorem close_of {record : Bytes} (h : IsRecord record) : (of record).close = judge record := by
  have hbudget : maxProtectedAssetBytes = 1000000 := rfl
  by_cases htab : 9 ∈ record.take (maxProtectedAssetBytes + 1)
  · have hmem : 9 ∈ record := List.mem_of_mem_take htab
    obtain ⟨path, hrecord, hidentity⟩ := exists_tab hmem
    have hbound := h hmem
    generalize record.takeWhile (fun b => decide (b ≠ 9)) = identity at hrecord hidentity hbound
    subst hrecord
    have hlead : (identity ++ 9 :: path).take (maxProtectedAssetBytes + 1) =
        identity ++ 9 :: path.take (maxProtectedAssetBytes - identity.length) := by
      rw [List.take_append, List.take_of_length_le (by omega),
        Nat.succ_sub (by omega), List.take_succ_cons]
    have hlength : (identity ++ 9 :: path).length = identity.length + 1 + path.length := by
      rw [List.length_append, List.length_cons]
      omega
    have hcomplete : ((identity ++ 9 :: path).length =
        (identity ++ 9 :: path.take (maxProtectedAssetBytes - identity.length)).length) ↔
          path.length ≤ maxProtectedAssetBytes - identity.length := by
      rw [hlength, List.length_append, List.length_cons, List.length_take]
      omega
    have hwhole : path.length ≤ maxProtectedAssetBytes - identity.length ∧
        (path.take (maxProtectedAssetBytes - identity.length) = agents ∨
          path.take (maxProtectedAssetBytes - identity.length) = copilotInstructions) ↔
        path = agents ∨ path = copilotInstructions := by
      have hagents : agents.length = 9 := rfl
      have hcopilot : copilotInstructions.length = 31 := rfl
      rw [take_eq_iff (by omega), take_eq_iff (by omega)]
      refine and_iff_right_of_imp ?_
      rintro (rfl | rfl)
      · omega
      · omega
    have hwanted : (decide ((identity ++ 9 :: path).length =
          (identity ++ 9 :: path.take (maxProtectedAssetBytes - identity.length)).length) &&
          (path.take (maxProtectedAssetBytes - identity.length) = agents ||
            path.take (maxProtectedAssetBytes - identity.length) = copilotInstructions) ||
        agentsBelow.isSuffixOf (lastBytes 32 (identity ++ 9 :: path)) ||
        instructionsRoot.isPrefixOf (path.take (maxProtectedAssetBytes - identity.length)) &&
          instructionsSuffix.isSuffixOf (lastBytes 32 (identity ++ 9 :: path))) =
        isInstruction path := by
      have hroot : instructionsRoot.length = 21 := rfl
      rw [Bool.eq_iff_iff, isInstruction]
      simp only [Bool.or_eq_true, Bool.and_eq_true, decide_eq_true_eq, List.isSuffixOf_iff_suffix,
        List.isPrefixOf_iff_prefix]
      rw [hcomplete, hwhole, suffix_lastBytes (by decide), suffix_lastBytes (by decide),
        suffix_after_tab (by decide), suffix_after_tab (by decide), prefix_take (by omega)]
    rw [judge, if_neg (not_not_intro htab), afterTab_append hidentity, Option.any_some, of, hlead, close]
    dsimp only
    rw [afterTab_append hidentity]
    dsimp only
    rw [hwanted]
    by_cases hselected : isInstruction path = true
    · rw [if_pos hselected, if_pos hselected]
      by_cases hlong : (identity ++ 9 :: path).length + 1 > maxProtectedAssetBytes
      · rw [if_pos hlong, if_pos hlong]
      · rw [if_neg hlong, if_neg hlong, List.take_of_length_le (by omega)]
    · rw [if_neg hselected, if_neg hselected]
  · rw [judge, if_pos htab, close]
    dsimp only [of]
    rw [afterTab_eq_none.mpr htab]

end InstructionInventoryFilter

/-! ## 4. The scan of a listing -/

/-- The inventory of a listing and the bytes after its last record, `record` being the one that is read. -/
def scan : (record : Bytes) → Bytes → Except String (Bytes × Bytes)
  | record, [] => .ok ([], record)
  | record, b :: rest =>
    if b = 0 then do
      let selected ← judge record
      let (more, last) ← scan [] rest
      .ok (selected ++ more, last)
    else scan (record ++ [b]) rest

theorem scan_append (record a b : Bytes) : scan record (a ++ b) =
    scan record a >>= fun r => scan r.2 b >>= fun r' => .ok (r.1 ++ r'.1, r'.2) := by
  induction a generalizing record with
  | nil =>
    cases hb : scan record b with
    | error e => simp [scan, hb]
    | ok r => simp [scan, hb]
  | cons c a ih =>
    rw [List.cons_append, scan, scan]
    by_cases hc : c = 0
    · rw [if_pos hc, if_pos hc, ih]
      cases judge record with
      | error e => rfl
      | ok selected =>
        simp only [ok_bind]
        cases scan [] a with
        | error e => rfl
        | ok r =>
          simp only [ok_bind]
          cases scan r.2 b with
          | error e => rfl
          | ok r' => simp only [ok_bind, List.append_assoc]
    · rw [if_neg hc, if_neg hc, ih]

theorem scan_plain {record a b : Bytes} (h : 0 ∉ a) : scan record (a ++ b) = scan (record ++ a) b := by
  induction a generalizing record with
  | nil => rw [List.nil_append, List.append_nil]
  | cons c a ih =>
    rw [List.mem_cons, not_or] at h
    rw [List.cons_append, scan, if_neg (Ne.symm h.1), ih h.2, List.append_assoc, List.singleton_append]

/-- A listing of records, each with its NUL, and the bytes after the last NUL. -/
def listingOf (records : List Bytes) (rest : Bytes) : Bytes := records.flatMap (· ++ [0]) ++ rest

theorem listingOf_cons (record : Bytes) (records : List Bytes) (rest : Bytes) :
    listingOf (record :: records) rest = record ++ 0 :: listingOf records rest := by
  simp only [listingOf, List.flatMap_cons, List.append_assoc, List.cons_append, List.nil_append]

theorem scan_listing {records : List Bytes} {rest : Bytes} (hrecords : ∀ r ∈ records, 0 ∉ r)
    (hrest : 0 ∉ rest) : scan [] (listingOf records rest) =
      (records.mapM judge).map fun selected => (selected.flatten, rest) := by
  induction records with
  | nil =>
    have hplain := @scan_plain [] rest [] hrest
    rw [List.append_nil, List.nil_append] at hplain
    exact hplain
  | cons record records ih =>
    obtain ⟨hrecord, hrecords⟩ := List.forall_mem_cons.mp hrecords
    rw [listingOf_cons, scan_plain hrecord, List.nil_append, scan, if_pos rfl, ih hrecords,
      List.mapM_cons]
    cases judge record with
    | error e => rfl
    | ok selected =>
      simp only [ok_bind]
      cases records.mapM judge <;> rfl

/-! ## 5. Blocks -/

/-- Every record that ends in the bytes is one that Git writes. -/
def AreRecords : (record : Bytes) → Bytes → Prop
  | _, [] => True
  | record, b :: rest =>
    if b = 0 then IsRecord record ∧ AreRecords [] rest else AreRecords (record ++ [b]) rest

theorem areRecords_append {record a b : Bytes} {r : Bytes × Bytes} (h : AreRecords record (a ++ b))
    (hscan : scan record a = .ok r) : AreRecords record a ∧ AreRecords r.2 b := by
  induction a generalizing record r with
  | nil =>
    cases hscan
    exact ⟨trivial, h⟩
  | cons c a ih =>
    rw [List.cons_append, AreRecords] at h
    rw [scan] at hscan
    rw [AreRecords]
    by_cases hc : c = 0
    · rw [if_pos hc] at h hscan ⊢
      obtain ⟨selected, -, hscan⟩ := bind_eq_ok.mp hscan
      obtain ⟨r', hr', hscan⟩ := bind_eq_ok.mp hscan
      cases hscan
      exact ⟨⟨h.1, (ih h.2 hr').1⟩, (ih h.2 hr').2⟩
    · rw [if_neg hc] at h hscan ⊢
      exact ih h hscan

theorem areRecords_left {record a b : Bytes} (h : AreRecords record (a ++ b)) : AreRecords record a := by
  induction a generalizing record with
  | nil => trivial
  | cons c a ih =>
    rw [List.cons_append, AreRecords] at h
    rw [AreRecords]
    by_cases hc : c = 0
    · rw [if_pos hc] at h ⊢
      exact ⟨h.1, ih h.2⟩
    · rw [if_neg hc] at h ⊢
      exact ih h

theorem areRecords_plain {record a b : Bytes} (ha : 0 ∉ a) (h : AreRecords (record ++ a) b) :
    AreRecords record (a ++ b) := by
  induction a generalizing record with
  | nil => rwa [List.append_nil] at h
  | cons c a ih =>
    rw [List.mem_cons, not_or] at ha
    rw [List.cons_append, AreRecords, if_neg (Ne.symm ha.1)]
    refine ih ha.2 ?_
    rwa [List.append_assoc, List.singleton_append]

theorem areRecords_listing {records : List Bytes} {rest : Bytes}
    (hrecords : ∀ r ∈ records, 0 ∉ r ∧ IsRecord r) (hrest : 0 ∉ rest) :
    AreRecords [] (listingOf records rest) := by
  induction records with
  | nil =>
    have hplain := @areRecords_plain [] rest [] hrest trivial
    rwa [List.append_nil] at hplain
  | cons record records ih =>
    obtain ⟨⟨hplain, hrecord⟩, hrecords⟩ := List.forall_mem_cons.mp hrecords
    rw [listingOf_cons]
    refine areRecords_plain hplain ?_
    rw [List.nil_append, AreRecords, if_pos rfl]
    exact ⟨hrecord, ih hrecords⟩

theorem pieces_ne_nil (data : Bytes) : pieces data ≠ [] := by
  cases data with
  | nil => simp [pieces]
  | cons b data =>
    rw [pieces]
    split
    · simp
    · split <;> simp

namespace InstructionInventoryFilter

theorem feed_more (s : InstructionInventoryFilter) (piece : Bytes) {more : List Bytes} (h : more ≠ []) :
    s.feed (piece :: more) = (s.extend piece).close >>= fun selected =>
      feed {} more >>= fun r => .ok (selected ++ r.1, r.2) := by
  cases more with
  | nil => exact absurd rfl h
  | cons piece' more => rfl

theorem feed_cons (record : Bytes) (b : UInt8) (piece : Bytes) (more : List Bytes) :
    (of record).feed ((b :: piece) :: more) = (of (record ++ [b])).feed (piece :: more) := by
  have hsame : record ++ b :: piece = record ++ [b] ++ piece := by simp
  cases more with
  | nil => rw [feed, feed, extend_of, extend_of, hsame]
  | cons piece' more =>
    rw [feed_more _ _ (List.cons_ne_nil _ _), feed_more _ _ (List.cons_ne_nil _ _), extend_of, extend_of,
      hsame]

/-- **A block, read as its bytes.** -/
theorem call_of {record chunk : Bytes} (h : AreRecords record chunk) :
    (of record).call chunk = (scan record chunk).map fun r => (r.1, of r.2) := by
  unfold call
  induction chunk generalizing record with
  | nil =>
    rw [pieces, feed, extend_of, List.append_nil]
    rfl
  | cons b chunk ih =>
    rw [AreRecords] at h
    rw [pieces, scan]
    by_cases hb : b = 0
    · rw [if_pos hb] at h
      rw [if_pos hb, if_pos hb]
      have hrest := ih h.2
      have hempty : (of [] : InstructionInventoryFilter) = {} := rfl
      rw [hempty] at hrest
      rw [feed_more _ _ (pieces_ne_nil chunk), extend_of, List.append_nil, close_of h.1, hrest]
      cases judge record with
      | error e => rfl
      | ok selected =>
        simp only [ok_bind]
        cases scan [] chunk <;> rfl
    · rw [if_neg hb] at h
      rw [if_neg hb, if_neg hb]
      cases hpieces : pieces chunk with
      | nil => exact absurd hpieces (pieces_ne_nil chunk)
      | cons piece more =>
        dsimp only
        rw [feed_cons, ← hpieces, ih h]

theorem calls_of {record : Bytes} {chunks : List Bytes} (h : AreRecords record chunks.flatten) :
    (of record).calls chunks = (scan record chunks.flatten).map fun r => (r.1, of r.2) := by
  induction chunks generalizing record with
  | nil => rfl
  | cons chunk chunks ih =>
    rw [List.flatten_cons] at h ⊢
    rw [calls, call_of (areRecords_left h), scan_append]
    cases hscan : scan record chunk with
    | error e => rfl
    | ok r =>
      have hrest := ih (areRecords_append h hscan).2
      simp only [Except.map, ok_bind, hrest]
      cases scan r.2 chunks.flatten <;> rfl

end InstructionInventoryFilter

/-! ## 6. The inventory -/

/-- The record is no record, or is selected and does not fit. -/
def Refused (record : Bytes) : Prop :=
  9 ∉ record.take (maxProtectedAssetBytes + 1) ∨
    (afterTab record).any isInstruction = true ∧ record.length + 1 > maxProtectedAssetBytes

/-- The records that are selected. -/
def selected (records : List Bytes) : List Bytes :=
  records.filter fun r => (afterTab r).any isInstruction

theorem judge_refused {record : Bytes} (h : Refused record) : ∃ message, judge record = .error message := by
  unfold judge
  rcases h with h | ⟨hselected, hlong⟩
  · exact ⟨_, if_pos h⟩
  · split_ifs
    · exact ⟨_, rfl⟩
    · exact ⟨_, rfl⟩

theorem judge_eq {record : Bytes} (h : ¬ Refused record) : judge record =
    .ok (if (afterTab record).any isInstruction then record ++ [0] else []) := by
  rw [Refused, not_or, not_and] at h
  unfold judge
  rw [if_neg h.1]
  split_ifs with hselected hlong
  · exact absurd hlong (h.2 hselected)
  · rfl
  · rfl

theorem flatten_selected (records : List Bytes) :
    (records.map fun r => if (afterTab r).any isInstruction = true then r ++ [0] else []).flatten =
      (selected records).flatMap (· ++ [0]) := by
  induction records with
  | nil => rfl
  | cons record records ih =>
    rw [List.map_cons, List.flatten_cons, ih, selected, selected, List.filter_cons]
    split_ifs
    · rw [List.flatMap_cons]
    · rfl

/-- The records are judged one by one. -/
theorem judged_eq_ok {records : List Bytes} {rest : Bytes} {result : Bytes × Bytes} :
    ((records.mapM judge).map fun parts => (parts.flatten, rest)) = .ok result ↔
      (∀ r ∈ records, ¬ Refused r) ∧ result = ((selected records).flatMap (· ++ [0]), rest) := by
  by_cases hrefused : ∃ r ∈ records, Refused r
  · obtain ⟨r, hr, hbad⟩ := hrefused
    refine iff_of_false ?_ fun h => h.1 r hr hbad
    cases hjudged : records.mapM judge with
    | error message => rintro ⟨⟩
    | ok parts =>
      obtain ⟨part, -, hpart⟩ := exists_of_forall₂ (mapM_eq_ok hjudged) hr
      obtain ⟨message, hmessage⟩ := judge_refused hbad
      rw [hmessage] at hpart
      cases hpart
  · have hall : ∀ r ∈ records, ¬ Refused r := fun r hr hbad => hrefused ⟨r, hr, hbad⟩
    have hjudged : records.mapM judge =
        .ok (records.map fun r => if (afterTab r).any isInstruction then r ++ [0] else []) :=
      mapM_eq_map fun r hr => judge_eq (hall r hr)
    rw [hjudged, and_iff_right hall, ← flatten_selected]
    exact ⟨fun h => (Except.ok.inj h).symm, fun h => congrArg _ h.symm⟩

/-- The filter on a listing, read in any blocks. -/
theorem calls_listing {records : List Bytes} {rest : Bytes} {chunks : List Bytes}
    (hrecords : ∀ r ∈ records, 0 ∉ r ∧ IsRecord r) (hrest : 0 ∉ rest)
    (hchunks : chunks.flatten = listingOf records rest) {result : Bytes × InstructionInventoryFilter} :
    InstructionInventoryFilter.calls {} chunks = .ok result ↔ (∀ r ∈ records, ¬ Refused r) ∧
      result = ((selected records).flatMap (· ++ [0]), .of rest) := by
  have hplain : ∀ r ∈ records, 0 ∉ r := fun r hr => (hrecords r hr).1
  have hareRecords : AreRecords [] chunks.flatten := hchunks ▸ areRecords_listing hrecords hrest
  have hrun := InstructionInventoryFilter.calls_of hareRecords
  rw [hchunks, scan_listing hplain hrest] at hrun
  have hstart : (InstructionInventoryFilter.of [] : InstructionInventoryFilter) = {} := rfl
  rw [← hstart, hrun]
  constructor
  · intro h
    obtain ⟨r, hr, rfl⟩ := map_eq_ok.mp h
    obtain ⟨hall, rfl⟩ := judged_eq_ok.mp hr
    exact ⟨hall, rfl⟩
  · rintro ⟨hall, rfl⟩
    exact map_eq_ok.mpr ⟨_, judged_eq_ok.mpr ⟨hall, rfl⟩, rfl⟩

theorem finish_of (rest : Bytes) :
    (∃ message, (InstructionInventoryFilter.of rest).finish = .error message) ↔ rest ≠ [] := by
  unfold InstructionInventoryFilter.finish InstructionInventoryFilter.of
  cases rest with
  | nil =>
    refine iff_of_false ?_ (not_not_intro rfl)
    rintro ⟨message, h⟩
    cases h
  | cons b rest => exact iff_of_true ⟨truncated, rfl⟩ (List.cons_ne_nil _ _)

/-- **The bounded inventory is exact.** -/
theorem inventory_exact {records : List Bytes} {rest : Bytes} {chunks : List Bytes}
    (hrecords : ∀ r ∈ records, 0 ∉ r ∧ IsRecord r) (hrest : 0 ∉ rest)
    (hchunks : chunks.flatten = listingOf records rest) :
    ((∃ message, InstructionInventoryFilter.calls {} chunks = .error message) ↔ ∃ r ∈ records, Refused r) ∧
    ∀ output s, InstructionInventoryFilter.calls {} chunks = .ok (output, s) →
      output = (selected records).flatMap (· ++ [0]) ∧
        ((∃ message, s.finish = .error message) ↔ rest ≠ []) := by
  constructor
  · cases hcalls : InstructionInventoryFilter.calls {} chunks with
    | error message =>
      refine iff_of_true ⟨message, rfl⟩ ?_
      by_contra hnone
      have hok := (calls_listing hrecords hrest hchunks).mpr
        ⟨fun r hr hbad => hnone ⟨r, hr, hbad⟩, rfl⟩
      rw [hcalls] at hok
      cases hok
    | ok result =>
      refine iff_of_false (by rintro ⟨message, ⟨⟩⟩) ?_
      rintro ⟨r, hr, hbad⟩
      exact ((calls_listing hrecords hrest hchunks).mp hcalls).1 r hr hbad
  · intro output s hcalls
    obtain ⟨-, heq⟩ := (calls_listing hrecords hrest hchunks).mp hcalls
    cases heq
    exact ⟨rfl, finish_of rest⟩

end Supplementary.Materialize
