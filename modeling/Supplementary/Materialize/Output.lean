/-
# Bounded Git output

`git_output` with a limit reads the standard output of a command while it runs, and kills the command
when it has seen one byte more than it may keep.  What it returns is all of the output, through the
filter if there is one, or nothing (`gitOutput_eq_ok`).
-/
import Supplementary.Materialize.Instructions

namespace Supplementary.Materialize

/-! ## 1. `git_output` -/

/-- What `git_output` raises. -/
inductive OutputError
  /-- "Bounded Git output requires a positive binary byte limit." -/
  | noLimit
  /-- "Command failed to start". -/
  | notStarted
  /-- "Command timed out after 120 seconds". -/
  | timedOut
  /-- "Exact-revision review input exceeds the protected byte limit of `maximum` bytes." -/
  | exceedsLimit (maximum : Nat)
  /-- "Command failed closed", with the first bytes of the standard error. -/
  | failedClosed (stderr : Bytes)
  /-- What the filter raises. -/
  | filter (message : String)
  deriving DecidableEq

/-- What the selector reports before the deadline. -/
inductive Event
  /-- The standard output is ready, with `n + 1` bytes or with its end; `running` is
  `process.poll() is None`. -/
  | stdout (n : Nat) (running : Bool)
  /-- The standard error is ready; no bytes are its end. -/
  | stderr (piece : Bytes)
  /-- Nothing is ready, or reading would block. -/
  | blocked
  /-- A command that was killed writes no more than `n` of the bytes that were not read yet. -/
  | cut (n : Nat)

/-- A command: what it writes to its standard output, what happens before the deadline, and its return
code unless it is waited for in vain. -/
structure Command where
  started : Bool
  output : Bytes
  events : List Event
  returnCode : Option Int

/-- The variables of the loop, and what is still to be read. -/
structure Reader where
  unread : Bytes
  stdout : Bytes := []
  stderr : Bytes := []
  limitExceeded : Bool := false
  killed : Bool := false
  outOpen : Bool := true
  errOpen : Bool := true
  filter : Option InstructionInventoryFilter

/-- `stdout_filter(chunk)`, if there is a filter. -/
def absorb (filter : Option InstructionInventoryFilter) (chunk : Bytes) :
    Except OutputError (Bytes × Option InstructionInventoryFilter) :=
  match filter with
  | none => .ok (chunk, none)
  | some s =>
    match s.call chunk with
    | .error message => .error (.filter message)
    | .ok (selected, s') => .ok (selected, some s')

namespace Reader

/-- `max_bytes - 1 - len(stdout)`. -/
def allowed (maxBytes : Nat) (s : Reader) : Nat := maxBytes - 1 - s.stdout.length

def readSize (maxBytes : Nat) (s : Reader) : Nat :=
  if s.filter.isNone then min 65536 (s.allowed maxBytes + 1) else 65536

/-- A chunk of the standard output, filtered. -/
def keep (maxBytes : Nat) (running : Bool) (s : Reader) (chunk : Bytes) : Reader :=
  let s' := { s with stdout := s.stdout ++ chunk.take (s.allowed maxBytes) }
  if chunk.length > s.allowed maxBytes then
    { s' with limitExceeded := true, killed := s.killed || running }
  else s'

def step (maxBytes : Nat) (s : Reader) : Event → Except OutputError Reader
  | .blocked => .ok s
  | .cut n => .ok (if s.killed then { s with unread := s.unread.take n } else s)
  | .stderr piece =>
    if !s.errOpen then .ok s
    else if piece = [] then .ok { s with errOpen := false }
    else .ok { s with stderr := (s.stderr ++ piece).take 65536 }
  | .stdout n running =>
    if !s.outOpen then .ok s
    else
      let size := min (n + 1) (s.readSize maxBytes)
      if s.unread.take size = [] then .ok { s with outOpen := false }
      else do
        let (chunk, filter) ← absorb s.filter (s.unread.take size)
        .ok ({ s with unread := s.unread.drop size, filter := filter }.keep maxBytes running chunk)

/-- `while selector.get_map()`. -/
def loop (maxBytes : Nat) : Reader → List Event → Except OutputError Reader
  | s, [] => if s.outOpen || s.errOpen then .error .timedOut else .ok s
  | s, event :: events =>
    if s.outOpen || s.errOpen then do
      let s' ← s.step maxBytes event
      loop maxBytes s' events
    else .ok s

end Reader

/-- `git_output(..., binary=True, max_bytes=..., stdout_filter=...)`: what is returned, and the
filter. -/
def gitOutput (maxBytes : Nat) (filter : Option InstructionInventoryFilter) (command : Command) :
    Except OutputError (Bytes × Option InstructionInventoryFilter) :=
  if maxBytes = 0 then .error .noLimit
  else if !command.started then .error .notStarted
  else do
    let s ← Reader.loop maxBytes { unread := command.output, filter := filter } command.events
    match command.returnCode with
    | none => .error .timedOut
    | some returnCode =>
      if s.limitExceeded then .error (.exceedsLimit (maxBytes - 1))
      else if returnCode ≠ 0 then .error (.failedClosed s.stderr)
      else .ok (s.stdout, s.filter)

/-! ## 2. The filter on what has been read -/

/-- There is no filter, or what it is still to read ends records that Git writes. -/
def Fits : Option InstructionInventoryFilter → Bytes → Prop
  | none, _ => True
  | some s, data => ∃ record, s = .of record ∧ AreRecords record data

theorem absorb_append {filter : Option InstructionInventoryFilter} {a b : Bytes}
    (h : Fits filter (a ++ b)) : absorb filter (a ++ b) =
      absorb filter a >>= fun r => absorb r.2 b >>= fun r' => .ok (r.1 ++ r'.1, r'.2) := by
  cases filter with
  | none => rfl
  | some s =>
    obtain ⟨record, rfl, hrecords⟩ := h
    rw [absorb, absorb, InstructionInventoryFilter.call_of hrecords,
      InstructionInventoryFilter.call_of (areRecords_left hrecords), scan_append]
    cases hscan : scan record a with
    | error e => rfl
    | ok r =>
      simp only [Except.map, ok_bind]
      rw [absorb, InstructionInventoryFilter.call_of (areRecords_append hrecords hscan).2]
      cases scan r.2 b <;> rfl

theorem fits_left {filter : Option InstructionInventoryFilter} {a b : Bytes}
    (h : Fits filter (a ++ b)) : Fits filter a := by
  cases filter with
  | none => trivial
  | some s =>
    obtain ⟨record, rfl, hrecords⟩ := h
    exact ⟨record, rfl, areRecords_left hrecords⟩

theorem fits_rest {filter : Option InstructionInventoryFilter} {a b : Bytes}
    {r : Bytes × Option InstructionInventoryFilter} (h : Fits filter (a ++ b))
    (habsorb : absorb filter a = .ok r) : Fits r.2 b := by
  cases filter with
  | none =>
    cases habsorb
    trivial
  | some s =>
    obtain ⟨record, rfl, hrecords⟩ := h
    rw [absorb, InstructionInventoryFilter.call_of (areRecords_left hrecords)] at habsorb
    cases hscan : scan record a with
    | error e =>
      rw [hscan] at habsorb
      cases habsorb
    | ok r' =>
      rw [hscan] at habsorb
      cases habsorb
      exact ⟨r'.2, rfl, (areRecords_append hrecords hscan).2⟩

theorem absorb_nil {filter : Option InstructionInventoryFilter} {data : Bytes} (h : Fits filter data) :
    absorb filter [] = .ok ([], filter) := by
  cases filter with
  | none => rfl
  | some s =>
    obtain ⟨record, rfl, -⟩ := h
    have hnone : AreRecords record [] := trivial
    rw [absorb, InstructionInventoryFilter.call_of hnone]
    rfl

/-! ## 3. The loop -/

/-- What holds between two readings: what is kept is all that the filter passed, or the filter passed
more than may be kept. -/
inductive Keeps (maxBytes : Nat) (filter : Option InstructionInventoryFilter) (output : Bytes) :
    Reader → Prop
  | within {s : Reader} (hlimit : s.limitExceeded = false) (hkilled : s.killed = false)
      (read : Bytes) (houtput : output = read ++ s.unread)
      (habsorb : absorb filter read = .ok (s.stdout, s.filter)) (hlength : s.stdout.length < maxBytes)
      (hclosed : s.outOpen = false → s.unread = []) : Keeps maxBytes filter output s
  | beyond {s : Reader} (hlimit : s.limitExceeded = true) (read more passed : Bytes)
      (rest : Option InstructionInventoryFilter) (houtput : output = read ++ more)
      (habsorb : absorb filter read = .ok (passed, rest)) (hlength : maxBytes ≤ passed.length) :
      Keeps maxBytes filter output s

section

variable {maxBytes : Nat} {filter : Option InstructionInventoryFilter} {output : Bytes} {s s' : Reader}

theorem readSize_pos (maxBytes : Nat) (s : Reader) : 0 < s.readSize maxBytes := by
  unfold Reader.readSize
  split_ifs <;> omega

/-- Beyond the limit the reader stays. -/
theorem beyond_step {event : Event} (hlimit : s.limitExceeded = true)
    (hstep : s.step maxBytes event = .ok s') : s'.limitExceeded = true := by
  cases event with
  | blocked =>
    cases hstep
    exact hlimit
  | cut n =>
    rw [Reader.step] at hstep
    cases hstep
    split_ifs <;> exact hlimit
  | stderr piece =>
    rw [Reader.step] at hstep
    split_ifs at hstep <;> (cases hstep; exact hlimit)
  | stdout n running =>
    rw [Reader.step] at hstep
    dsimp only at hstep
    split_ifs at hstep
    · cases hstep
      exact hlimit
    · cases hstep
      exact hlimit
    · obtain ⟨r, -, hstep⟩ := bind_eq_ok.mp hstep
      cases hstep
      unfold Reader.keep
      dsimp only
      split_ifs
      · rfl
      · exact hlimit

/-- **One event.** -/
theorem keeps_step {event : Event} (hfits : Fits filter output) (h : Keeps maxBytes filter output s)
    (hstep : s.step maxBytes event = .ok s') : Keeps maxBytes filter output s' := by
  cases h with
  | beyond hlimit read more passed rest houtput habsorb hlength =>
    exact .beyond (beyond_step hlimit hstep) read more passed rest houtput habsorb hlength
  | within hlimit hkilled read houtput habsorb hlength hclosed =>
    cases event with
    | blocked =>
      cases hstep
      exact .within hlimit hkilled read houtput habsorb hlength hclosed
    | cut n =>
      rw [Reader.step, hkilled] at hstep
      cases hstep
      exact .within hlimit hkilled read houtput habsorb hlength hclosed
    | stderr piece =>
      rw [Reader.step] at hstep
      split_ifs at hstep
      · cases hstep
        exact .within hlimit hkilled read houtput habsorb hlength hclosed
      · cases hstep
        exact .within hlimit hkilled read houtput habsorb hlength hclosed
      · cases hstep
        exact .within hlimit hkilled read houtput habsorb hlength hclosed
    | stdout n running =>
      have hpositive := readSize_pos maxBytes s
      rw [Reader.step] at hstep
      dsimp only at hstep
      generalize hsize : min (n + 1) (s.readSize maxBytes) = size at hstep
      split_ifs at hstep with hopen hempty
      · cases hstep
        exact .within hlimit hkilled read houtput habsorb hlength hclosed
      · cases hstep
        have hnone : s.unread = [] := by
          rcases List.take_eq_nil_iff.mp hempty with hzero | hnone
          · omega
          · exact hnone
        exact .within hlimit hkilled read houtput habsorb hlength fun _ => hnone
      · obtain ⟨⟨chunk, rest⟩, hchunk, hstep⟩ := bind_eq_ok.mp hstep
        cases hstep
        have hsplit : output = (read ++ s.unread.take size) ++ s.unread.drop size := by
          rw [List.append_assoc, List.take_append_drop, ← houtput]
        have hread : absorb filter (read ++ s.unread.take size) = .ok (s.stdout ++ chunk, rest) := by
          have hpart : Fits filter (read ++ s.unread.take size) := fits_left (hsplit ▸ hfits)
          rw [absorb_append hpart, habsorb, ok_bind, hchunk, ok_bind]
        unfold Reader.keep
        dsimp only
        split_ifs with hlong
        · refine .beyond rfl _ _ _ _ hsplit hread ?_
          rw [Reader.allowed] at hlong
          rw [List.length_append]
          dsimp only at hlong
          omega
        · rw [not_lt] at hlong
          refine .within hlimit hkilled _ hsplit ?_ ?_ ?_
          · dsimp only
            rw [List.take_of_length_le hlong]
            exact hread
          · dsimp only
            rw [Reader.allowed] at hlong
            dsimp only at hlong
            rw [List.length_append, List.length_take]
            omega
          · intro hclosed
            refine absurd ?_ hopen
            rw [Bool.not_eq_true']
            exact hclosed

/-- An event fails only where the filter refuses what is read. -/
theorem refused_of_step {event : Event} {e : OutputError} (hfits : Fits filter output)
    (h : Keeps maxBytes filter output s) (hlimit : s.limitExceeded = false)
    (hstep : s.step maxBytes event = .error e) : absorb filter output = .error e := by
  cases h with
  | beyond hbeyond => rw [hlimit] at hbeyond; cases hbeyond
  | within _ hkilled read houtput habsorb hlength hclosed =>
    cases event with
    | blocked => cases hstep
    | cut n => cases hstep
    | stderr piece =>
      rw [Reader.step] at hstep
      split_ifs at hstep
    | stdout n running =>
      rw [Reader.step] at hstep
      dsimp only at hstep
      generalize min (n + 1) (s.readSize maxBytes) = size at hstep
      split_ifs at hstep
      have hchunk : absorb s.filter (s.unread.take size) = .error e := by
        cases hchunk : absorb s.filter (s.unread.take size) with
        | error e' =>
          rw [hchunk] at hstep
          cases hstep
          rfl
        | ok r =>
          rw [hchunk] at hstep
          cases hstep
      have hrest : Fits s.filter (s.unread.take size ++ s.unread.drop size) := by
        rw [List.take_append_drop]
        exact fits_rest (houtput ▸ hfits) habsorb
      have hunread : absorb s.filter s.unread = .error e := by
        rw [← List.take_append_drop size s.unread, absorb_append hrest, hchunk]
        rfl
      subst houtput
      rw [absorb_append hfits, habsorb, ok_bind, hunread]
      rfl

/-- Beyond the limit, all of the output does not fit. -/
theorem exceeds_of_limit (hfits : Fits filter output) (h : Keeps maxBytes filter output s)
    (hlimit : s.limitExceeded = true) {r : Bytes × Option InstructionInventoryFilter}
    (habsorb : absorb filter output = .ok r) : maxBytes ≤ r.1.length := by
  cases h with
  | within hwithin =>
    rw [hlimit] at hwithin
    cases hwithin
  | beyond _ read more passed rest houtput hread hlength =>
    subst houtput
    rw [absorb_append hfits, hread, ok_bind] at habsorb
    obtain ⟨r', -, habsorb⟩ := bind_eq_ok.mp habsorb
    cases habsorb
    dsimp only
    rw [List.length_append]
    omega

/-- **The loop.** -/
theorem keeps_loop {events : List Event} (hfits : Fits filter output)
    (h : Keeps maxBytes filter output s) (hloop : s.loop maxBytes events = .ok s') :
    Keeps maxBytes filter output s' ∧ s'.outOpen = false := by
  induction events generalizing s with
  | nil =>
    rw [Reader.loop] at hloop
    split_ifs at hloop with hopen
    cases hloop
    exact ⟨h, (Bool.or_eq_false_iff.mp (Bool.not_eq_true _ ▸ hopen)).1⟩
  | cons event events ih =>
    rw [Reader.loop] at hloop
    split_ifs at hloop with hopen
    · obtain ⟨s₁, hstep, hloop⟩ := bind_eq_ok.mp hloop
      exact ih (keeps_step hfits h hstep) hloop
    · cases hloop
      exact ⟨h, (Bool.or_eq_false_iff.mp (Bool.not_eq_true _ ▸ hopen)).1⟩

/-- The loop fails at the deadline, or where the output is refused or does not fit. -/
theorem loop_error {events : List Event} {e : OutputError} (hfits : Fits filter output)
    (h : Keeps maxBytes filter output s) (hloop : s.loop maxBytes events = .error e)
    (htime : e ≠ .timedOut) {r : Bytes × Option InstructionInventoryFilter}
    (habsorb : absorb filter output = .ok r) : maxBytes ≤ r.1.length := by
  induction events generalizing s with
  | nil =>
    rw [Reader.loop] at hloop
    split_ifs at hloop
    cases hloop
    exact absurd rfl htime
  | cons event events ih =>
    rw [Reader.loop] at hloop
    split_ifs at hloop with hopen
    cases hstep : s.step maxBytes event with
    | ok s₁ =>
      rw [hstep] at hloop
      exact ih (keeps_step hfits h hstep) hloop
    | error e' =>
      cases hlimit : s.limitExceeded with
      | true => exact exceeds_of_limit hfits h hlimit habsorb
      | false =>
        rw [refused_of_step hfits h hlimit hstep] at habsorb
        cases habsorb

/-- The streams have been read to their ends before the deadline, unless something else failed, and the
command has succeeded. -/
def InTime (maxBytes : Nat) (filter : Option InstructionInventoryFilter) (command : Command) : Prop :=
  command.started = true ∧ command.returnCode = some 0 ∧
    Reader.loop maxBytes { unread := command.output, filter := filter } command.events ≠
      .error .timedOut

theorem keeps_start (hpositive : maxBytes ≠ 0) (hfits : Fits filter output) :
    Keeps maxBytes filter output { unread := output, filter := filter } :=
  .within rfl rfl [] rfl (absorb_nil hfits) (Nat.pos_of_ne_zero hpositive) fun h => by cases h

/-- **All of the filtered output, or nothing.** -/
theorem gitOutput_eq_ok {command : Command} {result : Bytes × Option InstructionInventoryFilter}
    (hfits : Fits filter command.output) : gitOutput maxBytes filter command = .ok result ↔
      InTime maxBytes filter command ∧ absorb filter command.output = .ok result ∧
        result.1.length < maxBytes := by
  unfold gitOutput InTime
  by_cases hzero : maxBytes = 0
  · rw [if_pos hzero]
    refine iff_of_false (by rintro ⟨⟩) ?_
    rintro ⟨-, -, hlength⟩
    omega
  rw [if_neg hzero]
  cases hstarted : command.started with
  | false => exact iff_of_false (by rintro ⟨⟩) (by rintro ⟨⟨⟨⟩, -⟩, -⟩)
  | true =>
    have hstart := keeps_start hzero hfits
    simp only [Bool.not_true, Bool.false_eq_true, if_false, true_and]
    cases hloop : Reader.loop maxBytes { unread := command.output, filter := filter } command.events with
    | error e =>
      rw [error_bind]
      refine iff_of_false (by rintro ⟨⟩) ?_
      rintro ⟨⟨-, htime⟩, habsorb, hlength⟩
      have hlong := loop_error hfits hstart hloop (fun he => htime (congrArg _ he)) habsorb
      omega
    | ok s =>
      rw [ok_bind]
      obtain ⟨hkeeps, hclosed⟩ := keeps_loop hfits hstart hloop
      cases hlimit : s.limitExceeded with
      | true =>
        refine iff_of_false ?_ ?_
        · intro h
          split at h
          · cases h
          · cases h
        · rintro ⟨-, habsorb, hlength⟩
          have hlong := exceeds_of_limit hfits hkeeps hlimit habsorb
          omega
      | false =>
        cases hkeeps with
        | beyond hbeyond =>
          rw [hlimit] at hbeyond
          cases hbeyond
        | within _ _ read houtput habsorb hlength hunread =>
          have hwhole : absorb filter command.output = .ok (s.stdout, s.filter) := by
            rw [houtput, hunread hclosed, List.append_nil, habsorb]
          rw [hwhole]
          cases hcode : command.returnCode with
          | none => exact iff_of_false (by rintro ⟨⟩) (by rintro ⟨⟨⟨⟩, -⟩, -⟩)
          | some returnCode =>
            simp only [Bool.false_eq_true, if_false]
            by_cases hreturn : returnCode = 0
            · subst hreturn
              simp only [ne_eq, not_true_eq_false, if_false, Except.ok.injEq]
              constructor
              · rintro rfl
                exact ⟨⟨trivial, by rintro ⟨⟩⟩, rfl, hlength⟩
              · rintro ⟨-, rfl, -⟩
                rfl
            · rw [if_pos hreturn]
              refine iff_of_false (by rintro ⟨⟩) ?_
              rintro ⟨⟨hsome, -⟩, -⟩
              exact hreturn (Option.some.inj hsome)

end

/-! ## 4. The inventory, read with a limit -/

/-- The filter on a whole listing. -/
theorem absorb_listing {records : List Bytes} {rest : Bytes}
    (hrecords : ∀ r ∈ records, 0 ∉ r ∧ IsRecord r) (hrest : 0 ∉ rest)
    {result : Bytes × Option InstructionInventoryFilter} :
    absorb (some {}) (listingOf records rest) = .ok result ↔ (∀ r ∈ records, ¬ Refused r) ∧
      result = ((selected records).flatMap (· ++ [0]), some (.of rest)) := by
  have hplain : ∀ r ∈ records, 0 ∉ r := fun r hr => (hrecords r hr).1
  have hcall := InstructionInventoryFilter.call_of (areRecords_listing hrecords hrest)
  have hstart : (InstructionInventoryFilter.of [] : InstructionInventoryFilter) = {} := rfl
  rw [scan_listing hplain hrest, hstart] at hcall
  rw [absorb, hcall]
  cases hjudged : (records.mapM judge).map fun parts => (parts.flatten, rest) with
  | error message =>
    refine iff_of_false (by rintro ⟨⟩) ?_
    rintro ⟨hall, -⟩
    rw [judged_eq_ok.mpr ⟨hall, rfl⟩] at hjudged
    cases hjudged
  | ok r =>
    obtain ⟨hall, rfl⟩ := judged_eq_ok.mp hjudged
    rw [and_iff_right hall]
    exact ⟨fun h => (Except.ok.inj h).symm, fun h => congrArg _ h.symm⟩

/-- A record of the root's file and one of another file, in two blocks. -/
def sampleRecords : List Bytes :=
  [bytes "100644 blob 1111111111111111111111111111111111111111\tAGENTS.md",
    bytes "100644 blob 2222222222222222222222222222222222222222\tREADME.md"]

end Supplementary.Materialize
