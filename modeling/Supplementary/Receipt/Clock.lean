/-
# Polling ends

Between two readings the clock advances by what was slept in between, or by more.  A round of
`poll_window` that goes on has slept ten seconds, or up to the deadline; so the rounds are as many as
tens of seconds fit into the window, and one more.  No sleep reaches beyond the deadline, whatever
the clock does.
-/
import Supplementary.Receipt.Phases
import Supplementary.Lib.History
import Mathlib.Tactic.Linarith

namespace Supplementary.Receipt

open Supplementary Effects

/-! ## 1. The clock -/

/-- A lower bound of the next reading after an event: the last one, and what was slept since. -/
def tick (low : Option ℚ) : Event ReceiptAns → Option ℚ
  | ⟨.monotonic, .ok now⟩ => some now
  | ⟨.sleep seconds, .ok _⟩ => low.map (· + seconds)
  | _ => low

def lowest (h : Trace ReceiptAns) : Option ℚ := h.foldl tick none

/-- No reading is below what the readings and the sleeps before it call for. -/
def Advances (h : Trace ReceiptAns) : Prop :=
  ∀ pre now post low, h = pre ++ ⟨.monotonic, .ok now⟩ :: post → lowest pre = some low → low ≤ now

theorem lowest_snoc (h : Trace ReceiptAns) (e : Event ReceiptAns) :
    lowest (h ++ [e]) = tick (lowest h) e := by
  simp [lowest]

theorem Advances.before {h : Trace ReceiptAns} {e : Event ReceiptAns} (ha : Advances (h ++ [e])) :
    Advances h := by
  intro pre now post low heq hlow
  refine ha pre now (post ++ [e]) low ?_ hlow
  rw [heq, List.append_assoc, List.cons_append]

theorem Advances.reading {h : Trace ReceiptAns} {now low : ℚ}
    (ha : Advances (h ++ [⟨.monotonic, .ok now⟩])) (hlow : lowest h = some low) : low ≤ now :=
  ha h now [] low rfl hlow

/-! ## 2. The loop -/

section

variable {total : Nat} {timeout : Int} {start : ℚ} {requestId controllerSha : PyStr} {initialOne : Bool}

/-- A sleep that starts and ends within the window. -/
def SleepsWithin (timeout : Int) (h : Trace ReceiptAns) : ReceiptOp → Prop
  | .sleep seconds => ∃ start now mid,
      h = ⟨.monotonic, .ok start⟩ :: mid ++ [⟨.monotonic, .ok now⟩] ∧ 0 < seconds ∧
        seconds ≤ pollSeconds ∧ now + seconds ≤ start + timeout
  | _ => True

/-- There are enough rounds in all, and the clock advances. -/
def Suffices (total : Nat) (timeout : Int) (h : Trace ReceiptAns) : Prop :=
  timeout + 10 ≤ 10 * total ∧ Advances h

theorem Suffices.before {h : Trace ReceiptAns} {e : Event ReceiptAns}
    (hs : Suffices total timeout (h ++ [e])) : Suffices total timeout h := ⟨hs.1, hs.2.before⟩

/-- The window was started, and the rounds that are left are enough. -/
structure Within (total : Nat) (timeout : Int) (start : ℚ) (rounds : Nat) (h : Trace ReceiptAns) :
    Prop where
  started : ∃ mid, h = ⟨.monotonic, .ok start⟩ :: mid
  enough : Suffices total timeout h → ∃ low, lowest h = some low ∧ 1 ≤ rounds ∧
    start + timeout - low ≤ pollSeconds * (rounds - 1)

theorem Within.snoc {rounds : Nat} {h : Trace ReceiptAns} {e : Event ReceiptAns}
    (hh : Within total timeout start rounds h) (he : ∀ low, tick low e = low) :
    Within total timeout start rounds (h ++ [e]) where
  started := by
    obtain ⟨mid, rfl⟩ := hh.started
    exact ⟨mid ++ [e], rfl⟩
  enough ha := by
    rw [lowest_snoc, he]
    exact hh.enough ha.before

/-- A round that goes on leaves enough rounds. -/
theorem Within.sleep {rounds : Nat} {now : ℚ} {pre : Trace ReceiptAns}
    (hh : Within total timeout start (rounds + 1) pre) (hopen : ¬ start + timeout - now ≤ 0) {answer}
    {seconds : ℚ} (hseconds : seconds = min pollSeconds (start + timeout - now)) :
    Within total timeout start rounds
      (pre ++ [⟨.monotonic, .ok now⟩] ++ [⟨.sleep seconds, .ok answer⟩]) where
  started := by
    obtain ⟨mid, rfl⟩ := hh.started
    exact ⟨mid ++ [⟨.monotonic, .ok now⟩] ++ [⟨.sleep seconds, .ok answer⟩], rfl⟩
  enough ha := by
    obtain ⟨low, hlow, -, hleft⟩ := hh.enough ha.before.before
    have hnow : low ≤ now := ha.before.2.reading hlow
    push_cast at hleft
    simp only [pollSeconds] at hleft hseconds ⊢
    have hrounds : 1 ≤ rounds := by
      by_contra hzero
      obtain rfl : rounds = 0 := by omega
      push_cast at hleft
      linarith
    have hcast : (1 : ℚ) ≤ rounds := by exact_mod_cast hrounds
    refine ⟨now + seconds, ?_, hrounds, ?_⟩
    · rw [lowest_snoc, lowest_snoc]
      rfl
    rcases min_choice (10 : ℚ) (start + timeout - now) with hmin | hmin
    · rw [hseconds, hmin]
      linarith
    · rw [hseconds, hmin]
      linarith

theorem keeps_rounds (rounds : Nat) {b : Option RunId} :
    Keeps (SleepsWithin timeout) (Within total timeout start rounds)
      (pollRounds requestId controllerSha initialOne (start + timeout) rounds b)
      fun out h => Suffices total timeout h → out.isSome = true := by
  induction rounds generalizing b with
  | zero =>
    refine keeps_pure fun h hh ha => ?_
    obtain ⟨_, -, hzero, -⟩ := hh.enough ha
    omega
  | succ rounds ih =>
    have hlist : Keeps (SleepsWithin timeout) (Within total timeout start (rounds + 1))
        (call .workflowRuns) fun _ => Within total timeout start (rounds + 1) :=
      keeps_call (fun _ _ => trivial) fun _ h hh => hh.snoc fun _ => rfl
    refine hlist.bind fun runs => ?_
    refine keeps_lift_bind fun ⟨ended, b'⟩ _ => ?_
    cases ended with
    | some run => exact keeps_pure fun _ _ _ => rfl
    | none =>
      have hread : Keeps (SleepsWithin timeout) (Within total timeout start (rounds + 1))
          (call .monotonic) fun now h => ∃ pre, Within total timeout start (rounds + 1) pre ∧
            h = pre ++ [⟨.monotonic, .ok now⟩] :=
        keeps_call (fun _ _ => trivial) fun now h hh => ⟨h, hh, rfl⟩
      refine hread.bind fun now => ?_
      split
      · exact keeps_pure fun _ _ _ => rfl
      · next hopen =>
        have hsleep : Keeps (SleepsWithin timeout) (fun h => ∃ pre,
            Within total timeout start (rounds + 1) pre ∧ h = pre ++ [⟨.monotonic, .ok now⟩])
            (call (.sleep (min pollSeconds (start + timeout - now)))) fun _ =>
              Within total timeout start rounds := by
          refine keeps_call ?_ ?_
          · rintro _ ⟨pre, hpre, rfl⟩
            obtain ⟨mid, rfl⟩ := hpre.started
            have hpos : 0 < start + timeout - now := not_le.mp hopen
            refine ⟨start, now, mid, rfl, lt_min (by norm_num [pollSeconds]) hpos, min_le_left _ _, ?_⟩
            have hle := min_le_right pollSeconds (start + timeout - now)
            linarith
          · rintro _ _ ⟨pre, hpre, rfl⟩
            exact hpre.sleep hopen rfl
        exact hsleep.bind fun _ => ih

/-- A window of enough rounds ends by itself, and never sleeps beyond its deadline. -/
theorem keeps_window (rounds : Nat) {b : Option RunId} :
    Keeps (SleepsWithin timeout) (fun h => h = [])
      (pollWindow rounds requestId controllerSha timeout b initialOne)
      fun out h => Suffices rounds timeout h → out.isSome = true := by
  refine keeps_lift_bind fun _ htimeout => ?_
  refine keeps_lift_bind fun b' _ => ?_
  refine keeps_lift_bind fun _ _ => ?_
  have hstart : Keeps (SleepsWithin timeout) (fun h => h = []) (call .monotonic) fun start =>
      Within rounds timeout start rounds := by
    refine keeps_call (fun _ _ => trivial) ?_
    rintro start _ rfl
    refine ⟨⟨[], rfl⟩, fun hs => ⟨start, rfl, ?_, ?_⟩⟩
    · obtain ⟨heq, hpos⟩ := positiveInteger_eq_ok.mp htimeout
      have hrounds := hs.1
      have htimeout := Value.int.inj heq
      omega
    · have hcast : (timeout : ℚ) + 10 ≤ 10 * rounds := by exact_mod_cast hs.1
      simp only [pollSeconds]
      linarith
  exact hstart.bind fun start => keeps_rounds rounds

end

end Supplementary.Receipt
