/-
# One guard

The transport reads the guard as a walk over what is left of the bytes (`Gateway.preflightJson`); the
guard in front of the parser follows the index as the source does (`Preflight.preflightJson`).  On
bytes and integer limits they are one function, `preflightJson_eq`, so that what is proved about the
one is known of the other.
-/
import Supplementary.Gateway.Preflight
import Supplementary.Gateway.Transport

namespace Supplementary.Gateway

open Supplementary Preflight

section

variable {payload pre : List Nat} {nodeLimit depthLimit : Int}

/-- What stands behind a string that was opened before `start`, and where that is. -/
def ClosesAt (payload : List Nat) (start : Nat) (rest : Bytes) : Option Bytes → Prop
  | none => closeString payload start = none
  | some after => ∃ body, rest = body ++ after ∧
      closeString payload start = some (start + body.length)

theorem ClosesAt.cons {start : Nat} {c : UInt8} {rest : Bytes} {closed : Option Bytes}
    (h : ClosesAt payload (start + 1) rest closed)
    (hsame : closeString payload start = closeString payload (start + 1)) :
    ClosesAt payload start (c :: rest) closed := by
  cases closed with
  | none => exact hsame.trans h
  | some after =>
    obtain ⟨body, rfl, hstop⟩ := h
    refine ⟨c :: body, rfl, hsame.trans (hstop.trans ?_)⟩
    rw [List.length_cons]
    congr 1
    omega

/-- Only the parity of the backslashes in a row matters. -/
theorem closesAt_afterString {rest : Bytes} {slashes : Nat}
    (hpayload : payload = pre ++ rest.map UInt8.toNat)
    (hslashes : backslashes payload pre.length % 2 = slashes % 2) :
    ClosesAt payload pre.length rest (afterString slashes rest) := by
  induction rest generalizing pre slashes with
  | nil =>
    rw [afterString, ClosesAt, closeString_eq]
    simp [findQuote, hpayload]
  | cons c rest ih =>
    have hhere : payload[pre.length]? = some c.toNat := by simp [hpayload]
    have hnext (slashes : Nat) := @ih (pre ++ [c.toNat]) slashes (by simp [hpayload])
    simp only [List.length_append, List.length_singleton] at hnext
    rw [afterString]
    by_cases hquote : c = 34
    · have hcode : c.toNat = 34 := by rw [hquote]; rfl
      rw [hcode] at hhere
      have hzero : backslashes payload (pre.length + 1) % 2 = 0 % 2 := by
        rw [backslashes_zero hhere (by decide)]
      have hclose : closeString payload pre.length = if slashes % 2 = 0 then some (pre.length + 1)
          else closeString payload (pre.length + 1) := by
        rw [closeString_eq, findQuote_here hhere]
        simp only [hslashes]
      rw [if_pos hquote]
      by_cases heven : slashes % 2 = 0
      · rw [if_pos heven] at hclose ⊢
        exact ⟨[c], rfl, hclose⟩
      · rw [if_neg heven] at hclose ⊢
        exact (hnext 0 hzero).cons hclose
    · have hcode : c.toNat ≠ 34 := fun h => hquote (UInt8.toNat_inj.mp h)
      have hsame := closeString_skip hhere hcode
      rw [if_neg hquote]
      by_cases hslash : c = 92
      · have hcode : c.toNat = 92 := by rw [hslash]; rfl
        rw [hcode] at hhere
        rw [if_pos hslash]
        refine (hnext (slashes + 1) ?_).cons hsame
        rw [backslashes_succ hhere]
        omega
      · have hcode : c.toNat ≠ 92 := fun h => hslash (UInt8.toNat_inj.mp h)
        rw [if_neg hslash]
        refine (hnext 0 ?_).cons hsame
        rw [backslashes_zero hhere hcode]

theorem scan_step {rest : List Nat} {c : Nat} (hpayload : payload = pre ++ c :: rest) {s : Scan}
    (hs : s.index = pre.length) : scan payload nodeLimit depthLimit s =
      token payload nodeLimit depthLimit c s >>= scan payload nodeLimit depthLimit := by
  cases htoken : token payload nodeLimit depthLimit c s with
  | error e => exact scan_of_error hpayload hs htoken
  | ok s' => exact scan_of_ok hpayload hs htoken

/-- Where the scan stands still it counts until the budget is spent. -/
theorem scan_stands {rest : List Nat} {c : Nat} (hpayload : payload = pre ++ c :: rest)
    (hc : c = 11 ∨ c = 12) {s : Scan} (hs : s.index = pre.length) :
    scan payload nodeLimit depthLimit s = .error (.valueError "single-json-node-budget") := by
  have hend : scalarEnd payload s.index = s.index := by
    have hdelimiter : c ∈ delimiters := by
      rcases hc with rfl | rfl <;> decide
    rw [scalarEnd, hpayload, hs, List.drop_left, List.findIdx_cons]
    simp [hdelimiter]
  have htoken (s : Scan) (hend : scalarEnd payload s.index = s.index) :
      token payload nodeLimit depthLimit c s =
        if nodeLimit < s.nodes + 1 then .error (.valueError "single-json-node-budget")
        else .ok { s with nodes := s.nodes + 1 } := by
    rcases hc with rfl | rfl <;> simp [token, hend]
  generalize hroom : (nodeLimit - s.nodes).toNat = room
  induction room generalizing s with
  | zero =>
    rw [scan_step hpayload hs, htoken s hend, if_pos (by omega)]
    rfl
  | succ room ih =>
    rw [scan_step hpayload hs, htoken s hend, if_neg (by omega)]
    exact ih hs hend (by simp only; omega)

theorem isDelimiter_iff (c : UInt8) : isDelimiter c = decide (c.toNat ∈ delimiters) := by
  rw [Bool.eq_iff_iff]
  simp only [isDelimiter, delimiters, Bool.or_eq_true, Bool.and_eq_true, decide_eq_true_eq,
    List.mem_cons, List.not_mem_nil, or_false, UInt8.le_iff_toNat_le, ← UInt8.toNat_inj,
    UInt8.reduceToNat]
  omega

/-- The scalar that begins at a place: none at a delimiter, else up to the next one. -/
theorem scalarEnd_split {c : UInt8} {rest : Bytes}
    (hpayload : payload = pre ++ c.toNat :: rest.map UInt8.toNat) :
    (isDelimiter c = true → scalarEnd payload pre.length = pre.length) ∧
      (¬ isDelimiter c = true → ∃ body, rest = body ++ rest.dropWhile (fun c => !isDelimiter c) ∧
        scalarEnd payload pre.length = pre.length + 1 + body.length) := by
  have hdrop : payload.drop pre.length = (c :: rest).map UInt8.toNat := by
    rw [hpayload, List.drop_left, List.map_cons]
  have hfind : scalarEnd payload pre.length = pre.length + (c :: rest).findIdx isDelimiter := by
    rw [scalarEnd, hdrop, List.findIdx_map]
    congr 2
    funext c
    exact (isDelimiter_iff c).symm
  rw [hfind, List.findIdx_cons]
  constructor
  · intro hc
    simp [hc]
  · intro hc
    refine ⟨rest.takeWhile fun c => !isDelimiter c, List.takeWhile_append_dropWhile.symm, ?_⟩
    rw [List.takeWhile_eq_take_findIdx_not, List.length_take, Nat.min_eq_left]
    · have heta : rest.findIdx (fun c => isDelimiter c) = rest.findIdx isDelimiter := rfl
      simp only [hc, cond_false, Bool.not_not, heta]
      omega
    · exact List.findIdx_le_length

theorem preflightFrom_nil {fuel : Nat} {nodes depth : Int}
    (hpayload : payload = pre ++ ([] : Bytes).map UInt8.toNat) :
    preflightFrom ⟨nodeLimit, depthLimit⟩ fuel nodes depth [] =
      scan payload nodeLimit depthLimit ⟨pre.length, nodes, depth⟩ >>= fun s =>
        if s.depth ≠ 0 then .error (.valueError "single-json-depth") else .ok () := by
  have hend : ¬ pre.length < payload.length := by simp [hpayload]
  rw [scan, dif_neg hend]
  cases fuel <;> by_cases hdepth : depth = 0 <;> simp [preflightFrom, raiseUnless, hdepth]

/-- The walk and the scan, from a place on. -/
theorem preflightFrom_eq_scan {rest : Bytes} {fuel : Nat} {nodes depth : Int}
    (hpayload : payload = pre ++ rest.map UInt8.toNat) (hfuel : rest.length ≤ fuel) :
    preflightFrom ⟨nodeLimit, depthLimit⟩ fuel nodes depth rest =
      scan payload nodeLimit depthLimit ⟨pre.length, nodes, depth⟩ >>= fun s =>
        if s.depth ≠ 0 then .error (.valueError "single-json-depth") else .ok () := by
  induction fuel generalizing pre rest nodes depth with
  | zero =>
    rw [List.length_eq_zero_iff.mp (Nat.le_zero.mp hfuel)] at hpayload ⊢
    exact preflightFrom_nil hpayload
  | succ fuel ih =>
    cases rest with
    | nil => exact preflightFrom_nil hpayload
    | cons c rest =>
      have hsplit : payload = pre ++ c.toNat :: rest.map UInt8.toNat := hpayload
      have hlength : rest.length ≤ fuel := by simpa using hfuel
      have hnext (nodes depth : Int) :=
        @ih (pre ++ [c.toNat]) rest nodes depth (by simp [hpayload]) hlength
      simp only [List.length_append, List.length_singleton] at hnext
      have hcode (n : UInt8) : c = n ↔ c.toNat = n.toNat := UInt8.toNat_inj.symm
      rw [scan_step hsplit rfl, preflightFrom, bind_assoc, token]
      simp only [List.mem_cons, List.not_mem_nil, or_false, hcode, UInt8.reduceToNat]
      by_cases hpass : c.toNat = 32 ∨ c.toNat = 9 ∨ c.toNat = 10 ∨ c.toNat = 13 ∨ c.toNat = 44 ∨
          c.toNat = 58
      · simp only [hpass, if_true]
        exact hnext nodes depth
      simp only [hpass, if_false]
      by_cases hcloses : c.toNat = 125 ∨ c.toNat = 93
      · simp only [hcloses, if_true]
        by_cases hdepth : depth - 1 < 0
        · rw [if_pos hdepth, raiseUnless, if_neg (by omega)]
          rfl
        · rw [if_neg hdepth, raiseUnless, if_pos (by omega)]
          exact hnext nodes (depth - 1)
      simp only [hcloses, if_false]
      by_cases hbudget : nodeLimit < nodes + 1
      · rw [if_pos hbudget, raiseUnless, if_neg (by omega)]
        rfl
      rw [if_neg hbudget, raiseUnless, if_pos (by omega)]
      by_cases hopens : c.toNat = 123 ∨ c.toNat = 91
      · simp only [hopens, if_true]
        by_cases hdepth : depthLimit < depth + 1
        · rw [if_pos hdepth, raiseUnless, if_neg (by omega)]
          rfl
        · rw [if_neg hdepth, raiseUnless, if_pos (by omega)]
          exact hnext (nodes + 1) (depth + 1)
      simp only [hopens, if_false]
      by_cases hquote : c.toNat = 34
      · simp only [hquote, if_true]
        have hzero : backslashes payload (pre ++ [34]).length % 2 = 0 % 2 := by
          rw [List.length_append, List.length_singleton,
            backslashes_zero (by simp [hsplit]) (hquote ▸ (by decide : (34 : Nat) ≠ 92))]
        have hclosed := @closesAt_afterString payload (pre ++ [34]) rest 0
          (by simp [hsplit, hquote]) hzero
        rw [List.length_append, List.length_singleton] at hclosed
        cases hafter : afterString 0 rest with
        | none =>
          rw [hafter] at hclosed
          rw [hclosed]
          rfl
        | some after =>
          rw [hafter] at hclosed
          obtain ⟨body, rfl, hstop⟩ := hclosed
          rw [hstop]
          have hbehind := @ih (pre ++ 34 :: body.map UInt8.toNat) after (nodes + 1) depth
            (by simp [hsplit, hquote]) (by rw [List.length_append] at hlength; omega)
          rw [List.length_append, List.length_cons, List.length_map, Nat.add_comm body.length,
            ← Nat.add_assoc] at hbehind
          exact hbehind
      simp only [hquote, if_false]
      by_cases hdelimiter : isDelimiter c = true
      · have hstill : c.toNat = 11 ∨ c.toNat = 12 := by
          rw [isDelimiter_iff] at hdelimiter
          simp only [delimiters, List.mem_cons, List.not_mem_nil, or_false,
            decide_eq_true_eq] at hdelimiter
          omega
        rw [if_pos hdelimiter]
        have hend := (scalarEnd_split hsplit).1 hdelimiter
        have hstands := @scan_stands payload pre nodeLimit depthLimit _ _ hsplit hstill
          ⟨scalarEnd payload pre.length, nodes + 1, depth⟩ hend
        calc
          _ = (.error (.valueError "single-json-node-budget") : Py Unit) := rfl
          _ = scan payload nodeLimit depthLimit ⟨scalarEnd payload pre.length, nodes + 1, depth⟩ >>=
              fun s => if s.depth ≠ 0 then .error (.valueError "single-json-depth") else .ok () := by
            rw [hstands]
            rfl
      · rw [if_neg hdelimiter]
        obtain ⟨body, hbody, hend⟩ := (scalarEnd_split hsplit).2 hdelimiter
        have hbehind := @ih (pre ++ c.toNat :: body.map UInt8.toNat)
          (rest.dropWhile fun c => !isDelimiter c) (nodes + 1) depth
          (by rw [hsplit, List.append_assoc, List.cons_append, ← List.map_append, ← hbody])
          (by rw [hbody, List.length_append] at hlength; omega)
        rw [List.length_append, List.length_cons, List.length_map, Nat.add_comm body.length,
          ← Nat.add_assoc, ← hend] at hbehind
        exact hbehind

end

/-- **One guard.** -/
theorem preflightJson_eq (payload : Bytes) (nodeLimit depthLimit : Int) :
    Gateway.preflightJson payload ⟨nodeLimit, depthLimit⟩ =
      Preflight.preflightJson (.bytes payload) (.int nodeLimit) (.int depthLimit) := by
  exact @preflightFrom_eq_scan (payload.map UInt8.toNat) [] nodeLimit depthLimit payload
    payload.length 0 0 rfl le_rfl

end Supplementary.Gateway
