/-
# SHA-256

`hashlib.sha256(payload).hexdigest()` on octets, with words as numbers below 2^32.  Results depend on
the form of a digest only: sixty-four hexadecimal digits.
-/
import Supplementary.Python.Str

namespace Supplementary.Sha256

open Supplementary

/-- Addition of words. -/
def add (x y : Nat) : Nat := (x + y) % 0x100000000

def rotate (x n : Nat) : Nat := (x >>> n) ||| ((x <<< (32 - n)) % 0x100000000)

/-- The complement of a word. -/
def complement (x : Nat) : Nat := 0xffffffff - x

/-- The round constants. -/
def constants : List Nat := [
  0x428a2f98, 0x71374491, 0xb5c0fbcf, 0xe9b5dba5, 0x3956c25b, 0x59f111f1, 0x923f82a4, 0xab1c5ed5,
  0xd807aa98, 0x12835b01, 0x243185be, 0x550c7dc3, 0x72be5d74, 0x80deb1fe, 0x9bdc06a7, 0xc19bf174,
  0xe49b69c1, 0xefbe4786, 0x0fc19dc6, 0x240ca1cc, 0x2de92c6f, 0x4a7484aa, 0x5cb0a9dc, 0x76f988da,
  0x983e5152, 0xa831c66d, 0xb00327c8, 0xbf597fc7, 0xc6e00bf3, 0xd5a79147, 0x06ca6351, 0x14292967,
  0x27b70a85, 0x2e1b2138, 0x4d2c6dfc, 0x53380d13, 0x650a7354, 0x766a0abb, 0x81c2c92e, 0x92722c85,
  0xa2bfe8a1, 0xa81a664b, 0xc24b8b70, 0xc76c51a3, 0xd192e819, 0xd6990624, 0xf40e3585, 0x106aa070,
  0x19a4c116, 0x1e376c08, 0x2748774c, 0x34b0bcb5, 0x391c0cb3, 0x4ed8aa4a, 0x5b9cca4f, 0x682e6ff3,
  0x748f82ee, 0x78a5636f, 0x84c87814, 0x8cc70208, 0x90befffa, 0xa4506ceb, 0xbef9a3f7, 0xc67178f2]

/-- The initial chaining value. -/
def initial : List Nat := [0x6a09e667, 0xbb67ae85, 0x3c6ef372, 0xa54ff53a, 0x510e527f, 0x9b05688c,
  0x1f83d9ab, 0x5be0cd19]

/-- The word after a window of sixteen in the message schedule. -/
def nextWord (window : List Nat) : Nat :=
  let w1 := window.getD 1 0
  let w14 := window.getD 14 0
  let s0 := (rotate w1 7 ^^^ rotate w1 18) ^^^ (w1 >>> 3)
  let s1 := (rotate w14 17 ^^^ rotate w14 19) ^^^ (w14 >>> 10)
  add (add (window.getD 0 0) s0) (add (window.getD 9 0) s1)

/-- One round on the working variables. -/
def round (k w : Nat) : List Nat → List Nat
  | [a, b, c, d, e, f, g, h] =>
    let s1 := (rotate e 6 ^^^ rotate e 11) ^^^ rotate e 25
    let choice := (e &&& f) ^^^ (complement e &&& g)
    let t1 := add (add (add h s1) (add choice k)) w
    let s0 := (rotate a 2 ^^^ rotate a 13) ^^^ rotate a 22
    let majority := ((a &&& b) ^^^ (a &&& c)) ^^^ (b &&& c)
    [add t1 (add s0 majority), a, b, c, add d t1, e, f, g]
  | state => state

def rounds : (constants window state : List Nat) → List Nat
  | [], _, state => state
  | k :: ks, window, state =>
    rounds ks (window.drop 1 ++ [nextWord window]) (round k (window.getD 0 0) state)

def wordOf (octets : Bytes) : Nat := octets.foldl (fun n b => n * 256 + b.toNat) 0

/-- The first `n` words of a block. -/
def wordsOf : Nat → Bytes → List Nat
  | 0, _ => []
  | n + 1, octets => wordOf (octets.take 4) :: wordsOf n (octets.drop 4)

/-- The digest of `n` padded blocks. -/
def blocks : Nat → Bytes → List Nat → List Nat
  | 0, _, state => state
  | n + 1, octets, state =>
    blocks n (octets.drop 64)
      (List.zipWith add state (rounds constants (wordsOf 16 octets) state))

/-- The octets of a number, most significant first. -/
def octetsOf : Nat → Nat → Bytes
  | 0, _ => []
  | n + 1, x => octetsOf n (x / 256) ++ [(x % 256).toUInt8]

def padded (message : Bytes) : Bytes :=
  message ++ [0x80] ++ List.replicate ((119 - message.length % 64) % 64) 0 ++
    octetsOf 8 (8 * message.length)

/-- The hexadecimal digits of a word. -/
def hexOf (x : Nat) : List Nat :=
  (octetsOf 4 x).flatMap fun b => [b.toNat / 16, b.toNat % 16].map fun n =>
    if n < 10 then 48 + n else 87 + n

/-- `hashlib.sha256(payload).hexdigest()`. -/
def hexdigest (message : Bytes) : PyStr :=
  let octets := padded message
  ⟨(blocks (octets.length / 64) octets initial).flatMap hexOf⟩

theorem length_octetsOf (x : Nat) : ∀ n, (octetsOf n x).length = n := by
  intro n
  induction n generalizing x with
  | zero => rfl
  | succ n ih => simp [octetsOf, ih]

theorem length_hexOf (x : Nat) : (hexOf x).length = 8 := by
  simp [hexOf, length_octetsOf]

theorem length_round {k w : Nat} {state : List Nat} (h : state.length = 8) :
    (round k w state).length = 8 := by
  match state, h with
  | [_, _, _, _, _, _, _, _], _ => rfl

theorem length_rounds (ks : List Nat) : ∀ {window state : List Nat}, state.length = 8 →
    (rounds ks window state).length = 8 := by
  induction ks with
  | nil => exact fun h => h
  | cons k ks ih => exact fun h => ih (length_round h)

theorem length_blocks (n : Nat) : ∀ {octets : Bytes} {state : List Nat}, state.length = 8 →
    (blocks n octets state).length = 8 := by
  induction n with
  | zero => exact fun h => h
  | succ n ih =>
    intro octets state h
    refine ih ?_
    rw [List.length_zipWith, h, length_rounds _ h]
    rfl

theorem length_hexdigest (message : Bytes) : (hexdigest message).length = 64 := by
  have hblocks : (blocks ((padded message).length / 64) (padded message) initial).length = 8 :=
    length_blocks _ rfl
  simp [hexdigest, PyStr.length, List.length_flatMap, length_hexOf, hblocks]

/-- Every code point of a digest is a lowercase hexadecimal digit. -/
theorem hexdigest_digits {message : Bytes} {c : Nat} (h : c ∈ (hexdigest message).codePoints) :
    (48 ≤ c ∧ c ≤ 57) ∨ (97 ≤ c ∧ c ≤ 102) := by
  simp only [hexdigest, hexOf, List.mem_flatMap, List.mem_map] at h
  obtain ⟨_, -, b, -, n, hn, rfl⟩ := h
  have hb := b.toNat_lt
  have hlt : n < 16 := by
    simp only [List.mem_cons, List.not_mem_nil, or_false] at hn
    omega
  split <;> omega

example : hexdigest (bytes "abc") =
    "ba7816bf8f01cfea414140de5dae2223b00361a396177a9cb410ff61f20015ad" := by decide +kernel

end Supplementary.Sha256
