import Mathlib.Algebra.Group.Nat.Defs

/-! SHA-256 (FIPS 180-4) over lists of bytes, every word a number below `2 ^ 32`. The message schedule
is a window of sixteen words that slides once per round, so one round is a structural step over the
list of round constants. -/

namespace Sha256

/-- The eight words of the chaining value. -/
structure State where
  a : Nat
  b : Nat
  c : Nat
  d : Nat
  e : Nat
  f : Nat
  g : Nat
  h : Nat
  deriving DecidableEq, Repr

def add (x y : Nat) : Nat := (x + y) % 4294967296

def rotr (n x : Nat) : Nat := (x >>> n) ||| ((x <<< (32 - n)) % 4294967296)

def bigSigma0 (x : Nat) : Nat := rotr 2 x ^^^ rotr 13 x ^^^ rotr 22 x

def bigSigma1 (x : Nat) : Nat := rotr 6 x ^^^ rotr 11 x ^^^ rotr 25 x

def smallSigma0 (x : Nat) : Nat := rotr 7 x ^^^ rotr 18 x ^^^ (x >>> 3)

def smallSigma1 (x : Nat) : Nat := rotr 17 x ^^^ rotr 19 x ^^^ (x >>> 10)

def ch (x y z : Nat) : Nat := (x &&& y) ^^^ ((4294967295 ^^^ x) &&& z)

def maj (x y z : Nat) : Nat := (x &&& y) ^^^ (x &&& z) ^^^ (y &&& z)

def roundConstants : List Nat :=
  [0x428a2f98, 0x71374491, 0xb5c0fbcf, 0xe9b5dba5, 0x3956c25b, 0x59f111f1, 0x923f82a4, 0xab1c5ed5,
   0xd807aa98, 0x12835b01, 0x243185be, 0x550c7dc3, 0x72be5d74, 0x80deb1fe, 0x9bdc06a7, 0xc19bf174,
   0xe49b69c1, 0xefbe4786, 0x0fc19dc6, 0x240ca1cc, 0x2de92c6f, 0x4a7484aa, 0x5cb0a9dc, 0x76f988da,
   0x983e5152, 0xa831c66d, 0xb00327c8, 0xbf597fc7, 0xc6e00bf3, 0xd5a79147, 0x06ca6351, 0x14292967,
   0x27b70a85, 0x2e1b2138, 0x4d2c6dfc, 0x53380d13, 0x650a7354, 0x766a0abb, 0x81c2c92e, 0x92722c85,
   0xa2bfe8a1, 0xa81a664b, 0xc24b8b70, 0xc76c51a3, 0xd192e819, 0xd6990624, 0xf40e3585, 0x106aa070,
   0x19a4c116, 0x1e376c08, 0x2748774c, 0x34b0bcb5, 0x391c0cb3, 0x4ed8aa4a, 0x5b9cca4f, 0x682e6ff3,
   0x748f82ee, 0x78a5636f, 0x84c87814, 0x8cc70208, 0x90befffa, 0xa4506ceb, 0xbef9a3f7, 0xc67178f2]

def initial : State where
  a := 0x6a09e667
  b := 0xbb67ae85
  c := 0x3c6ef372
  d := 0xa54ff53a
  e := 0x510e527f
  f := 0x9b05688c
  g := 0x1f83d9ab
  h := 0x5be0cd19

def round (s : State) (k w : Nat) : State :=
  let t1 := add (add (add s.h (bigSigma1 s.e)) (add (ch s.e s.f s.g) k)) w
  let t2 := add (bigSigma0 s.a) (maj s.a s.b s.c)
  { a := add t1 t2, b := s.a, c := s.b, d := s.c, e := add s.d t1, f := s.e, g := s.f, h := s.g }

/-- The window after one round: its first word leaves, the next scheduled word enters. -/
def slide (window : List Nat) : List Nat :=
  window.tail ++ [add (add (smallSigma1 (window.getD 14 0)) (window.getD 9 0))
    (add (smallSigma0 (window.getD 1 0)) (window.getD 0 0))]

def rounds : List Nat → State → List Nat → State
  | [], s, _ => s
  | k :: ks, s, window => rounds ks (round s k (window.getD 0 0)) (slide window)

def compress (s : State) (block : List Nat) : State :=
  let t := rounds roundConstants s block
  { a := add s.a t.a, b := add s.b t.b, c := add s.c t.c, d := add s.d t.d,
    e := add s.e t.e, f := add s.f t.f, g := add s.g t.g, h := add s.h t.h }

/-- Big-endian 32-bit words of a byte string whose length is a multiple of four. -/
def words : List Nat → List Nat
  | b0 :: b1 :: b2 :: b3 :: rest => (b0 * 16777216 + b1 * 65536 + b2 * 256 + b3) :: words rest
  | _ => []

def blocks : List Nat → List (List Nat)
  | w0 :: w1 :: w2 :: w3 :: w4 :: w5 :: w6 :: w7 :: w8 :: w9 :: w10 :: w11 :: w12 :: w13 :: w14 :: w15 :: rest =>
    [w0, w1, w2, w3, w4, w5, w6, w7, w8, w9, w10, w11, w12, w13, w14, w15] :: blocks rest
  | _ => []

/-- The big-endian bytes of `x`, `n` of them. -/
def bigEndian : Nat → Nat → List Nat
  | 0, _ => []
  | n + 1, x => (x / 256 ^ n) % 256 :: bigEndian n x

def pad (message : List Nat) : List Nat :=
  message ++ [0x80] ++ List.replicate ((119 - message.length % 64) % 64) 0 ++ bigEndian 8 (8 * message.length)

def digest (message : List Nat) : List Nat :=
  let s := (blocks (words (pad message))).foldl compress initial
  [s.a, s.b, s.c, s.d, s.e, s.f, s.g, s.h].flatMap (bigEndian 4)

def hexDigit (n : Nat) : Char := if n < 10 then Char.ofNat (48 + n) else Char.ofNat (87 + n)

def hexByte (b : Nat) : List Char := [hexDigit (b / 16 % 16), hexDigit (b % 16)]

/-- The lowercase hexadecimal digest. -/
def hex (message : List Nat) : String := String.ofList ((digest message).flatMap hexByte)

theorem length_bigEndian (n x : Nat) : (bigEndian n x).length = n := by
  induction n with
  | zero => rfl
  | succ n ih => simp [bigEndian, ih]

theorem length_digest (message : List Nat) : (digest message).length = 32 := by
  simp [digest, length_bigEndian]

theorem length_hex (message : List Nat) : (hex message).toList.length = 64 := by
  have h : ∀ bytes : List Nat, (bytes.flatMap hexByte).length = 2 * bytes.length := by
    intro bytes
    induction bytes with
    | nil => rfl
    | cons b bytes ih => simp only [List.flatMap_cons, List.length_append, ih, hexByte, List.length_cons,
        List.length_nil]; omega
  rw [hex, String.toList_ofList, h, length_digest]

theorem hexDigit_isHex : ∀ n < 16, ('0' ≤ hexDigit n ∧ hexDigit n ≤ '9') ∨ ('a' ≤ hexDigit n ∧ hexDigit n ≤ 'f') := by
  decide

theorem hex_isHex (message : List Nat) :
    ∀ c ∈ (hex message).toList, ('0' ≤ c ∧ c ≤ '9') ∨ ('a' ≤ c ∧ c ≤ 'f') := by
  intro c hc
  rw [hex, String.toList_ofList, List.mem_flatMap] at hc
  obtain ⟨b, -, hc⟩ := hc
  rcases List.mem_cons.1 hc with rfl | hc
  · exact hexDigit_isHex _ (Nat.mod_lt _ (by decide))
  · rw [List.mem_singleton.1 hc]
    exact hexDigit_isHex _ (Nat.mod_lt _ (by decide))

example : hex [0x61, 0x62, 0x63] = "ba7816bf8f01cfea414140de5dae2223b00361a396177a9cb410ff61f20015ad" := by
  decide +kernel

end Sha256
