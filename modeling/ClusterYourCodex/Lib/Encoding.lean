import Mathlib.Data.List.DropRight
import Mathlib.Data.String.Basic

/-! Text carried as bytes: the code units of UTF-16 and their little-endian bytes, and the standard
alphabet of Base64, with padding and without. Each encoder comes with its decoder and the theorem that
the decoder undoes it. -/

/-! ### UTF-16 -/

namespace Utf16

/-- The code units of one character: itself, or a surrogate pair. -/
def units (c : Char) : List Nat :=
  if c.toNat < 0x10000 then [c.toNat]
  else [0xD800 + (c.toNat - 0x10000) / 1024, 0xDC00 + (c.toNat - 0x10000) % 1024]

def encode (cs : List Char) : List Nat := cs.flatMap units

def decode : List Nat → Option (List Char)
  | [] => some []
  | [u] => if u < 0xD800 || 0xE000 ≤ u then some [Char.ofNat u] else none
  | u :: v :: rest =>
    if u < 0xD800 || 0xE000 ≤ u then (decode (v :: rest)).map (Char.ofNat u :: ·)
    else if u < 0xDC00 && 0xDC00 ≤ v && v < 0xE000 then
      (decode rest).map (Char.ofNat (0x10000 + (u - 0xD800) * 1024 + (v - 0xDC00)) :: ·)
    else none

def bytesOf (u : Nat) : List UInt8 := [UInt8.ofNat (u % 256), UInt8.ofNat (u / 256)]

def toBytes (units : List Nat) : List UInt8 := units.flatMap bytesOf

def ofBytes : List UInt8 → Option (List Nat)
  | [] => some []
  | [_] => none
  | low :: high :: rest => (ofBytes rest).map ((low.toNat + 256 * high.toNat) :: ·)

theorem toNat_valid (c : Char) : c.toNat < 0xD800 ∨ (0xDFFF < c.toNat ∧ c.toNat < 0x110000) := c.valid

theorem units_lt {c : Char} {u : Nat} (h : u ∈ units c) : u < 0x10000 := by
  have hc := toNat_valid c
  unfold units at h
  split at h
  · simp only [List.mem_singleton] at h
    omega
  · simp only [List.mem_cons, List.not_mem_nil, or_false] at h
    omega

/-- A unit outside the surrogates stands for itself. -/
theorem decode_single {u : Nat} {rest : List Nat} (h : u < 0xD800 ∨ 0xE000 ≤ u) :
    decode (u :: rest) = (decode rest).map (Char.ofNat u :: ·) := by
  have hu : (decide (u < 0xD800) || decide (0xE000 ≤ u)) = true := by simpa using h
  cases rest with
  | nil => simp [decode, hu]
  | cons v rest => rw [decode, if_pos hu]

theorem decode_units (c : Char) (rest : List Nat) :
    decode (units c ++ rest) = (decode rest).map (c :: ·) := by
  have hc := toNat_valid c
  unfold units
  split
  · rw [List.singleton_append, decode_single (by omega), Char.ofNat_toNat]
  · rename_i hbig
    have hhigh : 0xD800 + (c.toNat - 0x10000) / 1024 < 0xDC00 := by omega
    have hcode : 0x10000 + (0xD800 + (c.toNat - 0x10000) / 1024 - 0xD800) * 1024 +
        (0xDC00 + (c.toNat - 0x10000) % 1024 - 0xDC00) = c.toNat := by omega
    rw [List.cons_append, List.cons_append, List.nil_append, decode, if_neg, if_pos, hcode, Char.ofNat_toNat]
    · simp only [Bool.and_eq_true, decide_eq_true_eq]
      omega
    · simp only [Bool.or_eq_true, decide_eq_true_eq]
      omega

theorem decode_encode (cs : List Char) : decode (encode cs) = some cs := by
  induction cs with
  | nil => rfl
  | cons c cs ih =>
    have h := decode_units c (encode cs)
    rw [ih] at h
    simpa [encode] using h

theorem ofBytes_toBytes {us : List Nat} (h : ∀ u ∈ us, u < 0x10000) : ofBytes (toBytes us) = some us := by
  induction us with
  | nil => rfl
  | cons u us ih =>
    have hu := h u List.mem_cons_self
    have hrest := ih fun v hv => h v (List.mem_cons_of_mem _ hv)
    have hback : (UInt8.ofNat (u % 256)).toNat + 256 * (UInt8.ofNat (u / 256)).toNat = u := by
      rw [UInt8.toNat_ofNat', UInt8.toNat_ofNat']
      omega
    simp only [toBytes] at hrest
    simp only [toBytes, List.flatMap_cons, bytesOf, List.cons_append, List.nil_append, ofBytes, hrest, hback,
      Option.map_some]

theorem encode_lt (cs : List Char) : ∀ u ∈ encode cs, u < 0x10000 := by
  intro u hu
  obtain ⟨c, -, hc⟩ := List.mem_flatMap.mp hu
  exact units_lt hc

end Utf16

/-! ### Base64 -/

namespace Base64

def digit (n : Nat) : Char :=
  if n < 26 then Char.ofNat (65 + n)
  else if n < 52 then Char.ofNat (71 + n)
  else if n < 62 then Char.ofNat (n - 4)
  else if n = 62 then '+'
  else '/'

def value (c : Char) : Option Nat :=
  if 'A' ≤ c && c ≤ 'Z' then some (c.toNat - 65)
  else if 'a' ≤ c && c ≤ 'z' then some (c.toNat - 71)
  else if '0' ≤ c && c ≤ '9' then some (c.toNat + 4)
  else if c = '+' then some 62
  else if c = '/' then some 63
  else none

/-- The bytes in groups of six bits; those missing in the last group are zero. -/
def sextets : List UInt8 → List Nat
  | [] => []
  | [a] => [a.toNat / 4, a.toNat % 4 * 16]
  | [a, b] => [a.toNat / 4, a.toNat % 4 * 16 + b.toNat / 16, b.toNat % 16 * 4]
  | a :: b :: c :: rest =>
    a.toNat / 4 :: (a.toNat % 4 * 16 + b.toNat / 16) :: (b.toNat % 16 * 4 + c.toNat / 64) :: c.toNat % 64 :: sextets rest

/-- The bytes of groups of six bits; bits left over have to be zero. -/
def bytes : List Nat → Option (List UInt8)
  | [] => some []
  | [_] => none
  | [a, b] => if b % 16 = 0 then some [UInt8.ofNat (a * 4 + b / 16)] else none
  | [a, b, c] => if c % 4 = 0 then some [UInt8.ofNat (a * 4 + b / 16), UInt8.ofNat (b % 16 * 16 + c / 4)] else none
  | a :: b :: c :: d :: rest => (bytes rest).map fun others =>
    UInt8.ofNat (a * 4 + b / 16) :: UInt8.ofNat (b % 16 * 16 + c / 4) :: UInt8.ofNat (c % 4 * 64 + d) :: others

/-- Fills the last group of four digits, if there is padding. -/
def fill (padded : Bool) (digits : List Char) : List Char :=
  if padded then digits ++ List.replicate ((4 - digits.length % 4) % 4) '=' else digits

def encode (padded : Bool) (data : List UInt8) : List Char := fill padded ((sextets data).map digit)

def decode (padded : Bool) (cs : List Char) : Option (List UInt8) :=
  let digits := if padded then cs.rdropWhile (· = '=') else cs
  if fill padded digits = cs then (digits.mapM value).bind bytes else none

theorem value_digit : ∀ n < 64, value (digit n) = some n := by decide

theorem digit_ne_pad : ∀ n < 64, digit n ≠ '=' := by decide

theorem sextets_lt (data : List UInt8) : ∀ n ∈ sextets data, n < 64 := by
  fun_induction sextets data with
  | case1 => simp
  | case2 a =>
    have ha := a.toNat_lt
    simp only [List.forall_mem_cons]
    exact ⟨by omega, by omega, by simp⟩
  | case3 a b =>
    have ha := a.toNat_lt
    have hb := b.toNat_lt
    simp only [List.forall_mem_cons]
    exact ⟨by omega, by omega, by omega, by simp⟩
  | case4 a b c rest ih =>
    have ha := a.toNat_lt
    have hb := b.toNat_lt
    have hc := c.toNat_lt
    simp only [List.forall_mem_cons]
    exact ⟨by omega, by omega, by omega, by omega, ih⟩

theorem byte_eq (a : UInt8) {n : Nat} (h : n = a.toNat) : UInt8.ofNat n = a := by
  subst h
  exact UInt8.ofNat_toNat

theorem bytes_sextets (data : List UInt8) : bytes (sextets data) = some data := by
  fun_induction sextets data with
  | case1 => rfl
  | case2 a =>
    rw [bytes, if_pos (by omega), byte_eq a (by omega)]
  | case3 a b =>
    have hb := b.toNat_lt
    rw [bytes, if_pos (by omega), byte_eq a (by omega), byte_eq b (by omega)]
  | case4 a b c rest ih =>
    have hb := b.toNat_lt
    have hc := c.toNat_lt
    rw [bytes, ih, Option.map_some, byte_eq a (by omega), byte_eq b (by omega), byte_eq c (by omega)]

theorem mapM_value {ns : List Nat} (h : ∀ n ∈ ns, n < 64) : (ns.map digit).mapM value = some ns := by
  induction ns with
  | nil => rfl
  | cons n ns ih =>
    obtain ⟨hn, hns⟩ := List.forall_mem_cons.1 h
    rw [List.map_cons, List.mapM_cons, value_digit n hn, ih hns]
    rfl

theorem rdropWhile_pad {digits : List Char} (h : '=' ∉ digits) (n : Nat) :
    (digits ++ List.replicate n '=').rdropWhile (· = '=') = digits := by
  induction n with
  | zero =>
    rw [List.replicate_zero, List.append_nil, List.rdropWhile_eq_self_iff]
    intro hne hlast
    exact h (of_decide_eq_true hlast ▸ List.getLast_mem hne)
  | succ n ih =>
    rw [List.replicate_succ', ← List.append_assoc]
    exact (List.rdropWhile_concat_pos _ _ _ (by simp)).trans ih

theorem decode_encode (padded : Bool) (data : List UInt8) : decode padded (encode padded data) = some data := by
  have hpad : '=' ∉ (sextets data).map digit := by
    intro h
    obtain ⟨n, hn, heq⟩ := List.mem_map.1 h
    exact digit_ne_pad n (sextets_lt data n hn) heq
  have hdigits : (if padded then (encode padded data).rdropWhile (· = '=') else encode padded data) =
      (sextets data).map digit := by
    cases padded with
    | false => rfl
    | true => exact rdropWhile_pad hpad _
  unfold decode
  simp only [hdigits]
  rw [if_pos (by rfl), mapM_value (sextets_lt data), Option.bind_some, bytes_sextets]

end Base64
