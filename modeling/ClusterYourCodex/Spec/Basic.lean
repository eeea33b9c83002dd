import ClusterYourCodex.Lib.Text
import ClusterYourCodex.Lib.Sha256
import ClusterYourCodex.Lib.Json

/-! Identifiers, instants and machine numbers shared by the protocol, the scheduler and the
controller store. Columns of the store are signed 64-bit, so counters are written through `asI64`
and read back through `asU64`, both of which saturate. -/

namespace CYC

/-- A 128-bit identifier. -/
structure Uuid where
  value : BitVec 128
  deriving DecidableEq, Repr

namespace Uuid

def nil : Uuid := ⟨0⟩

def isNil (u : Uuid) : Bool := u = nil

/-- Identifiers and their texts are ordered alike. -/
def compare (a b : Uuid) : Ordering := Ord.compare a.value.toNat b.value.toNat

def hexDigits : Nat → Nat → List Char
  | 0, _ => []
  | n + 1, x => Sha256.hexDigit (x / 16 ^ n % 16) :: hexDigits n x

/-- The 32 hexadecimal digits. -/
def simple (u : Uuid) : String := String.ofList (hexDigits 32 u.value.toNat)

/-- The digits in groups of 8, 4, 4, 4 and 12. -/
def hyphenated (u : Uuid) : String :=
  let n := u.value.toNat
  String.ofList (hexDigits 8 (n >>> 96) ++ '-' :: hexDigits 4 (n >>> 80) ++ '-' :: hexDigits 4 (n >>> 64) ++
    '-' :: hexDigits 4 (n >>> 48) ++ '-' :: hexDigits 12 n)

theorem length_hexDigits (n x : Nat) : (hexDigits n x).length = n := by
  induction n with
  | zero => rfl
  | succ n ih => simp [hexDigits, ih]

theorem hexDigit_ascii : ∀ n < 16, 0x20 ≤ (Sha256.hexDigit n).toNat ∧ (Sha256.hexDigit n).toNat < 0x7F := by
  decide

theorem hexDigits_ascii (n x : Nat) : ∀ c ∈ hexDigits n x, 0x20 ≤ c.toNat ∧ c.toNat < 0x7F := by
  induction n with
  | zero => intro c hc; cases hc
  | succ n ih =>
    intro c hc
    rcases List.mem_cons.1 hc with rfl | hc
    · exact hexDigit_ascii _ (Nat.mod_lt _ (by decide))
    · exact ih c hc

theorem fits_hyphenated (u : Uuid) : Text.Fits 36 u.hyphenated := by
  refine Text.fits_ofList (by simp [length_hexDigits]) fun c hc => ?_
  simp only [List.mem_append, List.mem_cons] at hc
  have dash : 0x20 ≤ '-'.toNat ∧ '-'.toNat < 0x7F := by decide
  rcases hc with (((h | rfl | h) | rfl | h) | rfl | h) | rfl | h
  all_goals first
    | exact dash
    | exact hexDigits_ascii _ _ c h

end Uuid

/-- An instant, in nanoseconds from the Unix epoch. -/
structure DateTime where
  nanos : Int
  deriving DecidableEq, Repr

namespace DateTime

/-- Whole seconds from the epoch, rounded down. -/
def timestamp (t : DateTime) : Int := t.nanos / 1000000000

def ofTimestamp (seconds : Int) : DateTime := ⟨seconds * 1000000000⟩

def addSeconds (t : DateTime) (seconds : Int) : DateTime := ⟨t.nanos + seconds * 1000000000⟩

/-- The nanoseconds from `s` to `t`. -/
def since (t s : DateTime) : Int := t.nanos - s.nanos

/-- The whole seconds of a duration, rounded toward zero. -/
def numSeconds (duration : Int) : Int := duration.tdiv 1000000000

/-- The instants the calendar library can represent: the years -262143 to 262142. -/
def Representable (t : DateTime) : Prop :=
  -8334601315200 * 1000000000 ≤ t.nanos ∧ t.nanos < 8210266876800 * 1000000000

instance (t : DateTime) : Decidable t.Representable := inferInstanceAs (Decidable (_ ∧ _))

/-- Year, month and day of the `days`-th day from the epoch; years are counted from March, so that a
leap day ends one. -/
def civil (days : Int) : Int × Nat × Nat :=
  let z := days + 719468
  let era := z / 146097
  let doe := (z - era * 146097).toNat
  let yoe := (doe - doe / 1460 + doe / 36524 - doe / 146096) / 365
  let doy := doe - (365 * yoe + yoe / 4 - yoe / 100)
  let mp := (5 * doy + 2) / 153
  let month := if mp < 10 then mp + 3 else mp - 9
  (era * 400 + yoe + (if month ≤ 2 then 1 else 0), month, doy - (153 * mp + 2) / 5 + 1)

/-- The last `width` decimal digits of a number. -/
def digits : Nat → Nat → List Char
  | 0, _ => []
  | width + 1, n => Char.ofNat (48 + n / 10 ^ width % 10) :: digits width n

def yearText (year : Int) : List Char :=
  if 0 ≤ year ∧ year ≤ 9999 then digits 4 year.toNat
  else (if year < 0 then '-' else '+') :: digits (if year.natAbs < 100000 then (if year.natAbs < 10000 then 4 else 5) else 6)
    year.natAbs

/-- Nothing, or as many of 3, 6 and 9 digits as the nanoseconds need. -/
def fractionText (nanos : Nat) : List Char :=
  if nanos = 0 then []
  else if nanos % 1000000 = 0 then '.' :: digits 3 (nanos / 1000000)
  else if nanos % 1000 = 0 then '.' :: digits 6 (nanos / 1000)
  else '.' :: digits 9 nanos

/-- The text of an instant, with `zone` for the name of UTC. -/
def rfc3339 (zone : String) (t : DateTime) : String :=
  let seconds := t.timestamp
  let (year, month, day) := civil (seconds / 86400)
  let second := (seconds % 86400).toNat
  String.ofList (yearText year ++ '-' :: digits 2 month ++ '-' :: digits 2 day ++ 'T' :: digits 2 (second / 3600) ++
    ':' :: digits 2 (second / 60 % 60) ++ ':' :: digits 2 (second % 60) ++
    fractionText (t.nanos % 1000000000).toNat ++ zone.toList)

/-- As a text column holds it. -/
def toRfc3339 (t : DateTime) : String := t.rfc3339 "+00:00"

/-- As a JSON document holds it. -/
def toJson (t : DateTime) : Json := .str (t.rfc3339 "Z")

example : (⟨1791504000 * 1000000000 + 120000000⟩ : DateTime).toRfc3339 = "2026-10-09T00:00:00.120+00:00" := by decide

def year (t : DateTime) : Int := (civil (t.timestamp / 86400)).1

/-- The text of the instant has a year of four digits. `to_rfc3339` writes any other year with a sign,
and `parse_from_rfc3339` does not read one. -/
def plainYear (t : DateTime) : Bool := 0 ≤ t.year && t.year ≤ 9999

theorem civil_year {days : Int} (hfirst : 0 ≤ days) (hlast : days < 2932897) :
    0 ≤ (civil days).1 ∧ (civil days).1 ≤ 9999 := by
  simp only [civil]
  -- `doe` is the day of its era of 400 years, `yoe` the year
  obtain ⟨doe, hdoe⟩ : ∃ doe : Nat, (days + 719468) - (days + 719468) / 146097 * 146097 = doe :=
    ⟨_, (Int.toNat_of_nonneg (by omega)).symm⟩
  rw [hdoe, Int.toNat_natCast]
  generalize hyoe : (doe - doe / 1460 + doe / 36524 - doe / 146096) / 365 = yoe
  have hyear : yoe ≤ 399 := by omega
  split <;> split <;> omega

theorem plainYear_of_bounds {t : DateTime} (hlow : 0 ≤ t.nanos)
    (hhigh : t.nanos < 253402300800 * 1000000000) : t.plainYear = true := by
  have hfirst : 0 ≤ t.timestamp / 86400 := by unfold timestamp; omega
  have hlast : t.timestamp / 86400 < 2932897 := by unfold timestamp; omega
  obtain ⟨hnonneg, hle⟩ := civil_year hfirst hlast
  exact Bool.and_eq_true_iff.2 ⟨decide_eq_true hnonneg, decide_eq_true hle⟩

@[simp] theorem timestamp_ofTimestamp (seconds : Int) : (ofTimestamp seconds).timestamp = seconds := by
  simp only [ofTimestamp, timestamp]
  omega

end DateTime

/-! ### Machine numbers -/

def u32Max : Nat := 4294967295

def u64Max : Nat := 18446744073709551615

def i64Max : Int := 9223372036854775807

def i64Min : Int := -9223372036854775808

/-- Saturates at the largest 32-bit number. -/
def satU32 (n : Nat) : Nat := min n u32Max

def satU64 (n : Nat) : Nat := min n u64Max

def satI64 (i : Int) : Int := max i64Min (min i i64Max)

/-- A counter as a column: saturates at the largest signed number. -/
def asI64 (n : Nat) : Int := min (n : Int) i64Max

/-- A column as a counter: a negative value reads as zero. -/
def asU64 (i : Int) : Nat := i.toNat

/-- The largest integer every JSON reader keeps exactly. -/
def maxSafeJsonInteger : Nat := 9007199254740991

/-- The bytes of a text. -/
def textBytes (s : String) : List Nat := Json.utf8 s.toList

/-- SHA-256 of a text in lowercase hexadecimal. -/
def textSha256 (s : String) : String := Sha256.hex (textBytes s)

end CYC
