import Mathlib.Data.Nat.Digits.Lemmas
import Mathlib.Data.String.Basic

/-! Text as a program over UTF-8 strings sees it: the Unicode classes its checks consult, the length
in bytes and in characters, and the splitting and trimming of the standard library. `Fits n s` says
that `s` takes at most `n` bytes and has no control character; it is closed under concatenation, so
a bound on a formatted message is read off its pieces. -/

namespace Text

variable {p : Char → Bool} {n : Nat} {s : String}

/-- The property White_Space. -/
def isWhitespace (c : Char) : Bool :=
  let n := c.toNat
  (9 ≤ n && n ≤ 13) || n == 0x20 || n == 0x85 || n == 0xA0 || n == 0x1680 || (0x2000 ≤ n && n ≤ 0x200A) ||
    n == 0x2028 || n == 0x2029 || n == 0x202F || n == 0x205F || n == 0x3000

/-- The general category Cc. -/
def isControl (c : Char) : Bool := c.toNat < 0x20 || (0x7F ≤ c.toNat && c.toNat < 0xA0)

/-- Nothing is left after trimming. -/
def blank (s : String) : Bool := s.toList.all isWhitespace

def hasControl (s : String) : Bool := s.toList.any isControl

def charCount (s : String) : Nat := s.toList.length

def byteCount (s : String) : Nat := s.utf8ByteSize

/-- The text without the white space at its ends. -/
def trim (s : String) : String :=
  String.ofList ((s.toList.dropWhile isWhitespace).reverse.dropWhile isWhitespace).reverse

/-- Trimming removes nothing. -/
def isTrimmed (s : String) : Bool :=
  !(s.toList.head?.any isWhitespace) && !(s.toList.getLast?.any isWhitespace)

def isAsciiDigit (c : Char) : Bool := '0' ≤ c && c ≤ '9'

def isAsciiLower (c : Char) : Bool := 'a' ≤ c && c ≤ 'z'

def isAsciiUpper (c : Char) : Bool := 'A' ≤ c && c ≤ 'Z'

def isAsciiAlphabetic (c : Char) : Bool := isAsciiLower c || isAsciiUpper c

def isAsciiAlphanumeric (c : Char) : Bool := isAsciiAlphabetic c || isAsciiDigit c

def isLowerHexDigit (c : Char) : Bool := isAsciiDigit c || ('a' ≤ c && c ≤ 'f')

def toAsciiLower (c : Char) : Char := if isAsciiUpper c then Char.ofNat (c.toNat + 32) else c

/-- The maximal pieces of `cs` without `sep`: always one more piece than there are separators. -/
def splitOnChar (p : Char → Bool) : List Char → List (List Char)
  | [] => [[]]
  | c :: cs =>
    if p c then [] :: splitOnChar p cs
    else match splitOnChar p cs with
      | [] => [[c]]
      | piece :: pieces => (c :: piece) :: pieces

/-- What stands before and after the first `sep`. -/
def splitOnce (sep : Char) : List Char → Option (List Char × List Char)
  | [] => none
  | c :: cs => if c = sep then some ([], cs) else (splitOnce sep cs).map fun (a, b) => (c :: a, b)

/-! ### Pieces -/

variable {cs piece : List Char} {sep : Char} {e m : Nat} {t : String}

theorem splitOnChar_append (h : ∀ c ∈ piece, p c = false) (hsep : p sep = true)
    (rest : List Char) : splitOnChar p (piece ++ sep :: rest) = piece :: splitOnChar p rest := by
  induction piece with
  | nil => rw [List.nil_append, splitOnChar, if_pos hsep]
  | cons c piece ih =>
    obtain ⟨hc, hpiece⟩ := List.forall_mem_cons.1 h
    rw [List.cons_append, splitOnChar, if_neg (by simp [hc]), ih hpiece]

theorem splitOnChar_piece (h : ∀ c ∈ piece, p c = false) : splitOnChar p piece = [piece] := by
  induction piece with
  | nil => rfl
  | cons c piece ih =>
    obtain ⟨hc, hpiece⟩ := List.forall_mem_cons.1 h
    rw [splitOnChar, if_neg (by simp [hc]), ih hpiece]

theorem splitOnChar_congr {q : Char → Bool} (h : ∀ c ∈ cs, p c = q c) : splitOnChar p cs = splitOnChar q cs := by
  induction cs with
  | nil => rfl
  | cons c cs ih =>
    obtain ⟨hc, hcs⟩ := List.forall_mem_cons.1 h
    rw [splitOnChar, splitOnChar, hc, ih hcs]

theorem intercalate_cons (sep : Char) (piece next : List Char) (pieces : List (List Char)) :
    [sep].intercalate (piece :: next :: pieces) = piece ++ sep :: [sep].intercalate (next :: pieces) := by
  simp [List.intercalate]

/-- Pieces without the separator are split where they were joined. -/
theorem splitOnChar_intercalate (hsep : p sep = true) {pieces : List (List Char)} (hne : pieces ≠ [])
    (h : ∀ piece ∈ pieces, ∀ c ∈ piece, p c = false) : splitOnChar p ([sep].intercalate pieces) = pieces := by
  induction pieces with
  | nil => exact absurd rfl hne
  | cons piece pieces ih =>
    obtain ⟨hpiece, hpieces⟩ := List.forall_mem_cons.1 h
    cases pieces with
    | nil => simpa [List.intercalate] using splitOnChar_piece hpiece
    | cons next pieces => rw [intercalate_cons, splitOnChar_append hpiece hsep, ih (by simp) hpieces]

/-- The characters of joined pieces, and how many they can be. -/
theorem intercalate_text {P : Char → Prop} (hsep : P sep) (m : Nat) (pieces : List (List Char))
    (h : ∀ piece ∈ pieces, piece.length ≤ m ∧ ∀ c ∈ piece, P c) :
    ([sep].intercalate pieces).length ≤ pieces.length * (m + 1) ∧ ∀ c ∈ [sep].intercalate pieces, P c := by
  induction pieces with
  | nil => simp [List.intercalate]
  | cons piece pieces ih =>
    obtain ⟨⟨hlength, hpiece⟩, hpieces⟩ := List.forall_mem_cons.1 h
    obtain ⟨ihlength, ihchars⟩ := ih hpieces
    cases pieces with
    | nil =>
      have hsingle : [sep].intercalate [piece] = piece := by simp [List.intercalate]
      rw [hsingle]
      exact ⟨by simp; omega, hpiece⟩
    | cons next pieces =>
      rw [intercalate_cons]
      constructor
      · simp only [List.length_append, List.length_cons] at ihlength ⊢
        rw [Nat.succ_mul]
        omega
      · intro c hc
        rcases List.mem_append.1 hc with hc | hc
        · exact hpiece c hc
        · rcases List.mem_cons.1 hc with rfl | hc
          · exact hsep
          · exact ihchars c hc

/-! ### Bounded text -/

structure Fits (n : Nat) (s : String) : Prop where
  bytes : byteCount s ≤ n
  printable : hasControl s = false

instance (n : Nat) (s : String) : Decidable (Fits n s) :=
  decidable_of_iff (byteCount s ≤ n ∧ hasControl s = false) ⟨fun h => ⟨h.1, h.2⟩, fun h => ⟨h.1, h.2⟩⟩

theorem Fits.mono (h : Fits m s) (hmn : m ≤ n) : Fits n s :=
  ⟨h.bytes.trans hmn, h.printable⟩

theorem hasControl_append (s t : String) : hasControl (s ++ t) = (hasControl s || hasControl t) := by
  simp [hasControl, String.toList_append]

theorem byteCount_append (s t : String) : byteCount (s ++ t) = byteCount s + byteCount t :=
  String.utf8ByteSize_append

theorem Fits.append (hs : Fits m s) (ht : Fits n t) : Fits (m + n) (s ++ t) where
  bytes := by rw [byteCount_append]; exact Nat.add_le_add hs.bytes ht.bytes
  printable := by rw [hasControl_append, hs.printable, ht.printable]; rfl

theorem blank_append (s t : String) : blank (s ++ t) = (blank s && blank t) := by
  simp [blank, String.toList_append]

/-- Bounded text that is not blank. -/
structure Legible (n : Nat) (s : String) : Prop extends Fits n s where
  nonblank : blank s = false

instance (n : Nat) (s : String) : Decidable (Legible n s) :=
  decidable_of_iff (Fits n s ∧ blank s = false) ⟨fun h => ⟨h.1, h.2⟩, fun h => ⟨h.1, h.2⟩⟩

theorem Legible.append (hs : Legible m s) (ht : Fits n t) : Legible (m + n) (s ++ t) where
  toFits := hs.toFits.append ht
  nonblank := by rw [blank_append, hs.nonblank]; rfl

theorem Fits.append_legible (hs : Fits m s) (ht : Legible n t) : Legible (m + n) (s ++ t)  where
  toFits := hs.append ht.toFits
  nonblank := by rw [blank_append, ht.nonblank, Bool.and_false]

theorem Legible.mono (h : Legible m s) (hmn : m ≤ n) : Legible n s :=
  ⟨h.toFits.mono hmn, h.nonblank⟩

theorem fits_lit (h : hasControl s = false) : Fits (byteCount s) s := ⟨le_rfl, h⟩

theorem legible_lit (h : hasControl s = false) (hb : blank s = false) : Legible (byteCount s) s :=
  ⟨fits_lit h, hb⟩

/-- Text of at most `n` characters, each from a one-byte printable class, fits in `n` bytes. -/
theorem fits_ofList (hlen : cs.length ≤ n) (hsmall : ∀ c ∈ cs, 0x20 ≤ c.toNat ∧ c.toNat < 0x7F) :
    Fits n (String.ofList cs) where
  bytes := by
    refine le_trans ?_ hlen
    rw [byteCount, String.utf8ByteSize_ofList]
    clear hlen
    induction cs with
    | nil => rfl
    | cons c cs ih =>
      have hc : c.utf8Size = 1 := by
        have := (hsmall c List.mem_cons_self).2
        have hval : c.val ≤ 0x7f := by
          rw [UInt32.le_iff_toNat_le]
          exact Nat.le_of_lt_succ (this.trans (by decide))
        simp [Char.utf8Size, hval]
      have := ih fun d hd => hsmall d (List.mem_cons_of_mem _ hd)
      simp only [String.utf8Len_cons, List.length_cons, hc]
      omega
  printable := by
    rw [hasControl, String.toList_ofList, List.any_eq_false]
    intro c hc
    have := hsmall c hc
    simp [isControl]
    omega

theorem ascii_of_isDigit {c : Char} (h : c.isDigit = true) : 0x20 ≤ c.toNat ∧ c.toNat < 0x7F := by
  simp only [Char.isDigit, Bool.and_eq_true, decide_eq_true_eq, ge_iff_le, UInt32.le_iff_toNat_le] at h
  have h1 : '0'.val.toNat = 48 := rfl
  have h2 : '9'.val.toNat = 57 := rfl
  have h3 : c.toNat = c.val.toNat := rfl
  omega

/-- A number below `10 ^ e` prints in at most `e` bytes. -/
theorem fits_nat (he : 0 < e) (h : n < 10 ^ e) : Fits e (toString n) := by
  have hlen := Nat.repr_length n e he h
  refine @fits_ofList _ (Nat.toDigits 10 n) ?_ fun c hc => ?_
  · simpa [Nat.repr] using hlen
  · exact ascii_of_isDigit (Nat.isDigit_of_mem_toDigits (by omega) (by omega) hc)

/-- A signed number below `10 ^ e` in magnitude prints in at most `e + 1` bytes. -/
theorem fits_int {i : Int} (he : 0 < e) (h : i.natAbs < 10 ^ e) : Fits (e + 1) (toString i) := by
  cases i with
  | ofNat n => exact (fits_nat he h).mono (Nat.le_succ e)
  | negSucc n =>
    rw [Nat.add_comm]
    exact Fits.append (s := "-") (by decide) (fits_nat he h)

theorem charCount_le_byteCount (s : String) : charCount s ≤ byteCount s := by
  have hlist : ∀ cs : List Char, cs.length ≤ (String.ofList cs).utf8ByteSize := by
    intro cs
    rw [String.utf8ByteSize_ofList]
    induction cs with
    | nil => exact Nat.zero_le _
    | cons c cs ih =>
      have hc := Char.utf8Size_pos c
      simp only [String.utf8Len_cons, List.length_cons]
      omega
  have hs := hlist s.toList
  rwa [String.ofList_toList] at hs

end Text
