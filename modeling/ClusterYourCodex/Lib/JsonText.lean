import Mathlib.Data.Nat.Digits.Lemmas
import ClusterYourCodex.Lib.Json

/-! The reader of JSON texts undoes the compact writer on flat objects: plain keys, and values that are null, a
truth value or a natural number of a machine word. -/

namespace Json

/-! ### Decimal numbers -/

/-- The text of a number, as its digits. -/
def decimal (n : Nat) : List Char := Nat.toDigits 10 n

theorem toString_nat (n : Nat) : (toString (n : Int)).toList = decimal n := by
  have h : toString (n : Int) = toString n := rfl
  rw [h, Nat.toString_eq_ofList_toDigits, String.toList_ofList]
  rfl

variable {c : Char} {fuel n : Nat} {ds rest : List Char} {entries : List (String × Json)}

theorem isDigit_iff : isDigit c = true ↔ c.isDigit = true := by
  simp only [isDigit, Char.isDigit, Bool.and_eq_true, decide_eq_true_eq]
  exact Iff.rfl

theorem isDigit_of_mem_decimal (h : c ∈ decimal n) : isDigit c = true :=
  isDigit_iff.2 (Nat.isDigit_of_mem_toDigits (by decide) (by decide) h)

theorem digitsValue_decimal (n : Nat) : digitsValue (decimal n) = n :=
  (Nat.ofDigitChars_eq_foldl).symm.trans Nat.ofDigitChars_ten_toDigits

/-- A positive number does not start with a zero. -/
theorem head_decimal (h : 0 < n) : (decimal n).head? ≠ some '0' := by
  induction n using Nat.strong_induction_on with
  | _ n ih =>
    rw [decimal, Nat.toDigits_eq_if (by decide)]
    split
    · intro hzero
      have hchar : n.digitChar = '0' := by simpa using hzero
      have hn : n = 0 := Nat.digitChar_eq_zero.1 hchar
      omega
    · have hfront : Nat.toDigits 10 (n / 10) ≠ [] := Nat.toDigits_ne_nil
      rw [List.head?_append_of_ne_nil _ hfront]
      exact ih (n / 10) (by omega) (by omega)

/-- A number has no leading zero: if it starts with one, it is that one. -/
theorem decimal_leading {d : Char} (h : decimal n = d :: ds) : d = '0' → ds.length = 0 := by
  rintro rfl
  rcases Nat.eq_zero_or_pos n with rfl | hpos
  · rw [← (List.cons.inj h).2]
    rfl
  · exact absurd (by rw [h]; rfl) (head_decimal hpos)

/-- What may follow a number in an object: a comma or the closing brace. -/
def Closes (rest : List Char) : Prop := ∃ c tail, rest = c :: tail ∧ (c = ',' ∨ c = '\x7d')

theorem readDigits_append (hds : ∀ c ∈ ds, isDigit c = true) (hne : ds ≠ []) (hrest : Closes rest) :
    readDigits (ds ++ rest) = some (ds, rest) := by
  obtain ⟨c, tail, rfl, hc⟩ := hrest
  have hstop : isDigit c = false := by rcases hc with rfl | rfl <;> decide
  have htake : (ds ++ c :: tail).takeWhile isDigit = ds := by
    rw [List.takeWhile_append_of_pos hds, List.takeWhile_cons_of_neg (by simp [hstop]), List.append_nil]
  have hdrop : (ds ++ c :: tail).dropWhile isDigit = c :: tail := by
    rw [List.dropWhile_append_of_pos hds, List.dropWhile_cons_of_neg (by simp [hstop])]
  simp only [readDigits, htake, hdrop]
  rw [if_neg (by simpa using hne)]

theorem digit_cases (h : isDigit c = true) :
    c = '0' ∨ c = '1' ∨ c = '2' ∨ c = '3' ∨ c = '4' ∨ c = '5' ∨ c = '6' ∨ c = '7' ∨ c = '8' ∨ c = '9' := by
  simp only [isDigit, Bool.and_eq_true, decide_eq_true_eq] at h
  have hlow : 48 ≤ c.toNat := h.1
  have hhigh : c.toNat ≤ 57 := h.2
  have hchar : Char.ofNat c.toNat = c := Char.ofNat_toNat c
  generalize c.toNat = k at hlow hhigh hchar
  subst hchar
  interval_cases k <;> decide

/-- A number starts with a digit. -/
theorem decimal_cons (n : Nat) : ∃ d ds, decimal n = d :: ds ∧ isDigit d = true := by
  cases h : decimal n with
  | nil => exact absurd h Nat.toDigits_ne_nil
  | cons d ds =>
    have hd : d ∈ decimal n := by rw [h]; exact List.mem_cons_self
    exact ⟨d, ds, rfl, isDigit_of_mem_decimal hd⟩

theorem readNumber_decimal (hn : n < 18446744073709551616) (hrest : Closes rest) :
    readNumber (decimal n ++ rest) = some (int n, rest) := by
  have hdigits : readDigits (decimal n ++ rest) = some (decimal n, rest) :=
    readDigits_append (fun _ h => isDigit_of_mem_decimal h) Nat.toDigits_ne_nil hrest
  have hvalue := digitsValue_decimal n
  obtain ⟨d, ds, hd, hdigit⟩ := decimal_cons n
  have hzero := decimal_leading hd
  obtain ⟨c, tail, rfl, hc⟩ := hrest
  rw [hd] at hdigits hvalue ⊢
  rw [List.cons_append] at hdigits ⊢
  unfold readNumber
  -- a digit is no sign, and neither a comma nor a brace starts a fraction or an exponent
  rcases hc with rfl | rfl <;>
    rcases digit_cases hdigit with rfl | rfl | rfl | rfl | rfl | rfl | rfl | rfl | rfl | rfl <;>
      simp [hdigits, hvalue, hzero, hn]

/-! ### Keys -/

/-- A character that a string literal holds as it is. -/
def plain (c : Char) : Bool := c ≠ '"' && c ≠ '\\' && 32 ≤ c.toNat

theorem escape_plain (h : plain c = true) : escape c = [c] := by
  simp only [plain, Bool.and_eq_true, decide_eq_true_eq] at h
  obtain ⟨⟨hquote, hslash⟩, hlow⟩ := h
  unfold escape
  rw [if_neg hquote, if_neg hslash, if_neg (by omega), if_neg (by omega), if_neg (by omega), if_neg (by omega),
    if_neg (by omega), if_neg (by omega)]

theorem quote_plain {key : String} (h : key.toList.all plain = true) : quote key = '"' :: key.toList ++ ['"'] := by
  have hall : ∀ c ∈ key.toList, plain c = true := List.all_eq_true.1 h
  have hflat : ∀ cs : List Char, (∀ c ∈ cs, plain c = true) → cs.flatMap escape = cs := by
    intro cs hcs
    induction cs with
    | nil => rfl
    | cons c cs ih =>
      obtain ⟨hc, hcs⟩ := List.forall_mem_cons.1 hcs
      rw [List.flatMap_cons, escape_plain hc, ih hcs]
      rfl
  rw [quote, hflat _ hall]

theorem readString_cons (h : plain c = true) (fuel : Nat) (acc rest : List Char) :
    readString (fuel + 1) acc (c :: rest) = readString fuel (c :: acc) rest := by
  simp only [plain, Bool.and_eq_true, decide_eq_true_eq] at h
  obtain ⟨⟨hquote, hslash⟩, hlow⟩ := h
  simp [readString, hslash, Nat.not_lt.2 hlow]

theorem readString_plain {cs : List Char} (h : ∀ c ∈ cs, plain c = true) (hfuel : cs.length < fuel)
    (acc rest : List Char) :
    readString fuel acc (cs ++ '"' :: rest) = some (String.ofList (acc.reverse ++ cs), rest) := by
  induction cs generalizing fuel acc with
  | nil =>
    obtain ⟨fuel, rfl⟩ := Nat.exists_eq_add_one_of_ne_zero (Nat.ne_of_gt hfuel)
    simp [readString]
  | cons c cs ih =>
    obtain ⟨fuel, rfl⟩ := Nat.exists_eq_add_one_of_ne_zero (Nat.ne_of_gt (Nat.zero_lt_of_lt hfuel))
    obtain ⟨hc, hcs⟩ := List.forall_mem_cons.1 h
    have hstep := ih hcs (Nat.lt_of_succ_lt_succ hfuel) (c :: acc)
    rw [List.cons_append, readString_cons hc, hstep, List.reverse_cons, List.append_assoc]
    rfl

/-! ### Flat objects -/

/-- A value without parts: null, a truth value or a natural number of a machine word. -/
inductive Scalar : Json → Prop
  | null : Scalar null
  | bool (b : Bool) : Scalar (bool b)
  | nat {n : Nat} (h : n < 18446744073709551616) : Scalar (int n)

theorem readValue_scalar {value : Json} (h : Scalar value) (rest : List Char) (hrest : Closes rest) (fuel depth : Nat) :
    readValue (fuel + 1) depth (write value ++ rest) = some (value, rest) := by
  cases h with
  | null => simp [write, readValue, skipSpace, isSpace]
  | bool b => cases b <;> simp [write, readValue, skipSpace, isSpace]
  | @nat n hn =>
    have hnumber := readNumber_decimal hn hrest
    obtain ⟨d, ds, hd, hdigit⟩ := decimal_cons n
    rw [write, toString_nat]
    rw [hd, List.cons_append] at hnumber ⊢
    rw [readValue]
    rcases digit_cases hdigit with rfl | rfl | rfl | rfl | rfl | rfl | rfl | rfl | rfl | rfl <;>
      exact hnumber

/-- An entry that the writer leaves as it is. -/
structure Flat (entry : String × Json) : Prop where
  key : entry.1.toList.all plain = true
  value : Scalar entry.2

theorem readEntries_flat (h : ∀ e ∈ entries, Flat e) (hne : entries ≠ [])
    (hfuel : 2 * entries.length ≤ fuel) (depth : Nat) (rest : List Char) :
    readEntries fuel depth (writeEntries entries ++ '\x7d' :: rest) = some (entries, rest) := by
  induction entries generalizing fuel with
  | nil => exact absurd rfl hne
  | cons e entries ih =>
    obtain ⟨hflat, hentries⟩ := List.forall_mem_cons.1 h
    obtain ⟨key, value⟩ := e
    obtain ⟨fuel, rfl⟩ : ∃ k, fuel = k + 2 := ⟨fuel - 2, by rw [List.length_cons] at hfuel; omega⟩
    have hkey := List.all_eq_true.1 hflat.key
    cases entries with
    | nil =>
      have hvalue := readValue_scalar hflat.value ('\x7d' :: rest) ⟨_, _, rfl, .inr rfl⟩ fuel depth
      rw [writeEntries, quote_plain hflat.key]
      simp only [List.cons_append, List.append_assoc, List.nil_append]
      rw [readEntries, skipSpace, List.dropWhile_cons_of_neg (by decide)]
      simp only
      rw [readString_plain hkey (by simp)]
      simp [skipSpace, isSpace, hvalue]
    | cons next entries =>
      have hvalue := readValue_scalar hflat.value (',' :: (writeEntries (next :: entries) ++ '\x7d' :: rest))
        ⟨_, _, rfl, .inl rfl⟩ fuel depth
      have hfuel : 2 * (next :: entries).length ≤ fuel + 1 := by
        simp only [List.length_cons] at hfuel ⊢
        omega
      have hrest := ih hentries (by simp) hfuel
      rw [writeEntries, quote_plain hflat.key]
      · simp only [List.cons_append, List.append_assoc, List.nil_append]
        rw [readEntries, skipSpace, List.dropWhile_cons_of_neg (by decide)]
        simp only
        rw [readString_plain hkey (by simp)]
        simp [skipSpace, isSpace, hvalue, hrest]
      · simp

theorem writeEntries_cons (e : String × Json) (entries : List (String × Json)) :
    ∃ tail, writeEntries (e :: entries) = '"' :: tail ∧ (writeEntries entries).length ≤ tail.length := by
  cases entries with
  | nil => exact ⟨_, rfl, Nat.zero_le _⟩
  | cons next entries =>
    refine ⟨(e.1.toList.flatMap escape ++ ['"']) ++ ':' :: write e.2 ++ ',' :: writeEntries (next :: entries), rfl, ?_⟩
    simp only [List.length_append, List.length_cons]
    omega

theorem length_writeEntries (entries : List (String × Json)) : entries.length ≤ (writeEntries entries).length := by
  induction entries with
  | nil => exact Nat.zero_le _
  | cons e entries ih =>
    obtain ⟨tail, heq, hle⟩ := writeEntries_cons e entries
    rw [heq, List.length_cons, List.length_cons]
    omega

/-- The compact text of a flat object is read back. -/
theorem read_write_flat (h : ∀ e ∈ entries, Flat e) (hne : entries ≠ []) :
    read (String.ofList (write (obj entries))) = some (obj entries) := by
  have hlength := length_writeEntries entries
  have htext : write (obj entries) = '\x7b' :: (writeEntries entries ++ ['\x7d']) := rfl
  have hfuel : 2 * entries.length ≤ 2 * (write (obj entries)).length + 1 := by
    rw [htext, List.length_cons, List.length_append]
    omega
  have hentries := readEntries_flat h hne hfuel 127 []
  obtain ⟨e, rest, rfl⟩ := List.exists_cons_of_ne_nil hne
  obtain ⟨tail, heq, -⟩ := writeEntries_cons e rest
  have hvalue : readValue (2 * (write (obj (e :: rest))).length + 2) 128 (write (obj (e :: rest))) =
      some (obj (e :: rest), []) := by
    rw [readValue]
    generalize 2 * (write (obj (e :: rest))).length + 1 = fuel at hentries ⊢
    rw [htext]
    rw [heq] at hentries ⊢
    simp [skipSpace, isSpace] at hentries ⊢
    exact hentries
  rw [read, String.toList_ofList, hvalue]
  rfl

end Json
