import Mathlib.Data.String.Basic

/-! How two shells read quoted text. `Posix.words` splits a command line by the word and quoting rules
of the POSIX shell, as long as nothing in it asks for an expansion or an operator. `PowerShell.readLiteral`
reads a single-quoted literal the way the PowerShell tokenizer does: five characters count as single
quotes, and a quote belongs to the literal only when it is doubled. -/

/-! ### POSIX words -/

namespace Posix

variable {rest text rest' : List Char}

def isBlank (c : Char) : Bool := c = ' ' || c = '\t'

/-- The characters that mean something other than themselves when they are not quoted. -/
def isActive (c : Char) : Bool :=
  "|&;<>()$`\n*?[#~=%!".toList.contains c || c = Char.ofNat 0x7b || c = Char.ofNat 0x7d

/-- Where the reader stands. The text is the word read so far; between words there is none. -/
inductive Mode where
  | bare (word : Option (List Char))
  | escaped (word : List Char)
  | single (word : List Char)
  | double (word : List Char)

/-- The words of a command line; nothing when a quote is left open or an active character stands
outside single quotes. -/
def lex : Mode → List Char → Option (List (List Char))
  | .bare word, [] => some word.toList
  | .bare word, c :: cs =>
    if isBlank c then (lex (.bare none) cs).map (word.toList ++ ·)
    else if c = '\'' then lex (.single (word.getD [])) cs
    else if c = '"' then lex (.double (word.getD [])) cs
    else if c = '\\' then lex (.escaped (word.getD [])) cs
    else if isActive c then none
    else lex (.bare (some (word.getD [] ++ [c]))) cs
  | .escaped word, c :: cs => if c = '\n' then none else lex (.bare (some (word ++ [c]))) cs
  | .single word, c :: cs =>
    if c = '\'' then lex (.bare (some word)) cs else lex (.single (word ++ [c])) cs
  | .double word, c :: cs =>
    if c = '"' then lex (.bare (some word)) cs
    else if c = '$' || c = Char.ofNat 0x60 || c = '\\' then none
    else lex (.double (word ++ [c])) cs
  | _, [] => none

def words (cs : List Char) : Option (List (List Char)) := lex (.bare none) cs

/-- A word that is complete when the line goes on with a blank or ends. -/
theorem lex_bare_blank (word cs : List Char) :
    lex (.bare (some word)) (' ' :: cs) = (lex (.bare none) cs).map (word :: ·) := by
  rw [lex, if_pos (by decide)]
  rfl

theorem lex_bare_plain {cs : List Char} (h : ∀ c ∈ cs, isBlank c = false ∧ isActive c = false ∧ c ≠ '\'' ∧ c ≠ '"' ∧ c ≠ '\\')
    (word : Option (List Char)) (hcs : cs ≠ []) (rest : List Char) :
    lex (.bare word) (cs ++ rest) = lex (.bare (some (word.getD [] ++ cs))) rest := by
  induction cs generalizing word with
  | nil => exact absurd rfl hcs
  | cons c cs ih =>
    obtain ⟨hblank, hactive, hsingle, hdouble, hescape⟩ := h c List.mem_cons_self
    rw [List.cons_append, lex]
    simp only [hblank, hsingle, hdouble, hescape, hactive, if_false, Bool.false_eq_true]
    cases cs with
    | nil => rfl
    | cons d cs =>
      rw [ih (fun e he => h e (List.mem_cons_of_mem _ he)) _ (List.cons_ne_nil _ _)]
      simp

end Posix

/-! ### PowerShell literals -/

namespace PowerShell

def isSingleQuote (c : Char) : Bool :=
  c = '\'' || c = '\u2018' || c = '\u2019' || c = '\u201a' || c = '\u201b'

/-- A single quote other than the apostrophe. -/
def isTypographic (c : Char) : Bool := isSingleQuote c && c ≠ '\''

/-- What is left open about the interpreter: which neighbouring quotes count as one doubled quote (at
least a quote repeated, at most any two quotes), and under which folding two keys of a hash literal
are the same key. -/
structure Dialect where
  doubled : Char → Char → Bool
  doubled_self : ∀ c, isSingleQuote c = true → doubled c c = true
  doubled_quotes : ∀ c d, doubled c d = true → isSingleQuote c = true ∧ isSingleQuote d = true
  foldKey : List Char → List Char

/-- The rest of a literal whose opening quote was read: its text and what follows the closing quote. -/
def readBody (d : Dialect) : List Char → Option (List Char × List Char)
  | [] => none
  | [c] => if isSingleQuote c then some ([], []) else none
  | c :: e :: rest =>
    if isSingleQuote c then
      if d.doubled c e then (readBody d rest).map fun (text, rest) => (e :: text, rest)
      else some ([], e :: rest)
    else (readBody d (e :: rest)).map fun (text, rest) => (c :: text, rest)

def readLiteral (d : Dialect) : List Char → Option (List Char × List Char)
  | [] => none
  | c :: cs => if isSingleQuote c then readBody d cs else none

/-- Quoting that doubles the apostrophe and nothing else. -/
def doubleApostrophes (cs : List Char) : List Char := cs.flatMap fun c => if c = '\'' then ['\'', '\''] else [c]

/-- The text that follows cannot be taken for the second half of a doubled quote. -/
def Separated (rest : List Char) : Prop := ∀ c ∈ rest.head?, isSingleQuote c = false

variable {d : Dialect}

variable {c : Char} {after cs key : List Char} {n : Nat}

theorem readBody_plain (h : isSingleQuote c = false) (rest : List Char) :
    readBody d (c :: rest) = (readBody d rest).map fun (text, rest) => (c :: text, rest) := by
  cases rest with
  | nil | cons => simp [readBody, h]

theorem readBody_doubled (c : Char) (h : isSingleQuote c = true) (rest : List Char) :
    readBody d (c :: c :: rest) = (readBody d rest).map fun (text, rest) => (c :: text, rest) := by
  simp [readBody, h, d.doubled_self c h]

theorem readBody_close (h : isSingleQuote c = true) (hrest : Separated rest) :
    readBody d (c :: rest) = some ([], rest) := by
  cases rest with
  | nil => simp [readBody, h]
  | cons e rest =>
    have he : isSingleQuote e = false := hrest e rfl
    have hpair : d.doubled c e = false := by
      by_contra hne
      have := (d.doubled_quotes c e (by simpa using hne)).2
      rw [he] at this
      cases this
    simp [readBody, h, hpair]

/-- Text without typographic quotes is read back through the doubling of its apostrophes. -/
theorem readBody_doubleApostrophes (h : ∀ c ∈ text, isTypographic c = false) (rest : List Char) :
    readBody d (doubleApostrophes text ++ rest) =
      (readBody d rest).map fun (more, rest) => (text ++ more, rest) := by
  induction text with
  | nil => simp [doubleApostrophes]
  | cons c text ih =>
    have hrest := ih fun e he => h e (List.mem_cons_of_mem _ he)
    have hc := h c List.mem_cons_self
    simp only [doubleApostrophes] at hrest
    simp only [doubleApostrophes, List.flatMap_cons]
    by_cases hq : c = '\''
    · subst hq
      rw [if_pos rfl, List.append_assoc, List.cons_append, List.cons_append, List.nil_append,
        readBody_doubled _ (by decide), hrest, Option.map_map]
      rfl
    · have hplain : isSingleQuote c = false := by simpa [isTypographic, hq] using hc
      rw [if_neg hq, List.singleton_append, List.cons_append, readBody_plain hplain, hrest, Option.map_map]
      rfl

/-- What a literal consumed: as many other characters as its text has, and two quotes for every quote
of the text. -/
theorem readBody_consumed (h : readBody d cs = some (text, rest)) : ∃ consumed close, cs = consumed ++ close :: rest ∧
      consumed.countP (fun c => !isSingleQuote c) = text.countP (fun c => !isSingleQuote c) ∧
      consumed.countP isSingleQuote = 2 * text.countP isSingleQuote := by
  fun_induction readBody d cs generalizing text rest with
  | case1 => cases h
  | case2 c hc =>
    cases h
    exact ⟨[], c, rfl, rfl, rfl⟩
  | case3 c hc => cases h
  | case4 c e tail hc hpair ih =>
    obtain ⟨⟨text', rest'⟩, hread, heq⟩ := Option.map_eq_some_iff.mp h
    cases heq
    obtain ⟨consumed, close, rfl, hother, hquotes⟩ := ih hread
    have he := (d.doubled_quotes c e hpair).2
    refine ⟨c :: e :: consumed, close, rfl, ?_, ?_⟩
    · simpa [List.countP_cons, hc, he] using hother
    · simp only [List.countP_cons, hc, he, if_true, hquotes]
      omega
  | case5 c e tail hc hpair =>
    cases h
    exact ⟨[], c, rfl, rfl, rfl⟩
  | case6 c e tail hc ih =>
    obtain ⟨⟨text', rest'⟩, hread, heq⟩ := Option.map_eq_some_iff.mp h
    cases heq
    obtain ⟨consumed, close, hcs, hother, hquotes⟩ := ih hread
    have hc' : isSingleQuote c = false := by simpa using hc
    refine ⟨c :: consumed, close, by rw [hcs]; rfl, ?_, ?_⟩
    · simp [hc', hother]
    · simpa [List.countP_cons, hc'] using hquotes

theorem countP_doubleApostrophes_other (text : List Char) :
    (doubleApostrophes text).countP (fun c => !isSingleQuote c) = text.countP (fun c => !isSingleQuote c) := by
  induction text with
  | nil => rfl
  | cons c text ih =>
    simp only [doubleApostrophes] at ih
    simp only [doubleApostrophes, List.flatMap_cons, List.countP_append, ih]
    by_cases hq : c = '\''
    · subst hq
      simp [show isSingleQuote '\'' = true from rfl]
    · simp [List.countP_cons, hq, Nat.add_comm]

/-- Doubling repeats every quote but the typographic ones. -/
theorem countP_doubleApostrophes_quotes (text : List Char) :
    (doubleApostrophes text).countP isSingleQuote + text.countP isTypographic = 2 * text.countP isSingleQuote := by
  induction text with
  | nil => rfl
  | cons c text ih =>
    simp only [doubleApostrophes] at ih
    simp only [doubleApostrophes, List.flatMap_cons, List.countP_append, List.countP_cons]
    by_cases hq : c = '\''
    · subst hq
      simp [isTypographic, show isSingleQuote '\'' = true from rfl]
      omega
    · simp only [hq, if_false, List.countP_cons, List.countP_nil, isTypographic, ne_eq, not_false_eq_true, decide_true,
        Bool.and_true]
      split <;> omega

theorem separated_of_other {before : List Char}
    (h : before.countP (fun c => !isSingleQuote c) = 0) (hs : Separated (before ++ c :: after)) : before = [] := by
  cases before with
  | nil => rfl
  | cons e before =>
    have he : isSingleQuote e = false := hs e rfl
    simp [he] at h

theorem length_eq_quotes_add_other (cs : List Char) :
    cs.length = cs.countP isSingleQuote + cs.countP (fun c => !isSingleQuote c) := by
  rw [List.length_eq_countP_add_countP isSingleQuote]
  congr 2
  funext c
  simp

/-- A reading that finds the whole of a text with a typographic quote takes the closing apostrophe, and
nothing after it, for part of the literal: the lone quote is read as half of a pair. -/
theorem consumed_of_typographic (hrest : Separated rest)
    (h : readBody d (doubleApostrophes text ++ '\'' :: rest) = some (text, rest'))
    (hpos : 0 < text.countP isTypographic) : text.countP isTypographic = 1 := by
  obtain ⟨consumed, close, hsplit, hother, hquotes⟩ := readBody_consumed h
  have hother' := countP_doubleApostrophes_other text
  have hquotes' := countP_doubleApostrophes_quotes text
  have hlt : (doubleApostrophes text).length < consumed.length := by
    rw [length_eq_quotes_add_other, length_eq_quotes_add_other]
    omega
  obtain ⟨more, rfl⟩ : ∃ more, consumed = doubleApostrophes text ++ '\'' :: more := by
    rcases List.append_eq_append_iff.mp hsplit with ⟨as, has, htail⟩ | ⟨bs, hbs, htail⟩
    · cases as with
      | nil =>
        rw [has] at hlt
        simp at hlt
      | cons a as =>
        obtain ⟨rfl, -⟩ := List.cons.inj htail
        exact ⟨as, has⟩
    · rw [hbs] at hlt
      simp at hlt
  have hsuffix : rest = more ++ close :: rest' := by
    rw [List.append_assoc] at hsplit
    simpa using List.append_cancel_left hsplit
  have hmore : more = [] := by
    refine separated_of_other ?_ (hsuffix ▸ hrest)
    rw [List.countP_append, List.countP_cons, hother'] at hother
    omega
  rw [hmore, List.countP_append] at hquotes
  simp only [List.countP_cons, List.countP_nil, show isSingleQuote '\'' = true from rfl, if_true] at hquotes
  omega

/-- A typographic quote followed by text without any is not read as itself: its partner would have to be
an apostrophe. -/
theorem readBody_typographic (hc : isTypographic c = true) (hafter : ∀ e ∈ after, isTypographic e = false) :
    readBody d (c :: (doubleApostrophes after ++ '\'' :: rest)) ≠ some (c :: after, rest') := by
  intro h
  have hquote : isSingleQuote c = true := by
    simp only [isTypographic, Bool.and_eq_true] at hc
    exact hc.1
  obtain ⟨e, more, hnext, he⟩ : ∃ e more, doubleApostrophes after ++ '\'' :: rest = e :: more ∧ isTypographic e = false := by
    cases after with
    | nil => exact ⟨'\'', rest, rfl, rfl⟩
    | cons f after =>
      by_cases hq : f = '\''
      · subst hq
        exact ⟨'\'', _, rfl, rfl⟩
      · exact ⟨f, doubleApostrophes after ++ '\'' :: rest, by simp [doubleApostrophes, hq], hafter f List.mem_cons_self⟩
  rw [hnext, readBody, if_pos hquote] at h
  split at h
  · obtain ⟨⟨tail, _⟩, -, heq⟩ := Option.map_eq_some_iff.mp h
    obtain ⟨hcons, -⟩ := Prod.mk.inj heq
    obtain ⟨rfl, -⟩ := List.cons.inj hcons
    rw [hc] at he
    cases he
  · cases h

/-- If a literal made by doubling the apostrophes is read back as the text it was made from, the text
has no typographic quote. -/
theorem plain_of_readBody (hrest : Separated rest)
    (h : readBody d (doubleApostrophes text ++ '\'' :: rest) = some (text, rest')) :
    ∀ c ∈ text, isTypographic c = false := by
  by_contra hne
  push Not at hne
  obtain ⟨c, hc, htypo⟩ := hne
  have htypo : isTypographic c = true := by simpa using htypo
  have hone := consumed_of_typographic hrest h (List.countP_pos_iff.mpr ⟨c, hc, htypo⟩)
  obtain ⟨before, after, rfl⟩ := List.append_of_mem hc
  simp only [List.countP_append, List.countP_cons, htypo, if_true] at hone
  have hbefore : ∀ e ∈ before, isTypographic e = false := by
    have : before.countP isTypographic = 0 := by omega
    simpa using List.countP_eq_zero.mp this
  have hafter : ∀ e ∈ after, isTypographic e = false := by
    have : after.countP isTypographic = 0 := by omega
    simpa using List.countP_eq_zero.mp this
  have hapos : c ≠ '\'' := by
    rintro rfl
    cases htypo
  have hform : doubleApostrophes (before ++ c :: after) ++ '\'' :: rest =
      doubleApostrophes before ++ (c :: (doubleApostrophes after ++ '\'' :: rest)) := by
    simp [doubleApostrophes, hapos]
  rw [hform, readBody_doubleApostrophes hbefore] at h
  obtain ⟨⟨tail, rest''⟩, hread, heq⟩ := Option.map_eq_some_iff.mp h
  obtain ⟨htext, -⟩ := Prod.mk.inj heq
  rw [List.append_cancel_left htext] at hread
  exact readBody_typographic htypo hafter hread

/-! ### Quoted text in a script -/

def quote (text : List Char) : List Char := '\'' :: (doubleApostrophes text ++ ['\''])

/-- A quoted text is read back exactly when it has no typographic quote. -/
theorem readLiteral_quote (hrest : Separated rest) (h : ∀ c ∈ text, isTypographic c = false) :
    readLiteral d (quote text ++ rest) = some (text, rest) := by
  rw [quote, List.cons_append, List.append_assoc, List.singleton_append, readLiteral, if_pos (by decide),
    readBody_doubleApostrophes h, readBody_close rfl hrest]
  simp

theorem readLiteral_quote_iff (hrest : Separated rest) :
    readLiteral d (quote text ++ rest) = some (text, rest') ↔ (∀ c ∈ text, isTypographic c = false) ∧ rest' = rest := by
  constructor
  · intro h
    have hplain : ∀ c ∈ text, isTypographic c = false := by
      apply plain_of_readBody (d := d) hrest
      simpa [quote, readLiteral, show isSingleQuote '\'' = true from rfl] using h
    rw [readLiteral_quote hrest hplain] at h
    exact ⟨hplain, (Prod.mk.inj (Option.some.inj h)).2.symm⟩
  · rintro ⟨h, rfl⟩
    exact readLiteral_quote hrest h

/-- The literals that follow, each after one blank. -/
def readArguments (d : Dialect) : Nat → List Char → Option (List (List Char) × List Char)
  | fuel + 1, ' ' :: cs => do
    let (text, cs) ← readLiteral d cs
    let (texts, cs) ← readArguments d fuel cs
    return (text :: texts, cs)
  | _, cs => some ([], cs)

theorem readArguments_done (n : Nat) (h : rest.head? ≠ some ' ') : readArguments d n rest = some ([], rest) := by
  unfold readArguments
  split
  · exact absurd rfl h
  · rfl

/-- Quoted arguments are read back exactly when none has a typographic quote. -/
theorem readArguments_quote_iff (texts : List (List Char)) (rest' : List Char) (hrest : Separated rest)
    (hblank : rest.head? ≠ some ' ') (hn : texts.length ≤ n) :
    readArguments d n (texts.flatMap (fun text => ' ' :: quote text) ++ rest) = some (texts, rest') ↔
      (∀ text ∈ texts, ∀ c ∈ text, isTypographic c = false) ∧ rest' = rest := by
  induction texts generalizing n with
  | nil =>
    have hdone := readArguments_done (d := d) n hblank
    rw [List.flatMap_nil, List.nil_append, hdone]
    simpa using eq_comm
  | cons text texts ih =>
    obtain ⟨m, rfl⟩ : ∃ m, n = m + 1 := ⟨n - 1, by simp at hn; omega⟩
    have hmore : Separated (texts.flatMap (fun text => ' ' :: quote text) ++ rest) := by
      cases texts with
      | nil => exact hrest
      | cons text texts =>
        intro c hc
        cases hc
        rfl
    have ih := ih (n := m) (by simpa using hn)
    rw [List.flatMap_cons, List.append_assoc, List.cons_append, readArguments]
    constructor
    · intro h
      simp only [Option.bind_eq_bind, Option.bind_eq_some_iff, Option.pure_def, Option.some.injEq, Prod.mk.injEq] at h
      obtain ⟨⟨first, after⟩, hread, ⟨others, last⟩, hothers, hlist, rfl⟩ := h
      obtain ⟨rfl, rfl⟩ := List.cons.inj hlist
      obtain ⟨hplain, rfl⟩ := (readLiteral_quote_iff hmore).mp hread
      obtain ⟨hplains, rfl⟩ := ih.mp hothers
      exact ⟨List.forall_mem_cons.mpr ⟨hplain, hplains⟩, rfl⟩
    · rintro ⟨hplain, rfl⟩
      obtain ⟨hfirst, hothers⟩ := List.forall_mem_cons.mp hplain
      rw [readLiteral_quote hmore hfirst]
      simp [ih.mpr ⟨hothers, rfl⟩]

/-- A value of a hash literal. -/
inductive Binding where
  | text (value : List Char)
  | isTrue
  deriving DecidableEq, Repr

def readBinding (d : Dialect) : List Char → Option (Binding × List Char)
  | '$' :: 't' :: 'r' :: 'u' :: 'e' :: cs => some (.isTrue, cs)
  | cs => (readLiteral d cs).map fun (text, cs) => (.text text, cs)

def expect (c : Char) : List Char → Option (List Char)
  | [] => none
  | e :: cs => if e = c then some cs else none

/-- One entry of a hash literal with the semicolon that ends it. -/
def readEntry (d : Dialect) (cs : List Char) : Option ((List Char × Binding) × List Char) := do
  let (key, cs) ← readLiteral d cs
  let cs ← expect '=' cs
  let (binding, cs) ← readBinding d cs
  let cs ← expect ';' cs
  return ((key, binding), cs)

/-- The entries of a hash literal up to the closing brace. -/
def readEntries (d : Dialect) : Nat → List Char → Option (List (List Char × Binding) × List Char)
  | 0, _ => none
  | fuel + 1, cs =>
    if cs.head? = some (Char.ofNat 0x7d) then some ([], cs.tail)
    else do
      let (entry, cs) ← readEntry d cs
      let (entries, cs) ← readEntries d fuel cs
      return (entry :: entries, cs)

theorem separated_cons (h : isSingleQuote c = false) (rest : List Char) : Separated (c :: rest) := by
  intro e he
  cases he
  exact h

@[simp] theorem expect_cons (c : Char) (rest : List Char) : expect c (c :: rest) = some rest := by simp [expect]

theorem readBinding_true (rest : List Char) : readBinding d ("$true".toList ++ rest) = some (.isTrue, rest) := rfl

theorem readBinding_quote (text rest : List Char) :
    readBinding d (quote text ++ rest) = (readLiteral d (quote text ++ rest)).map fun (text, cs) => (.text text, cs) := by
  rw [quote, List.cons_append]
  rfl

/-- An entry with a quoted key is its key, its value and the semicolon. -/
theorem readEntry_quote_iff {binding : Binding} : readEntry d (quote key ++ '=' :: cs) = some ((key, binding), rest') ↔
    (∀ c ∈ key, isTypographic c = false) ∧ ∃ after, readBinding d cs = some (binding, after) ∧ expect ';' after = some rest' := by
  have hkey := separated_cons (c := '=') rfl cs
  simp only [readEntry, Option.bind_eq_bind, Option.bind_eq_some_iff, Option.pure_def, Option.some.injEq, Prod.mk.injEq]
  constructor
  · rintro ⟨⟨first, after⟩, hfirst, after', hequals, ⟨second, last⟩, hsecond, last', hend, ⟨rfl, rfl⟩, rfl⟩
    obtain ⟨hplain, rfl⟩ := (readLiteral_quote_iff hkey).mp hfirst
    rw [expect_cons] at hequals
    obtain rfl := Option.some.inj hequals
    exact ⟨hplain, last, hsecond, hend⟩
  · rintro ⟨hplain, after, hbinding, hend⟩
    exact ⟨_, readLiteral_quote hkey hplain, _, expect_cons .., _, hbinding, _, hend, ⟨rfl, rfl⟩, rfl⟩

theorem readEntry_text_iff {value : List Char} :
    readEntry d (quote key ++ '=' :: (quote value ++ ';' :: rest)) = some ((key, .text value), rest') ↔
      (∀ c ∈ key, isTypographic c = false) ∧ (∀ c ∈ value, isTypographic c = false) ∧ rest' = rest := by
  have hvalue := separated_cons (c := ';') rfl rest
  rw [readEntry_quote_iff, readBinding_quote]
  refine and_congr_right fun _ => ⟨?_, ?_⟩
  · rintro ⟨after, hread, hend⟩
    obtain ⟨⟨text, cs⟩, hread, heq⟩ := Option.map_eq_some_iff.mp hread
    cases heq
    obtain ⟨hplain, rfl⟩ := (readLiteral_quote_iff hvalue).mp hread
    rw [expect_cons] at hend
    exact ⟨hplain, (Option.some.inj hend).symm⟩
  · rintro ⟨hplain, rfl⟩
    simp [readLiteral_quote hvalue hplain]

theorem readEntry_true_iff {binding : Binding} :
    readEntry d (quote key ++ '=' :: ("$true".toList ++ ';' :: rest)) = some ((key, binding), rest') ↔
      (∀ c ∈ key, isTypographic c = false) ∧ binding = .isTrue ∧ rest' = rest := by
  rw [readEntry_quote_iff, readBinding_true]
  refine and_congr_right fun _ => ⟨?_, ?_⟩
  · rintro ⟨after, ⟨⟩, hend⟩
    rw [expect_cons] at hend
    exact ⟨rfl, (Option.some.inj hend).symm⟩
  · rintro ⟨rfl, rfl⟩
    exact ⟨_, rfl, expect_cons ..⟩

theorem readEntries_close (n : Nat) (rest : List Char) :
    readEntries d (n + 1) (Char.ofNat 0x7d :: rest) = some ([], rest) := by
  simp [readEntries]

/-- An entry that starts with a quoted key is read before the entries after it. -/
theorem readEntries_cons_iff {entry : List Char × Binding} {entries : List (List Char × Binding)} :
    readEntries d (n + 1) (quote key ++ cs) = some (entry :: entries, rest) ↔
      ∃ cs', readEntry d (quote key ++ cs) = some (entry, cs') ∧ readEntries d n cs' = some (entries, rest) := by
  have hopen : (quote key ++ cs).head? ≠ some (Char.ofNat 0x7d) := by simp [quote]
  rw [readEntries, if_neg hopen]
  constructor
  · intro h
    simp only [Option.bind_eq_bind, Option.bind_eq_some_iff, Option.pure_def, Option.some.injEq, Prod.mk.injEq] at h
    obtain ⟨⟨entry', cs'⟩, hentry, ⟨entries', rest'⟩, hentries, hlist, rfl⟩ := h
    obtain ⟨rfl, rfl⟩ := List.cons.inj hlist
    exact ⟨cs', hentry, hentries⟩
  · rintro ⟨cs', hentry, hentries⟩
    simp [hentry, hentries]

/-- The table a hash literal denotes; a key given twice is an error. -/
def hashtable (d : Dialect) (entries : List (List Char × Binding)) : Option (List (List Char × Binding)) :=
  if (entries.map fun entry => d.foldKey entry.1).Nodup then some entries else none

end PowerShell
