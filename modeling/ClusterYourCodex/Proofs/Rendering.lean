import ClusterYourCodex.Lib.Shell
import ClusterYourCodex.Spec.Remote
import Mathlib.Data.Bool.AllAny

/-! Rendered commands against the shells that read them. A POSIX shell finds the words the command was
made from, whatever characters they have. PowerShell finds them as long as no text has a typographic
single quote, which the quoting leaves alone and the tokenizer takes for the end of a literal; in named
form a value that starts with a dash is lost as well. -/

namespace CYC

/-! ### The POSIX rendering -/

/-- Leaving the quotes for one apostrophe and returning. -/
theorem lex_quoted_apostrophe (word rest : List Char) :
    Posix.lex (.single word) ("'\"'\"'".toList ++ rest) = Posix.lex (.single (word ++ ['\''])) rest := rfl

theorem lex_quotePosix_body (value word rest : List Char) :
    Posix.lex (.single word) (value.flatMap (fun c => if c = '\'' then "'\"'\"'".toList else [c]) ++ '\'' :: rest) =
      Posix.lex (.bare (some (word ++ value))) rest := by
  induction value generalizing word with
  | nil => rw [List.flatMap_nil, List.nil_append, Posix.lex, if_pos rfl, List.append_nil]
  | cons c value ih =>
    rw [List.flatMap_cons, List.append_assoc]
    by_cases hc : c = '\''
    · subst hc
      rw [if_pos rfl, lex_quoted_apostrophe, ih, List.append_assoc, List.singleton_append]
    · rw [if_neg hc, List.singleton_append, Posix.lex, if_neg hc, ih, List.append_assoc, List.singleton_append]

theorem lex_quotePosix (value rest : List Char) :
    Posix.lex (.bare none) (quotePosix value ++ rest) = Posix.lex (.bare (some value)) rest := by
  rw [quotePosix, List.cons_append, List.append_assoc, List.singleton_append]
  exact lex_quotePosix_body value [] rest

theorem lex_quotePosix_arguments (word : List Char) (arguments : List (List Char)) :
    Posix.lex (.bare (some word)) (arguments.flatMap fun argument => ' ' :: quotePosix argument) =
      some (word :: arguments) := by
  induction arguments generalizing word with
  | nil => rfl
  | cons argument arguments ih =>
    rw [List.flatMap_cons, List.cons_append, Posix.lex_bare_blank, lex_quotePosix, ih]
    rfl

/-- A word without quotes or active characters, and the blank after it. -/
theorem lex_plain_word {word : List Char} (hne : word ≠ [])
    (h : ∀ c ∈ word, Posix.isBlank c = false ∧ Posix.isActive c = false ∧ c ≠ '\'' ∧ c ≠ '"' ∧ c ≠ '\\')
    (rest : List Char) :
    Posix.lex (.bare none) (word ++ ' ' :: rest) = (Posix.lex (.bare none) rest).map (word :: ·) := by
  rw [Posix.lex_bare_plain h none hne, Posix.lex_bare_blank]
  rfl

theorem words_posixLine (path : List Char) (arguments : List (List Char)) :
    Posix.words (posixLine path arguments) = some ("/bin/sh".toList :: path :: "--".toList :: arguments) := by
  have hline : posixLine path arguments = "/bin/sh".toList ++ ' ' :: (quotePosix path ++ ' ' :: ("--".toList ++
      arguments.flatMap fun argument => ' ' :: quotePosix argument)) := by
    unfold posixLine
    rw [List.append_assoc, List.append_assoc]
    rfl
  have hshell : ∀ c ∈ "/bin/sh".toList,
      Posix.isBlank c = false ∧ Posix.isActive c = false ∧ c ≠ '\'' ∧ c ≠ '"' ∧ c ≠ '\\' := by
    rw [← List.all_iff_forall_prop]
    decide
  have hdashes : ∀ c ∈ "--".toList,
      Posix.isBlank c = false ∧ Posix.isActive c = false ∧ c ≠ '\'' ∧ c ≠ '"' ∧ c ≠ '\\' := by
    rw [← List.all_iff_forall_prop]
    decide
  rw [hline, Posix.words, lex_plain_word (by decide) hshell, lex_quotePosix, Posix.lex_bare_blank,
    Posix.lex_bare_plain hdashes none (by decide), Option.getD_none, List.nil_append, lex_quotePosix_arguments,
    Option.map_some, Option.map_some]

/-! ### The PowerShell rendering -/

open PowerShell

/-- No character ends a literal other than the apostrophes, which are doubled. -/
def plainText (text : List Char) : Bool := !text.any isTypographic

theorem plainText_iff {text : List Char} : plainText text = true ↔ ∀ c ∈ text, isTypographic c = false := by
  simp [plainText]

theorem quotePowershell_eq (text : List Char) : quotePowershell text = quote text := rfl

/-- The script a PowerShell command line carries. -/
def decodedScript (line : List Char) : Option (List Char) :=
  (stripPrefix encodedCommand line).bind fun encoded =>
    (Base64.decode true encoded).bind fun bytes => (Utf16.ofBytes bytes).bind Utf16.decode

theorem decodedScript_powershellLine (path : List Char) (arguments : List (List Char)) (named : Bool) :
    decodedScript (powershellLine path arguments named) = some (powershellScript path arguments named) := by
  unfold decodedScript powershellLine
  rw [stripPrefix_append, Option.bind_some, Base64.decode_encode, Option.bind_some,
    Utf16.ofBytes_toBytes (Utf16.encode_lt _), Option.bind_some, Utf16.decode_encode]

/-- A script that is one invocation: the path it calls and its literal arguments. -/
def readInvocation (d : Dialect) (script : List Char) : Option (List Char × List (List Char)) := do
  let cs ← stripPrefix "$ErrorActionPreference='Stop';& ".toList script
  let (path, cs) ← readLiteral d cs
  let (arguments, cs) ← readArguments d cs.length cs
  if cs = exitStatement then some (path, arguments) else none

/-- A script that is one invocation with a splatted hash table: the path and the table. -/
def readSplat (d : Dialect) (script : List Char) : Option (List Char × List (List Char × Binding)) := do
  let cs ← stripPrefix "$ErrorActionPreference='Stop';$cycParams=@\x7b".toList script
  let (entries, cs) ← readEntries d cs.length cs
  let table ← hashtable d entries
  let cs ← stripPrefix "; & ".toList cs
  let (path, cs) ← readLiteral d cs
  if cs = " @cycParams".toList ++ exitStatement then some (path, table) else none

variable {d : Dialect}

theorem separated_exitStatement : Separated exitStatement := by
  intro c hc
  cases hc
  rfl

theorem separated_arguments (arguments : List (List Char)) :
    Separated (arguments.flatMap (fun argument => ' ' :: quote argument) ++ exitStatement) := by
  cases arguments with
  | nil => exact separated_exitStatement
  | cons argument arguments =>
    intro c hc
    cases hc
    rfl

theorem length_le_arguments (arguments : List (List Char)) :
    arguments.length ≤ (arguments.flatMap (fun argument => ' ' :: quote argument) ++ exitStatement).length := by
  induction arguments with
  | nil => simp
  | cons argument arguments ih =>
    rw [List.flatMap_cons, List.append_assoc, List.length_append, List.length_cons, List.length_cons]
    omega

theorem readInvocation_iff (path : List Char) (arguments : List (List Char)) :
    readInvocation d (powershellScript path arguments false) = some (path, arguments) ↔
      plainText path = true ∧ ∀ argument ∈ arguments, plainText argument = true := by
  have hseparated := separated_arguments arguments
  have hfuel := length_le_arguments arguments
  have hread := readArguments_quote_iff (d := d) arguments exitStatement separated_exitStatement
    (by decide) hfuel
  simp only [readInvocation, powershellScript, Bool.false_eq_true, if_false, List.append_assoc, stripPrefix_append,
    quotePowershell_eq, Option.bind_eq_bind, Option.bind_some, plainText_iff]
  constructor
  · intro h
    simp only [Option.bind_eq_some_iff] at h
    obtain ⟨⟨path', cs⟩, hpath, ⟨arguments', cs'⟩, harguments, hend⟩ := h
    split at hend
    · rename_i hcs
      cases hend
      obtain ⟨hplain, rfl⟩ := (readLiteral_quote_iff hseparated).mp hpath
      subst hcs
      exact ⟨hplain, (hread.mp harguments).1⟩
    · cases hend
  · rintro ⟨hpath, harguments⟩
    rw [readLiteral_quote hseparated hpath, Option.bind_some, hread.mpr ⟨harguments, rfl⟩, Option.bind_some, if_pos rfl]

/-! ### Named parameters -/

/-- The name of a parameter as it is passed: a dash and the key. -/
structure ParameterName where
  argument : CommandArgument
  dash : argument.text.head? = some '-'

def ParameterName.key (n : ParameterName) : List Char := n.argument.text.tail

inductive Parameter where
  | pair (name : ParameterName) (value : CommandArgument)
  | switch (name : ParameterName)

def Parameter.arguments : Parameter → List CommandArgument
  | .pair name value => [name.argument, value]
  | .switch name => [name.argument]

def Parameter.key : Parameter → List Char
  | .pair name _ => name.key
  | .switch name => name.key

/-- What the hash table is to hold for the parameter. -/
def Parameter.binding : Parameter → List Char × Binding
  | .pair name value => (name.key, .text value.text)
  | .switch name => (name.key, .isTrue)

/-- The parameter survives: no typographic quote, and a value that is not taken for a name. -/
def Parameter.plain : Parameter → Bool
  | .pair name value => plainText name.key && plainText value.text && value.text.head? ≠ some '-'
  | .switch name => plainText name.key

def argumentTexts (parameters : List Parameter) : List (List Char) :=
  (parameters.flatMap Parameter.arguments).map CommandArgument.text

theorem ParameterName.text_eq (n : ParameterName) : n.argument.text = '-' :: n.key := by
  have h := n.dash
  unfold ParameterName.key
  cases htext : n.argument.text with
  | nil => rw [htext] at h; cases h
  | cons c cs =>
    rw [htext] at h
    cases h
    rfl

theorem parameterKey_text (n : ParameterName) : parameterKey n.argument.text = n.key := by
  rw [n.text_eq]
  rfl

/-- The arguments of further parameters start with a name, if there are any. -/
theorem argumentTexts_head (parameters : List Parameter) :
    argumentTexts parameters = [] ∨ ∃ key rest, argumentTexts parameters = ('-' :: key) :: rest := by
  rcases parameters with - | ⟨⟨name, value⟩ | name, parameters⟩
  · exact .inl rfl
  · exact .inr ⟨name.key, value.text :: argumentTexts parameters, by simp [argumentTexts, Parameter.arguments, name.text_eq]⟩
  · exact .inr ⟨name.key, argumentTexts parameters, by simp [argumentTexts, Parameter.arguments, name.text_eq]⟩

theorem renderNamed_switch (name : List Char) (parameters : List Parameter) :
    renderNamed (name :: argumentTexts parameters) =
      quotePowershell (parameterKey name) ++ "=$true;".toList ++ renderNamed (argumentTexts parameters) := by
  rcases argumentTexts_head parameters with h | ⟨key, rest, h⟩
  · rw [h, renderNamed, renderNamed, List.append_nil]
  · rw [h, renderNamed, if_pos List.head?_cons]

theorem renderNamed_value {name value : List Char} (h : value.head? ≠ some '-') (rest : List (List Char)) :
    renderNamed (name :: value :: rest) =
      quotePowershell (parameterKey name) ++ "=".toList ++ quotePowershell value ++ ";".toList ++ renderNamed rest := by
  rw [renderNamed, if_neg h]

theorem renderNamed_dash {name value : List Char} (h : value.head? = some '-') (rest : List (List Char)) :
    renderNamed (name :: value :: rest) =
      quotePowershell (parameterKey name) ++ "=$true;".toList ++ renderNamed (value :: rest) := by
  rw [renderNamed, if_pos h]

/-- The entries of the table are read back exactly when every parameter survives. -/
theorem readEntries_renderNamed_iff {parameters : List Parameter} {rest rest' : List Char} {n : Nat}
    (hn : parameters.length < n) :
    readEntries d n (renderNamed (argumentTexts parameters) ++ Char.ofNat 0x7d :: rest) =
        some (parameters.map Parameter.binding, rest') ↔
      (∀ parameter ∈ parameters, parameter.plain = true) ∧ rest' = rest := by
  induction parameters generalizing n with
  | nil =>
    obtain ⟨m, rfl⟩ : ∃ m, n = m + 1 := ⟨n - 1, by simp at hn; omega⟩
    have hclose := readEntries_close (d := d) m rest
    simp only [argumentTexts, List.flatMap_nil, List.map_nil, renderNamed, List.nil_append, hclose]
    simpa using eq_comm
  | cons parameter parameters ih =>
    obtain ⟨m, rfl⟩ : ∃ m, n = m + 1 := ⟨n - 1, by simp at hn; omega⟩
    have ih := ih (n := m) (by simpa using hn)
    rw [List.map_cons, List.forall_mem_cons, and_assoc]
    rcases parameter with ⟨name, value⟩ | name
    · have htexts : argumentTexts (.pair name value :: parameters) =
          name.argument.text :: value.text :: argumentTexts parameters := by
        simp [argumentTexts, Parameter.arguments]
      by_cases hdash : value.text.head? = some '-'
      · -- the value is rendered as a switch of its own, so the name is bound to true
        rw [htexts, renderNamed_dash hdash, parameterKey_text, quotePowershell_eq, List.append_assoc, List.append_assoc,
          readEntries_cons_iff]
        constructor
        · rintro ⟨cs', hentry, -⟩
          obtain ⟨-, hbinding, -⟩ := readEntry_true_iff.mp hentry
          cases hbinding
        · rintro ⟨hplain, -⟩
          simp [Parameter.plain, hdash] at hplain
      · rw [htexts, renderNamed_value hdash, parameterKey_text, quotePowershell_eq, quotePowershell_eq]
        simp only [List.append_assoc]
        rw [readEntries_cons_iff]
        constructor
        · rintro ⟨cs', hentry, hentries⟩
          obtain ⟨hkey, hvalue, rfl⟩ := readEntry_text_iff.mp hentry
          refine ⟨?_, ih.mp hentries⟩
          simp [Parameter.plain, plainText_iff.mpr hkey, plainText_iff.mpr hvalue, hdash]
        · rintro ⟨hplain, hothers⟩
          simp only [Parameter.plain, Bool.and_eq_true, plainText_iff] at hplain
          exact ⟨_, readEntry_text_iff.mpr ⟨hplain.1.1, hplain.1.2, rfl⟩, ih.mpr hothers⟩
    · have htexts : argumentTexts (.switch name :: parameters) = name.argument.text :: argumentTexts parameters := by
        simp [argumentTexts, Parameter.arguments]
      rw [htexts, renderNamed_switch, parameterKey_text, quotePowershell_eq, List.append_assoc, List.append_assoc,
        readEntries_cons_iff]
      constructor
      · rintro ⟨cs', hentry, hentries⟩
        obtain ⟨hkey, -, rfl⟩ := readEntry_true_iff.mp hentry
        exact ⟨plainText_iff.mpr hkey, ih.mp hentries⟩
      · rintro ⟨hplain, hothers⟩
        exact ⟨_, readEntry_true_iff.mpr ⟨plainText_iff.mp hplain, rfl, rfl⟩, ih.mpr hothers⟩

theorem length_le_renderNamed (arguments : List (List Char)) :
    arguments.length ≤ (renderNamed arguments).length := by
  have htrue : "=$true;".toList.length = 7 := rfl
  fun_induction renderNamed arguments with
  | case1 => simp
  | case2 name => rw [List.length_append, htrue]; simp
  | case3 name value rest _ ih =>
    rw [List.length_append, List.length_append, htrue, List.length_cons]
    omega
  | case4 name value rest _ ih =>
    simp only [List.length_append, List.length_cons, quotePowershell]
    omega

theorem length_le_argumentTexts (parameters : List Parameter) :
    parameters.length ≤ (argumentTexts parameters).length := by
  induction parameters with
  | nil => simp
  | cons parameter parameters ih =>
    have hcons : argumentTexts (parameter :: parameters) =
        parameter.arguments.map CommandArgument.text ++ argumentTexts parameters := by
      simp [argumentTexts]
    have hpos : 1 ≤ parameter.arguments.length := by cases parameter <;> simp [Parameter.arguments]
    rw [hcons, List.length_append, List.length_map, List.length_cons]
    omega

theorem binding_key (parameter : Parameter) : parameter.binding.1 = parameter.key := by cases parameter <;> rfl

theorem hashtable_eq_some {entries table : List (List Char × Binding)} :
    hashtable d entries = some table ↔ (entries.map fun entry => d.foldKey entry.1).Nodup ∧ entries = table := by
  unfold hashtable
  split <;> simp_all

/-- The keys a list of parameters gives the table, as the interpreter compares them. -/
def foldedKeys (d : Dialect) (parameters : List Parameter) : List (List Char) :=
  parameters.map fun parameter => d.foldKey parameter.key

theorem folded_bindings (parameters : List Parameter) :
    (parameters.map Parameter.binding).map (fun entry => d.foldKey entry.1) = foldedKeys d parameters := by
  simp [foldedKeys, Function.comp_def, binding_key]

theorem readSplat_iff (path : List Char) (parameters : List Parameter) :
    readSplat d (powershellScript path (argumentTexts parameters) true) = some (path, parameters.map Parameter.binding) ↔
      plainText path = true ∧ (∀ parameter ∈ parameters, parameter.plain = true) ∧ (foldedKeys d parameters).Nodup := by
  have hbrace : "\x7d; & ".toList = Char.ofNat 0x7d :: "; & ".toList := rfl
  have hseparated : Separated (" @cycParams".toList ++ exitStatement) := separated_cons (c := ' ') rfl _
  have hfuel : parameters.length <
      (renderNamed (argumentTexts parameters) ++ Char.ofNat 0x7d :: ("; & ".toList ++
        (quote path ++ (" @cycParams".toList ++ exitStatement)))).length := by
    have := length_le_renderNamed (argumentTexts parameters)
    have := length_le_argumentTexts parameters
    rw [List.length_append, List.length_cons]
    omega
  simp only [readSplat, powershellScript, if_true, List.append_assoc, stripPrefix_append, quotePowershell_eq, hbrace,
    List.cons_append, Option.bind_eq_bind, Option.bind_some, plainText_iff]
  constructor
  · intro h
    simp only [Option.bind_eq_some_iff] at h
    obtain ⟨⟨entries, cs⟩, hentries, table, htable, cs', hprefix, ⟨path', cs''⟩, hpath, hend⟩ := h
    obtain ⟨hnodup, rfl⟩ := hashtable_eq_some.mp htable
    split at hend
    · cases hend
      obtain ⟨hplain, rfl⟩ := (readEntries_renderNamed_iff hfuel).mp hentries
      rw [stripPrefix_append] at hprefix
      cases hprefix
      obtain ⟨hpath, -⟩ := (readLiteral_quote_iff hseparated).mp hpath
      exact ⟨hpath, hplain, folded_bindings parameters ▸ hnodup⟩
    · cases hend
  · rintro ⟨hpath, hplain, hnodup⟩
    have htable := hashtable_eq_some.mpr ⟨(folded_bindings parameters).symm ▸ hnodup, rfl⟩
    rw [(readEntries_renderNamed_iff hfuel).mpr ⟨hplain, rfl⟩, Option.bind_some, htable, Option.bind_some, stripPrefix_append, Option.bind_some,
      readLiteral_quote hseparated hpath, Option.bind_some, if_pos rfl]

/-! ### Rendering is the inverse of reading -/

/-- The shell runs `/bin/sh` on the path with exactly these arguments. -/
def PosixExact (path : RemotePath) (arguments : List CommandArgument) : Prop :=
  Posix.words (FixedCommand.render (.posixScript path arguments)).toList =
    some ("/bin/sh".toList :: path.text :: "--".toList :: arguments.map CommandArgument.text)

/-- The decoded script is one invocation of the path with exactly these literal arguments. -/
def InvocationExact (d : Dialect) (path : RemotePath) (arguments : List CommandArgument) : Prop :=
  (decodedScript (FixedCommand.render (.windowsPowerShellScript path arguments false)).toList).bind (readInvocation d) =
    some (path.text, arguments.map CommandArgument.text)

/-- The decoded script is one invocation of the path with a table that binds each name to its value and
each switch to true. -/
def SplatExact (d : Dialect) (path : RemotePath) (parameters : List Parameter) : Prop :=
  (decodedScript (FixedCommand.render
      (.windowsPowerShellScript path (parameters.flatMap Parameter.arguments) true)).toList).bind (readSplat d) =
    some (path.text, parameters.map Parameter.binding)

theorem invocationExact_iff (path : RemotePath) (arguments : List CommandArgument) :
    InvocationExact d path arguments ↔
      plainText path.text = true ∧ ∀ argument ∈ arguments, plainText argument.text = true := by
  unfold InvocationExact
  rw [toList_render_powershell, decodedScript_powershellLine, Option.bind_some, readInvocation_iff]
  simp

theorem splatExact_iff (path : RemotePath) (parameters : List Parameter) :
    SplatExact d path parameters ↔
      plainText path.text = true ∧ (∀ parameter ∈ parameters, parameter.plain = true) ∧
        (foldedKeys d parameters).Nodup := by
  unfold SplatExact
  rw [toList_render_powershell, decodedScript_powershellLine, Option.bind_some]
  exact readSplat_iff _ _

/-- The POSIX rendering is always exact. The positional PowerShell rendering is exact when and only when
neither the path nor an argument has a typographic single quote, and the named one when and only when in
addition no value starts with a dash and no two names are the same key. -/
theorem rendered_exactly_iff (d : Dialect) (path : RemotePath) (arguments : List CommandArgument)
    (parameters : List Parameter) :
    PosixExact path arguments ∧
      (InvocationExact d path arguments ↔
        plainText path.text = true ∧ ∀ argument ∈ arguments, plainText argument.text = true) ∧
      (SplatExact d path parameters ↔
        plainText path.text = true ∧ (∀ parameter ∈ parameters, parameter.plain = true) ∧
          (foldedKeys d parameters).Nodup) := by
  refine ⟨?_, invocationExact_iff path arguments, splatExact_iff path parameters⟩
  unfold PosixExact
  rw [toList_render_posix]
  exact words_posixLine _ _

/-- Only a repeated quote is a doubled one, and keys are compared without ASCII case. -/
def strictDialect : Dialect where
  doubled c d := isSingleQuote c && c = d
  doubled_self c h := by simp [h]
  doubled_quotes c d h := by
    simp only [Bool.and_eq_true, decide_eq_true_eq] at h
    exact ⟨h.1, h.2 ▸ h.1⟩
  foldKey := List.map Text.toAsciiLower

def samplePath : RemotePath := ⟨"C:/kit/lifecycle.ps1", by decide⟩

def sampleName : ParameterName := ⟨⟨"-WorkspaceRoot", by decide⟩, by decide⟩

/-- A right single quotation mark ends the literal it stands in, and a workspace whose name starts with
a dash is bound to the switch value of its parameter. -/
theorem rendering_loses_arguments :
    ¬ InvocationExact strictDialect samplePath [⟨"D:/O\u2019Brien", by decide⟩] ∧
      ¬ SplatExact strictDialect samplePath [.pair sampleName ⟨"-work", by decide⟩] := by
  constructor
  · rw [invocationExact_iff]
    decide
  · rw [splatExact_iff]
    rintro ⟨-, hplain, -⟩
    exact absurd (hplain _ List.mem_cons_self) (by decide)

end CYC
