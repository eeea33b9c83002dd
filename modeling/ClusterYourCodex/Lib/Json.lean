import Mathlib.Data.List.Sort

/-! JSON documents: the compact text of a value, the projections a canonical form needs, and a
reader of texts. Numbers are integers; a text with a fraction, an exponent or more digits than a
machine word reads as `float`, of which only the kind is kept. -/

inductive Json where
  | null
  | bool (b : Bool)
  | int (i : Int)
  | float
  | str (s : String)
  | arr (items : List Json)
  | obj (entries : List (String × Json))

namespace Json

def hexDigit (n : Nat) : Char := if n < 10 then Char.ofNat (48 + n) else Char.ofNat (87 + n)

/-- One character of a string literal, with the escapes of a compact writer. -/
def escape (c : Char) : List Char :=
  if c = '"' then ['\\', '"']
  else if c = '\\' then ['\\', '\\']
  else if c.toNat = 8 then ['\\', 'b']
  else if c.toNat = 9 then ['\\', 't']
  else if c.toNat = 10 then ['\\', 'n']
  else if c.toNat = 12 then ['\\', 'f']
  else if c.toNat = 13 then ['\\', 'r']
  else if c.toNat < 32 then ['\\', 'u', '0', '0', hexDigit (c.toNat / 16), hexDigit (c.toNat % 16)]
  else [c]

def quote (s : String) : List Char := '"' :: s.toList.flatMap escape ++ ['"']

/-! ### Writing -/

mutual

def write : Json → List Char
  | null => "null".toList
  | bool true => "true".toList
  | bool false => "false".toList
  | int i => (toString i).toList
  | float => "null".toList
  | str s => quote s
  | arr items => '[' :: writeItems items ++ [']']
  | obj entries => '\x7b' :: writeEntries entries ++ ['\x7d']

def writeItems : List Json → List Char
  | [] => []
  | [item] => write item
  | item :: items => write item ++ ',' :: writeItems items

def writeEntries : List (String × Json) → List Char
  | [] => []
  | [(key, value)] => quote key ++ ':' :: write value
  | (key, value) :: entries => quote key ++ ':' :: write value ++ ',' :: writeEntries entries

end

def utf8 (cs : List Char) : List Nat := cs.flatMap fun c => (String.utf8EncodeChar c).map UInt8.toNat

/-- The bytes of the compact text. -/
def bytes (j : Json) : List Nat := utf8 j.write

/-! ### Canonical form -/

mutual

/-- Renames every key, at every depth. -/
def mapKeys (f : String → String) : Json → Json
  | arr items => arr (mapKeysItems f items)
  | obj entries => obj (mapKeysEntries f entries)
  | j => j

def mapKeysItems (f : String → String) : List Json → List Json
  | [] => []
  | item :: items => mapKeys f item :: mapKeysItems f items

def mapKeysEntries (f : String → String) : List (String × Json) → List (String × Json)
  | [] => []
  | (key, value) :: entries => (f key, mapKeys f value) :: mapKeysEntries f entries

end

mutual

/-- Sorts the entries of every object by key. -/
def sortKeys : Json → Json
  | arr items => arr (sortKeysItems items)
  | obj entries => obj ((sortKeysEntries entries).insertionSort fun a b => a.1 ≤ b.1)
  | j => j

def sortKeysItems : List Json → List Json
  | [] => []
  | item :: items => sortKeys item :: sortKeysItems items

def sortKeysEntries : List (String × Json) → List (String × Json)
  | [] => []
  | (key, value) :: entries => (key, sortKeys value) :: sortKeysEntries entries

end

/-- An object entry that is left out when the field is absent. -/
def optionalEntry {α : Type} (key : String) (encode : α → Json) : Option α → List (String × Json)
  | none => []
  | some a => [(key, encode a)]

/-! ### Reading -/

/-- The value under a key; a repeated key keeps its last value. -/
def get (entries : List (String × Json)) (key : String) : Option Json :=
  (entries.reverse.find? fun e => e.1 == key).map Prod.snd

def asUInt64 : Json → Option Nat
  | int i => if 0 ≤ i ∧ i < 18446744073709551616 then some i.toNat else none
  | _ => none

def asBool : Json → Option Bool
  | bool b => some b
  | _ => none

def isNull : Json → Bool
  | null => true
  | _ => false

def isSpace (c : Char) : Bool := c = ' ' || c = '\n' || c = '\t' || c = '\r'

def skipSpace (cs : List Char) : List Char := cs.dropWhile isSpace

def isDigit (c : Char) : Bool := '0' ≤ c && c ≤ '9'

def digitsValue (ds : List Char) : Nat := ds.foldl (fun n d => 10 * n + (d.toNat - 48)) 0

def hexValue (c : Char) : Option Nat :=
  if isDigit c then some (c.toNat - 48)
  else if 'a' ≤ c && c ≤ 'f' then some (c.toNat - 87)
  else if 'A' ≤ c && c ≤ 'F' then some (c.toNat - 55)
  else none

def hex4 : List Char → Option (Nat × List Char)
  | a :: b :: c :: d :: rest => do
    let a ← hexValue a
    let b ← hexValue b
    let c ← hexValue c
    let d ← hexValue d
    return (a * 4096 + b * 256 + c * 16 + d, rest)
  | _ => none

/-- A `\u` escape after its `u`: one code unit, or two that form a surrogate pair. -/
def readUnicode (cs : List Char) : Option (Char × List Char) := do
  let (high, rest) ← hex4 cs
  if 0xD800 ≤ high ∧ high < 0xDC00 then
    match rest with
    | '\\' :: 'u' :: rest => do
      let (low, rest) ← hex4 rest
      if 0xDC00 ≤ low ∧ low < 0xE000 then
        return (Char.ofNat (0x10000 + (high - 0xD800) * 0x400 + (low - 0xDC00)), rest)
      else none
    | _ => none
  else if 0xDC00 ≤ high ∧ high < 0xE000 then none
  else return (Char.ofNat high, rest)

/-- The rest of a string literal after its opening quote. -/
def readString : Nat → List Char → List Char → Option (String × List Char)
  | 0, _, _ => none
  | _ + 1, _, [] => none
  | _ + 1, acc, '"' :: rest => some (String.ofList acc.reverse, rest)
  | fuel + 1, acc, '\\' :: c :: rest =>
    if c = '"' || c = '\\' || c = '/' then readString fuel (c :: acc) rest
    else if c = 'b' then readString fuel (Char.ofNat 8 :: acc) rest
    else if c = 'f' then readString fuel (Char.ofNat 12 :: acc) rest
    else if c = 'n' then readString fuel ('\n' :: acc) rest
    else if c = 'r' then readString fuel ('\r' :: acc) rest
    else if c = 't' then readString fuel ('\t' :: acc) rest
    else if c = 'u' then do
      let (u, rest) ← readUnicode rest
      readString fuel (u :: acc) rest
    else none
  | fuel + 1, acc, c :: rest => if c.toNat < 32 then none else readString fuel (c :: acc) rest

/-- The longest run of digits, which must not be empty. -/
def readDigits (cs : List Char) : Option (List Char × List Char) :=
  let ds := cs.takeWhile isDigit
  if ds.isEmpty then none else some (ds, cs.dropWhile isDigit)

/-- A number. An integer of a machine word is kept; other numbers are `float`. -/
def readNumber (cs : List Char) : Option (Json × List Char) := do
  let (negative, cs) := match cs with
    | '-' :: rest => (true, rest)
    | _ => (false, cs)
  let (ds, rest) ← readDigits cs
  if ds.length > 1 ∧ ds.head? = some '0' then none
  else do
    let (fraction, rest) ← match rest with
      | '.' :: rest => (readDigits rest).map fun (_, rest) => (true, rest)
      | _ => some (false, rest)
    let (exponent, rest) ← match rest with
      | e :: rest' =>
        if e = 'e' || e = 'E' then
          let unsigned := match rest' with
            | s :: rest'' => if s = '+' || s = '-' then rest'' else rest'
            | [] => rest'
          (readDigits unsigned).map fun (_, rest) => (true, rest)
        else some (false, rest)
      | [] => some (false, rest)
    let n := digitsValue ds
    if fraction || exponent then return (float, rest)
    else if negative then
      if n = 0 ∨ 9223372036854775808 < n then return (float, rest) else return (int (-n), rest)
    else if n < 18446744073709551616 then return (int n, rest)
    else return (float, rest)

mutual

/-- A value; `depth` counts the arrays and objects that may still be opened. -/
def readValue : Nat → Nat → List Char → Option (Json × List Char)
  | 0, _, _ => none
  | fuel + 1, depth, cs =>
    match skipSpace cs with
    | 'n' :: 'u' :: 'l' :: 'l' :: rest => some (null, rest)
    | 't' :: 'r' :: 'u' :: 'e' :: rest => some (bool true, rest)
    | 'f' :: 'a' :: 'l' :: 's' :: 'e' :: rest => some (bool false, rest)
    | '"' :: rest => (readString (rest.length + 1) [] rest).map fun (s, rest) => (str s, rest)
    | '[' :: rest =>
      if depth ≤ 1 then none
      else match skipSpace rest with
        | ']' :: rest => some (arr [], rest)
        | rest => (readItems fuel (depth - 1) rest).map fun (items, rest) => (arr items, rest)
    | '\x7b' :: rest =>
      if depth ≤ 1 then none
      else match skipSpace rest with
        | '\x7d' :: rest => some (obj [], rest)
        | rest => (readEntries fuel (depth - 1) rest).map fun (entries, rest) => (obj entries, rest)
    | rest => readNumber rest

def readItems : Nat → Nat → List Char → Option (List Json × List Char)
  | 0, _, _ => none
  | fuel + 1, depth, cs => do
    let (item, rest) ← readValue fuel depth cs
    match skipSpace rest with
    | ',' :: rest => (readItems fuel depth rest).map fun (items, rest) => (item :: items, rest)
    | ']' :: rest => some ([item], rest)
    | _ => none

def readEntries : Nat → Nat → List Char → Option (List (String × Json) × List Char)
  | 0, _, _ => none
  | fuel + 1, depth, cs =>
    match skipSpace cs with
    | '"' :: rest => do
      let (key, rest) ← readString (rest.length + 1) [] rest
      match skipSpace rest with
      | ':' :: rest => do
        let (value, rest) ← readValue fuel depth rest
        match skipSpace rest with
        | ',' :: rest => (readEntries fuel depth rest).map fun (es, rest) => ((key, value) :: es, rest)
        | '\x7d' :: rest => some ([(key, value)], rest)
        | _ => none
      | _ => none
    | _ => none

end

/-- A whole document. Every value takes a character, so the length is fuel enough. -/
def read (text : String) : Option Json :=
  match readValue (2 * text.toList.length + 2) 128 text.toList with
  | some (j, rest) => if (skipSpace rest).isEmpty then some j else none
  | none => none

end Json
