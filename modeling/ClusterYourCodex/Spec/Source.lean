import ClusterYourCodex.Lib.Checked
import ClusterYourCodex.Spec.Basic

/-! Where a job's source comes from: portable relative paths, public HTTPS repositories and
content-addressed snapshots (`cyc-protocol`, `lib.rs` and `snapshot.rs`). The checks are lexical and
run on the characters of the text. -/

namespace CYC

open Checked

inductive PortablePathError where
  | empty
  | nul
  | backslash
  | absolute
  | drivePrefix
  | emptySegment
  | dotSegment
  | parentSegment
  | negatedGlob
  deriving DecidableEq, Repr

inductive ValidationError where
  | unsupportedApiVersion (version : String)
  | noSteps
  | originFieldTooLong (field : String)
  | emptyStepName (index : Nat)
  | emptyStepScript (index : Nat)
  | invalidWorkingDirectory (index : Nat) (source : PortablePathError)
  | invalidTimeout (field : String)
  | emptyCapability
  | zeroRequirement (field : String)
  | zeroResourceRequest (field : String)
  | resourceRequestWeakensLegacy
  | invalidGpuDeviceId
  | invalidRetentionDays
  | invalidArtifactPattern (field : String) (index : Nat) (source : PortablePathError)
  | gitMetadataIncluded (index : Nat)
  | gitMetadataNotExcluded
  | invalidSource (reason : String)
  deriving DecidableEq, Repr

/-! ### Portable paths -/

def segments (value : List Char) : List (List Char) := Text.splitOnChar (· = '/') value

def validatePortableSegment (segment : List Char) : Except PortablePathError Unit :=
  if segment = [] then .error .emptySegment
  else if segment = ['.'] then .error .dotSegment
  else if segment = ['.', '.'] then .error .parentSegment
  else .ok ()

def hasDrivePrefix : List Char → Bool
  | drive :: ':' :: _ => Text.isAsciiAlphabetic drive
  | _ => false

def validatePortableRelative (value : String) (glob : Bool) : Except PortablePathError Unit := do
  let cs := value.toList
  ensure (!cs.isEmpty) .empty
  ensure (!cs.contains (Char.ofNat 0)) .nul
  ensure (!cs.contains '\\') .backslash
  ensure (cs.head? ≠ some '/') .absolute
  ensure (!hasDrivePrefix cs) .drivePrefix
  ensure (!(glob && cs.head? = some '!')) .negatedGlob
  (segments cs).forM validatePortableSegment

def validatePortableRelativePath (value : String) : Except PortablePathError Unit :=
  validatePortableRelative value false

def validatePortableRelativeGlob (value : String) : Except PortablePathError Unit :=
  validatePortableRelative value true

def hasLiteralGitSegment (value : String) : Bool := (segments value.toList).any (· = ".git".toList)

/-! ### Internet addresses -/

inductive IpAddr where
  | v4 (a b c d : Nat)
  | v6 (groups : List Nat)
  deriving DecidableEq, Repr

def digitValue (radix : Nat) (c : Char) : Option Nat :=
  if Text.isAsciiDigit c then some (c.toNat - 48)
  else if radix = 16 && 'a' ≤ c && c ≤ 'f' then some (c.toNat - 87)
  else if radix = 16 && 'A' ≤ c && c ≤ 'F' then some (c.toNat - 55)
  else none

/-- The digits at the front of the text: their number, their value and the rest. -/
def readDigits (radix : Nat) : Nat → Nat → List Char → Nat × Nat × List Char
  | count, value, [] => (count, value, [])
  | count, value, c :: cs => match digitValue radix c with
    | some d => readDigits radix (count + 1) (radix * value + d) cs
    | none => (count, value, c :: cs)

def readNumber (radix maxDigits bound : Nat) (allowZeroPrefix : Bool) (cs : List Char) : Option (Nat × List Char) :=
  let (count, value, rest) := readDigits radix 0 0 cs
  if count = 0 || maxDigits < count then none
  else if !allowZeroPrefix && cs.head? = some '0' && 1 < count then none
  else if bound < value then none
  else some (value, rest)

def readChar (c : Char) : List Char → Option (List Char)
  | d :: rest => if d = c then some rest else none
  | [] => none

def readIpv4 (cs : List Char) : Option ((Nat × Nat × Nat × Nat) × List Char) := do
  let (a, cs) ← readNumber 10 3 255 false cs
  let (b, cs) ← readNumber 10 3 255 false (← readChar '.' cs)
  let (c, cs) ← readNumber 10 3 255 false (← readChar '.' cs)
  let (d, cs) ← readNumber 10 3 255 false (← readChar '.' cs)
  return ((a, b, c, d), cs)

/-- The text after the separator that every group but the first needs. -/
def afterSeparator (first : Bool) (cs : List Char) : Option (List Char) :=
  if first then some cs else readChar ':' cs

/-- Up to so many groups of an IPv6 address; the flag says that they end in a dotted quad. -/
def readGroups : Nat → Bool → List Char → List Nat × Bool × List Char
  | 0, _, cs => ([], false, cs)
  | remaining + 1, first, cs =>
    match if remaining = 0 then none else (afterSeparator first cs).bind readIpv4 with
    | some ((a, b, c, d), rest) => ([a * 256 + b, c * 256 + d], true, rest)
    | none => match (afterSeparator first cs).bind (readNumber 16 4 65535 true) with
      | some (group, rest) =>
        let (groups, quad, rest) := readGroups remaining false rest
        (group :: groups, quad, rest)
      | none => ([], false, cs)

def readIpv6 (cs : List Char) : Option (List Nat × List Char) :=
  let (head, quad, rest) := readGroups 8 true cs
  if head.length = 8 then some (head, rest)
  else if quad then none
  else match rest with
    | ':' :: ':' :: rest =>
      let (tail, _, rest) := readGroups (8 - (head.length + 1)) true rest
      some (head ++ List.replicate (8 - head.length - tail.length) 0 ++ tail, rest)
    | _ => none

def parseIpAddr (cs : List Char) : Option IpAddr :=
  match readIpv4 cs with
  | some ((a, b, c, d), rest) => if rest.isEmpty then some (.v4 a b c d) else none
  | none => match readIpv6 cs with
    | some (groups, rest) => if rest.isEmpty then some (.v6 groups) else none
    | none => none

def isPublicIpv4 (a b : Nat) : Bool :=
  !(a = 0 || a = 10 || a = 127 || (a = 100 && 64 ≤ b && b ≤ 127) || (a = 169 && b = 254) ||
    (a = 172 && 16 ≤ b && b ≤ 31) || (a = 192 && b = 168) || (a = 198 && 18 ≤ b && b ≤ 19) || 224 ≤ a)

/-- The first two octets of an IPv4-compatible or IPv4-mapped address. -/
def toIpv4 : List Nat → Option (Nat × Nat)
  | [0, 0, 0, 0, 0, g, ab, _] => if g = 0 || g = 0xffff then some (ab / 256, ab % 256) else none
  | _ => none

def isPublicIpv6 (groups : List Nat) : Bool :=
  let first := groups.headD 0
  if groups = [0, 0, 0, 0, 0, 0, 0, 0] || groups = [0, 0, 0, 0, 0, 0, 0, 1] || first &&& 0xff00 = 0xff00 then false
  else if first &&& 0xfe00 = 0xfc00 || first &&& 0xffc0 = 0xfe80 then false
  else match toIpv4 groups with
    | some (a, b) => isPublicIpv4 a b
    | none => true

/-! ### Public HTTPS repositories -/

/-- An unsigned 16-bit number; a leading `+` is read. -/
def parseU16 (cs : List Char) : Option Nat :=
  let digits := match cs with
    | '+' :: rest => rest
    | _ => cs
  if digits.isEmpty || !digits.all Text.isAsciiDigit then none
  else
    let value := (readDigits 10 0 0 digits).2.1
    if value ≤ 65535 then some value else none

def validPort (port : List Char) : Bool := match parseU16 port with
  | some n => n ≠ 0
  | none => false

def validPortSuffix : List Char → Bool
  | ':' :: port => validPort port
  | _ => false

def isPublicRepositoryHost (host : List Char) : Bool :=
  let lower := host.map Text.toAsciiLower
  if lower = "localhost".toList || ".localhost".toList.isSuffixOf lower || ".local".toList.isSuffixOf lower then false
  else match parseIpAddr host with
    | some (.v4 a b _ _) => isPublicIpv4 a b
    | some (.v6 groups) => isPublicIpv6 groups
    | none => true

def repositoryHost (authority : List Char) : Except ValidationError (List Char) :=
  match authority with
  | '[' :: bracketed => match Text.splitOnce ']' bracketed with
    | none => .error (.invalidSource "git repository host is invalid")
    | some (host, suffix) => do
      ensure (suffix.isEmpty || validPortSuffix suffix) (.invalidSource "git repository port is invalid")
      ensure (!host.isEmpty) (.invalidSource "git repository host is invalid")
      return host
  | _ => do
    ensure (authority.count ':' ≤ 1) (.invalidSource "IPv6 git repository hosts must use brackets")
    let (host, suffix) := (Text.splitOnce ':' authority).getD (authority, [])
    ensure (!host.isEmpty && host.all (fun c => Text.isAsciiAlphanumeric c || c = '.' || c = '-') &&
      host.head? ≠ some '.' && host.getLast? ≠ some '.') (.invalidSource "git repository host is invalid")
    ensure (suffix.isEmpty || validPort suffix) (.invalidSource "git repository port is invalid")
    return host

def stripPrefix : List Char → List Char → Option (List Char)
  | [], cs => some cs
  | p :: ps, c :: cs => if p = c then stripPrefix ps cs else none
  | _ :: _, [] => none

theorem stripPrefix_append (front rest : List Char) : stripPrefix front (front ++ rest) = some rest := by
  induction front with
  | nil => rfl
  | cons c front ih => rw [List.cons_append, stripPrefix, if_pos rfl, ih]

def validatePublicHttpsRepository (repository : String) : Except ValidationError Unit := do
  let cs := repository.toList
  ensure (Text.isTrimmed repository && !Text.hasControl repository && !cs.any fun c => c = '?' || c = '#' || c = '\\')
    (.invalidSource "git repository must be a canonical public HTTPS URL without query or fragment")
  match stripPrefix "https://".toList cs with
  | none => .error (.invalidSource "git repository must use https://")
  | some remainder => match Text.splitOnce '/' remainder with
    | none => .error (.invalidSource "git repository URL must contain a repository path")
    | some (authority, path) => do
      ensure (!authority.isEmpty && !authority.contains '@')
        (.invalidSource "git repository URL must not contain userinfo")
      ensure (!path.isEmpty && !(segments path).any (fun s => s = [] || s = ['.'] || s = ['.', '.']))
        (.invalidSource "git repository URL must contain a canonical repository path")
      let host ← repositoryHost authority
      ensure (isPublicRepositoryHost host) (.invalidSource "git repository host must be public")

/-! ### Snapshots -/

def maxSnapshotArchiveBytes : Nat := 64 * 1024 * 1024

inductive SnapshotContractError where
  | invalidDigest
  | invalidSize
  | invalidVersion
  | invalidFormat
  deriving DecidableEq, Repr

def isLowerHex (length : Nat) (cs : List Char) : Bool := cs.length = length && cs.all Text.isLowerHexDigit

def validateSnapshotDigest (value : String) : Except SnapshotContractError Unit :=
  match stripPrefix "sha256:".toList value.toList with
  | none => .error .invalidDigest
  | some hex => ensure (isLowerHex 64 hex) .invalidDigest

def validateSnapshotSize (sizeBytes : UInt64) : Except SnapshotContractError Unit :=
  ensure (1 ≤ sizeBytes.toNat && sizeBytes.toNat ≤ maxSnapshotArchiveBytes) .invalidSize

end CYC
