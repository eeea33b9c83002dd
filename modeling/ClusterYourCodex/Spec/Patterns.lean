import ClusterYourCodex.Spec.Job

/-! How a worker reads the paths and patterns of a job (`cyc-worker`): the lexical checks of a step's working
directory (`executor.rs`), and the compilation of the artifact patterns (`artifacts.rs`). -/

namespace CYC

open Checked

/-- Both separators count on every system. -/
def isSeparator (c : Char) : Bool := c = '/' || c = '\\'

inductive PathComponent where
  | rootDir
  | curDir
  | parentDir
  | normal (name : List Char)
  deriving DecidableEq

def pathComponent (segment : List Char) : Option PathComponent :=
  if segment = [] || segment = ['.'] then none
  else if segment = ['.', '.'] then some .parentDir
  else some (.normal segment)

/-- The components of a path on Unix: a dot counts at its start only. -/
def pathComponents (cs : List Char) : List PathComponent :=
  if cs.head? = some '/' then .rootDir :: (segments cs).filterMap pathComponent
  else match segments cs with
    | ['.'] :: rest => .curDir :: rest.filterMap pathComponent
    | all => all.filterMap pathComponent

/-- What `safe_working_directory` checks before it looks at the file system. -/
def safeWorkingDirectory (relative : String) : Except String Unit := do
  let cs := relative.toList
  ensure (!(Text.blank relative || cs.contains (Char.ofNat 0))) "workingDirectory must be a non-empty safe relative path"
  ensure (!(cs.head?.any isSeparator || cs.contains ':' ||
    (Text.splitOnChar isSeparator cs).any fun segment => segment = ['.', '.'] || segment.isEmpty))
    "workingDirectory escapes or is not a normalized relative path"
  ensure (!(pathComponents cs).any fun component => component = .parentDir || component = .rootDir)
    "workingDirectory contains a forbidden path component"

/-- The glob library: `Glob::new` reads one pattern, and `GlobSetBuilder::build` makes a set of those that were read. -/
structure GlobLibrary (Pattern GlobSet Error : Type) where
  new : List Char → Except Error Pattern
  build : List Pattern → Except Error GlobSet

inductive GlobError (Error : Type) where
  | unsafePattern (message : String)
  | malformed (message : String) (source : Error)
  | unbuilt (message : String) (source : Error)
  deriving DecidableEq

section

variable {Pattern GlobSet Error : Type} (globset : GlobLibrary Pattern GlobSet Error)

def compileGlob (field pattern : String) : Except (GlobError Error) Pattern := do
  let cs := pattern.toList
  ensure (!(Text.blank pattern || cs.head?.any isSeparator || cs.contains ':' ||
    (Text.splitOnChar isSeparator cs).any (· = ['.', '.'])))
    (.unsafePattern ("artifact " ++ field ++ " pattern must be a safe repository-relative glob"))
  (globset.new (cs.map fun c => if c = '\\' then '/' else c)).mapError
    (.malformed ("compile artifact " ++ field ++ " glob `" ++ pattern ++ "`"))

def compileGlobs (patterns : List String) (field : String) : Except (GlobError Error) GlobSet := do
  let globs ← collect (compileGlob globset field) patterns
  (globset.build globs).mapError (.unbuilt ("build artifact " ++ field ++ " glob set"))

end

end CYC
