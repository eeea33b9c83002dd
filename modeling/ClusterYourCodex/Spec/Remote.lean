import ClusterYourCodex.Lib.Encoding
import ClusterYourCodex.Spec.Source

/-! The commands the SSH transport runs on a remote computer (`cyc-ssh`, `lib.rs`): validated paths and
arguments, and the two renderings of a fixed script invocation. -/

namespace CYC

inductive SshError where
  | invalidCommandArgument
  | invalidRemotePath
  deriving DecidableEq, Repr

def breaksLine (c : Char) : Bool := c = Char.ofNat 0 || c = '\r' || c = '\n'

/-- An argument of a fixed script: any text on one line. -/
structure CommandArgument where
  value : String
  oneLine : value.toList.any breaksLine = false
  deriving DecidableEq

def CommandArgument.new (value : String) : Except SshError CommandArgument :=
  if h : value.toList.any breaksLine = false then .ok ⟨value, h⟩ else .error .invalidCommandArgument

def CommandArgument.text (a : CommandArgument) : List Char := a.value.toList

def windowsAbsolute : List Char → Bool
  | drive :: ':' :: '/' :: _ => Text.isAsciiAlphabetic drive
  | _ => false

def posixAbsolute : List Char → Bool
  | '/' :: '/' :: _ => false
  | '/' :: _ => true
  | _ => false

def isRemotePath (value : List Char) : Bool :=
  let normalized := value.map fun c => if c = '\\' then '/' else c
  !value.isEmpty && !value.any breaksLine && (windowsAbsolute normalized || posixAbsolute normalized) &&
    !(segments normalized).any fun component => component = ['.'] || component = ['.', '.']

/-- An absolute path on the remote computer without dot components. -/
structure RemotePath where
  value : String
  valid : isRemotePath value.toList = true
  deriving DecidableEq

def RemotePath.new (value : String) : Except SshError RemotePath :=
  if h : isRemotePath value.toList = true then .ok ⟨value, h⟩ else .error .invalidRemotePath

def RemotePath.text (p : RemotePath) : List Char := p.value.toList

inductive FixedCommand where
  | posixScript (remotePath : RemotePath) (arguments : List CommandArgument)
  | windowsPowerShellScript (remotePath : RemotePath) (arguments : List CommandArgument) (namedArguments : Bool)

def quotePosix (value : List Char) : List Char :=
  '\'' :: (value.flatMap (fun c => if c = '\'' then "'\"'\"'".toList else [c]) ++ ['\''])

def quotePowershell (value : List Char) : List Char :=
  '\'' :: (value.flatMap (fun c => if c = '\'' then "''".toList else [c]) ++ ['\''])

/-- The key an argument becomes in named form: one leading dash is dropped. -/
def parameterKey (name : List Char) : List Char := (stripPrefix ['-'] name).getD name

/-- The entries of the hash literal. Whether an argument is the value of the name before it is decided
by its first character. -/
def renderNamed : List (List Char) → List Char
  | [] => []
  | [name] => quotePowershell (parameterKey name) ++ "=$true;".toList
  | name :: value :: rest =>
    if value.head? = some '-' then
      quotePowershell (parameterKey name) ++ "=$true;".toList ++ renderNamed (value :: rest)
    else quotePowershell (parameterKey name) ++ "=".toList ++ quotePowershell value ++ ";".toList ++ renderNamed rest

def exitStatement : List Char := "; if($null -ne $LASTEXITCODE)\x7bexit $LASTEXITCODE\x7d".toList

def powershellScript (remotePath : List Char) (arguments : List (List Char)) (namedArguments : Bool) : List Char :=
  if namedArguments then
    "$ErrorActionPreference='Stop';$cycParams=@\x7b".toList ++ renderNamed arguments ++ "\x7d; & ".toList ++
      quotePowershell remotePath ++ " @cycParams".toList ++ exitStatement
  else
    "$ErrorActionPreference='Stop';& ".toList ++ quotePowershell remotePath ++
      arguments.flatMap (fun argument => ' ' :: quotePowershell argument) ++ exitStatement

def encodedCommand : List Char :=
  "powershell.exe -NoLogo -NoProfile -NonInteractive -ExecutionPolicy Bypass -EncodedCommand ".toList

def posixLine (remotePath : List Char) (arguments : List (List Char)) : List Char :=
  "/bin/sh ".toList ++ quotePosix remotePath ++ " --".toList ++
    arguments.flatMap fun argument => ' ' :: quotePosix argument

def powershellLine (remotePath : List Char) (arguments : List (List Char)) (namedArguments : Bool) : List Char :=
  encodedCommand ++ Base64.encode true (Utf16.toBytes (Utf16.encode (powershellScript remotePath arguments namedArguments)))

def FixedCommand.render : FixedCommand → String
  | .posixScript remotePath arguments =>
    String.ofList (posixLine remotePath.text (arguments.map CommandArgument.text))
  | .windowsPowerShellScript remotePath arguments namedArguments =>
    String.ofList (powershellLine remotePath.text (arguments.map CommandArgument.text) namedArguments)

theorem toList_render_posix (path : RemotePath) (arguments : List CommandArgument) :
    (FixedCommand.render (.posixScript path arguments)).toList =
      posixLine path.text (arguments.map CommandArgument.text) :=
  String.toList_ofList

theorem toList_render_powershell (path : RemotePath) (arguments : List CommandArgument) (named : Bool) :
    (FixedCommand.render (.windowsPowerShellScript path arguments named)).toList =
      powershellLine path.text (arguments.map CommandArgument.text) named :=
  String.toList_ofList

end CYC
