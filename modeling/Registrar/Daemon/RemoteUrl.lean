import Registrar.Daemon.Cycle
import Registrar.Library.JsonRead
import Registrar.Library.JsonSame

/-!
# Remote addresses

The resolver of repositories reads a tenant's id off the address of a remote:
protocol, user-info and `.git` are dropped, and `host:path` becomes
`host/path`.  The texts are lists of characters.
-/

namespace Registrar

/-- A character of `[a-z+]`, in either case. -/
def isProtocolChar (char : Char) : Bool :=
  char.isAlpha || char == '+'

/-- Drop `^[a-z+]+://`. -/
def stripProtocol (url : List Char) : List Char :=
  let letters := url.takeWhile isProtocolChar
  match url.dropWhile isProtocolChar with
  | ':' :: '/' :: '/' :: rest => if letters = [] then url else rest
  | _ => url

/-- Drop what stands up to the first `@`, unless a `/` comes before it. -/
def stripUserInfo (url : List Char) : List Char :=
  let atIdx := url.idxOf '@'
  let slashIdx := url.idxOf '/'
  if '@' ∈ url ∧ ('/' ∉ url ∨ atIdx < slashIdx) then url.drop (atIdx + 1)
  else url

/-- `^\d+(/|$)` -/
def looksLikePort (after : List Char) : Bool :=
  after.takeWhile Char.isDigit ≠ [] &&
    match after.dropWhile Char.isDigit with
    | [] => true
    | char :: _ => char == '/'

/-- `host:path` is `host/path`, unless a port seems to follow. -/
def convertScp (url : List Char) : List Char :=
  let colonIdx := url.idxOf ':'
  if ':' ∈ url ∧ '/' ∉ url.take colonIdx then
    let after := url.drop (colonIdx + 1)
    if looksLikePort after then url else url.take colonIdx ++ '/' :: after
  else url

/-- The text is `.git`, in any case. -/
def isGit (text : List Char) : Bool :=
  text.map Char.toLower = ".git".toList

/-- Drop one trailing `.git`, in any case. -/
def stripGitSuffix (url : List Char) : List Char :=
  if isGit (url.drop (url.length - 4)) then url.take (url.length - 4) else url

/-- What the rewrites leave of an address, before it is lowered. -/
def strippedUrl (url : List Char) : List Char :=
  stripGitSuffix (convertScp (stripUserInfo (stripProtocol
    (Trim.trimChars isTrimmedSpace url))))

variable (env : Environment)

def normalizeRemoteUrl (remoteUrl : String) : String :=
  env.toLowerCase (String.ofList (strippedUrl remoteUrl.toList))

structure RepoContext where
  repoRoot : String
  remoteUrl : Option String
  workspaceRoot : Option String
  deriving DecidableEq

structure TenantOverrides where
  explicit : Option String
  envVarName : Option String
  /-- The variables of the environment. -/
  env : String → Option String

def maxConfigSize : Nat := 64 * 1024

/-- The tenant that a repository's configuration names.  A file that cannot be
read names none. -/
def readConfigTenant (files : String → Option String) (rootDir : String) :
    Option String := do
  let raw ← files (rootDir ++ "/.teamkb/config.json")
  if maxConfigSize < utf16Length raw then none
  let parsed ← Json.parse raw
  let tenantId ← parsed.string? "tenantId"
  if trim tenantId = "" then none
  return trim tenantId

/-- A setting that is given and not blank. -/
def ofSetting (value : Option String) : Option String :=
  (value.map trim).filter (· ≠ "")

def lastSegment (path : String) : String :=
  String.ofList (((path.toList.splitOn '/').filter (· ≠ [])).getLastD [])

def deriveTenantId (files : String → Option String) (ctx : RepoContext)
    (overrides : TenantOverrides) : String :=
  let configRoot := ctx.workspaceRoot.getD ctx.repoRoot
  let envVarName := overrides.envVarName.getD "TEAMKB_TENANT_ID"
  match ofSetting overrides.explicit with
  | some explicit => explicit
  | none =>
  match ofSetting (overrides.env envVarName) with
  | some fromEnv => fromEnv
  | none =>
  match readConfigTenant files configRoot with
  | some fromConfig => fromConfig
  | none =>
  match ctx.remoteUrl.filter (· ≠ "") with
  | some remoteUrl => normalizeRemoteUrl env remoteUrl
  | none => env.toLowerCase (lastSegment ctx.repoRoot)

end Registrar
