import Mathlib.Data.List.DropRight
import Registrar.Library.CodeUnits

/-!
# Secret patterns

The rules of the secret scanner, with the values that two of them do not count.
-/

namespace Registrar

namespace SecretScanner

open UnitPattern (literal word oneOf digits spaces someSpaces someOf noneOf)

def trim (text : List CodeUnit) : List CodeUnit :=
  (text.dropWhile isSpaceUnit).rdropWhile isSpaceUnit

/-- The characters `<$\x7b[%`. -/
def templatePrefix : CharClass := .ofText "<$\x7b[%"

def placeholderFragment : UnitPattern :=
  .choice (word "password")
    [word "passwd", word "passphrase",
      .sequence [word "change", .optional (oneOf "-_"), word "me"],
      word "example", word "placeholder", word "redacted",
      someOf (.ofText "xX") 3, someOf (.ofText "*") 3, someOf (.ofText ".") 3]

def envReference : UnitPattern :=
  .choice (word "process.env")
    [word "os.environ", word "getenv", word "secrets."]

def upperOrDigit : CharClass := UnitClass.upperLetter ++ .digit

/-- The name of an environment variable: words joined by underscores. -/
def isEnvVarName (value : List CodeUnit) : Bool :=
  match value.splitOn (CodeUnit.ofChar '_') with
  | [] | [_] => false
  | first :: others =>
      first.head?.any (UnitClass.hasUnit UnitClass.upperLetter) &&
        first.all (UnitClass.hasUnit upperOrDigit) &&
          others.all fun piece =>
            !piece.isEmpty && piece.all (UnitClass.hasUnit upperOrDigit)

/-- The lower case of a unit as far as it has letters from `a` to `z`. -/
def lowerCase (unit : CodeUnit) : List CodeUnit :=
  if UnitClass.hasUnit UnitClass.upperLetter unit then
    [CodeUnit.ofNat (unit.val + 32)]
  else if unit.val = 0x212a then [CodeUnit.ofChar 'k']
  else if unit.val = 0x130 then [CodeUnit.ofChar 'i', CodeUnit.ofNat 0x307]
  else [unit]

def placeholderWords : List String :=
  ["pass", "pwd", "pw", "secret", "secrets", "token", "key", "apikey", "sample",
    "dummy", "hidden", "masked", "your", "my", "the", "here", "value", "string",
    "text", "foo", "bar", "baz", "user", "username", "enabled", "disabled",
    "required", "optional", "unknown", "missing", "invalid", "correct",
    "incorrect", "empty", "hashed", "encrypted", "rotated", "expired", "stored"]

/-- The runs of letters of a text. -/
def lettersOf (value : List CodeUnit) : List (List CodeUnit) :=
  ((value.flatMap lowerCase).splitOnP fun unit =>
    !UnitClass.hasUnit UnitClass.lowerLetter unit).filter (!·.isEmpty)

def isPlaceholderSecretValue (raw : List CodeUnit) : Bool :=
  let value := trim raw
  value.isEmpty || value.head?.any (UnitClass.hasUnit templatePrefix) ||
    placeholderFragment.tests value || envReference.tests value ||
      isEnvVarName value ||
        (!(lettersOf value).isEmpty &&
          (lettersOf value).all fun letters =>
            placeholderWords.any fun known => CodeUnit.units known = letters)

def pathLike : UnitPattern :=
  .sequence
    [.optional
      (.choice (literal "~") [.run (.within (.ofText ".")) 1 (some 2)]),
      literal "/"]

def fileLike : UnitPattern :=
  .sequence
    [literal ".",
      .choice
        (.sequence [word "y", .optional (word "a"), word "ml"])
        (["json", "env", "txt", "md", "sops", "conf", "cfg", "ini", "toml",
          "ts", "js", "py", "sh", "key", "pem", "db", "kdbx", "age",
          "gpg"].map word)]

def isPathLikeValue (raw : List CodeUnit) : Bool :=
  pathLike.testsStart (trim raw) || fileLike.testsEnd (trim raw)

structure SecretPattern where
  id : String
  name : String
  regex : UnitExpression
  requiresContext : Option (List CodeUnit → Bool) := none
  requiresSourceContext : Bool := false
  /-- Whether a match with these groups counts. -/
  accept : Option (List (List CodeUnit) → Bool) := none
  skipWhitespaceStrippedView : Bool := false
  lineWrapOnly : Bool := false
  requiresSourceToken : Bool := false

def tokenChars : CharClass := .token

def alphanumericUpper : CharClass := .digit ++ UnitClass.upperLetter

def base64Chars : CharClass := .alphanumeric ++ .ofText "+/"

def hexChars : CharClass := .digit ++ [('a', 'f')]

def jwt : SecretPattern :=
  { id := "jwt"
    name := "JWT Token"
    regex := .ofPattern
      (.sequence
        [literal "eyJ", someOf tokenChars 10, literal ".",
          someOf tokenChars 10, literal ".", someOf tokenChars 10]) }

def awsKey : SecretPattern :=
  { id := "aws-key"
    name := "AWS Access Key"
    regex := .ofPattern
      (.sequence
        [literal "AKIA", .run (.within alphanumericUpper) 16 (some 16)]) }

def githubToken : SecretPattern :=
  { id := "github-token"
    name := "GitHub Token"
    regex := .ofPattern
      (.sequence
        [literal "gh", oneOf "pousr", literal "_",
          someOf (.alphanumeric ++ .ofText "_") 36]) }

def genericApiKey : SecretPattern :=
  { id := "generic-api-key"
    name := "Generic API Key (sk-*)"
    regex := .ofPattern
      (.sequence [literal "sk-", someOf .alphanumeric 20])
    requiresSourceToken := true }

def slackToken : SecretPattern :=
  { id := "slack-token"
    name := "Slack Token"
    regex := .ofPattern
      (.sequence
        [literal "xox", oneOf "bpras", literal "-",
          someOf (.alphanumeric ++ .ofText "-") 10])
    lineWrapOnly := true }

def pemKey : SecretPattern :=
  { id := "pem-key"
    name := "PEM Private Key"
    regex := .ofPattern
      (.sequence
        [literal "-----BEGIN ",
          .optional (.choice (literal "RSA ") [literal "EC ", literal "DSA "]),
          literal "PRIVATE KEY-----"]) }

def connectionString : SecretPattern :=
  { id := "connection-string"
    name := "Connection String with Credentials"
    regex := .ofPattern
      (.sequence
        [.choice (literal "mongodb")
          [literal "postgres", literal "mysql", literal "redis",
            literal "amqp"],
          literal "://", noneOf (.ofText ":") 1, literal ":",
          noneOf (.ofText "@") 1, literal "@"]) }

def base64Auth : SecretPattern :=
  { id := "base64-auth"
    name := "Base64 Authorization Header"
    regex := .ofPattern
      (.sequence
        [literal "Basic", someSpaces, someOf base64Chars 20,
          .run (.within (.ofText "=")) 0 (some 2)]) }

def gcpServiceAccount : SecretPattern :=
  { id := "gcp-service-account"
    name := "GCP Service Account JSON"
    regex := .ofPattern
      (.sequence
        [literal "\"type\"", spaces, literal ":", spaces,
          literal "\"service_account\""]) }

def highEntropyHex : SecretPattern :=
  { id := "high-entropy-hex"
    name := "High-Entropy Hex String"
    regex := .ofPattern (someOf hexChars 40) }

def envSecret : SecretPattern :=
  { id := "env-secret"
    name := "Environment Variable Secret"
    regex := .ofPattern
      (.sequence
        [.choice (word "SECRET")
          [word "PASSWORD", word "TOKEN", word "API_KEY", word "PRIVATE_KEY"],
          spaces, literal "=", spaces, .optional (oneOf "\"'"),
          noneOf (.space ++ .ofText "\"'") 8])
    lineWrapOnly := true }

def azureConnectionString : SecretPattern :=
  { id := "azure-connection-string"
    name := "Azure Connection String"
    regex := .ofPattern
      (.sequence
        [literal "AccountKey=", someOf (base64Chars ++ .ofText "=") 20]) }

def hexRun (length : Nat) : UnitPattern :=
  .run (.within hexChars) length (some length)

def herokuKeyword : UnitPattern :=
  .choice (word "heroku")
    [.sequence [word "api", .optional (oneOf "-_ "), word "key"],
      word "api", word "key", word "token", word "secret", word "credential",
      word "bearer"]

def herokuAssignment : UnitPattern :=
  .sequence
    [.symbol (.within UnitClass.letter),
      someOf (.alphanumeric ++ .ofText "_") 0, spaces, oneOf ":="]

def herokuApiKey : SecretPattern :=
  { id := "heroku-api-key"
    name := "Heroku API Key"
    regex := .ofPattern
      (.sequence
        [hexRun 8, literal "-", hexRun 4, literal "-", hexRun 4, literal "-",
          hexRun 4, literal "-", hexRun 12])
    requiresSourceContext := true
    requiresContext := some fun text =>
      herokuKeyword.testsApart .alphanumeric text ||
        herokuAssignment.tests text }

def mysqlConnectionString : SecretPattern :=
  { id := "mysql-connection-string"
    name := "MySQL Connection String"
    regex := .ofPattern
      (.sequence
        [literal "mysql://", noneOf (.ofText ":") 1, literal ":",
          noneOf (.ofText "@") 1, literal "@", noneOf .space 1]) }

def postgresConnectionString : SecretPattern :=
  { id := "postgres-connection-string"
    name := "PostgreSQL Connection String"
    regex := .ofPattern
      (.sequence
        [literal "postgres", .optional (literal "ql"), literal "://",
          noneOf (.ofText ":") 1, literal ":", noneOf (.ofText "@") 1,
          literal "@", noneOf .space 1]) }

def passwordKeyword : UnitPattern :=
  .choice (word "password") [word "passwd", word "passphrase"]

def passwordJoiner : UnitPattern :=
  .choice
    (.sequence
      [.boundary, .choice (word "is") [word "was"], .boundary, spaces,
        .optional (oneOf ":=")])
    [oneOf ":="]

/-- What comes before the opening quote. -/
def proseLead : UnitExpression :=
  [.plain passwordKeyword, .lazily (.outside (.ofText "\n")) 0 (some 40),
    .plain passwordJoiner, .plain spaces,
    .plain (.run (.within (.ofText "*_")) 0 (some 3))]

def openingQuotes : CharClass := .ofText "`\"'“‘"

def closingQuotes : CharClass := .ofText "`\"'”’"

def proseValue : UnitPattern :=
  .run (.outside (.space ++ .ofText "`\"'“”‘’")) 6 (some 128)

def proseRegex : UnitExpression :=
  proseLead ++
    [.plain (.symbol (.within openingQuotes)), .group proseValue,
      .plain (.symbol (.within closingQuotes))]

/-- The value is neither a stand-in nor a place where a secret is kept. -/
def isRealValue (value : List CodeUnit) : Bool :=
  !isPlaceholderSecretValue value && !isPathLikeValue value

def prosePassword : SecretPattern :=
  { id := "prose-password"
    name := "Password Stated in Prose"
    regex := proseRegex
    accept := some fun groups => isRealValue (groups[0]?.getD [])
    skipWhitespaceStrippedView := true }

def urlEmbeddedCredentials : SecretPattern :=
  { id := "url-embedded-credentials"
    name := "URL with Embedded Credentials"
    regex :=
      [.plain
          (.sequence
            [.boundary, .symbol (.within UnitClass.letter),
              .run (.within (.alphanumeric ++ .ofText "+.-")) 1 (some 31),
              literal "://"]),
        .group
          (.run (.outside (.space ++ .ofText ":@/?#")) 0 (some 128)),
        .plain (literal ":"),
        .group (.run (.outside (.space ++ .ofText "@/?#")) 3 (some 256)),
        .plain
          (.sequence
            [literal "@", .symbol (.outside (.space ++ .ofText "@/?#:"))])]
    accept := some fun groups =>
      !isPlaceholderSecretValue (groups[1]?.getD [])
    skipWhitespaceStrippedView := true }

def secretPatterns : List SecretPattern :=
  [jwt, awsKey, githubToken, genericApiKey, slackToken, pemKey,
    connectionString, base64Auth, gcpServiceAccount, highEntropyHex, envSecret,
    azureConnectionString, herokuApiKey, mysqlConnectionString,
    postgresConnectionString, prosePassword, urlEmbeddedCredentials]

end SecretScanner

end Registrar
