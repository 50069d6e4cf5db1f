import Registrar.Common.Environment
import Registrar.Library.JsonRead
import Registrar.Library.Program

/-!
# The token registry

A token record names who a bearer secret belongs to and what it grants.  The
registry keeps a salted hash of each secret, starts the records of revoked
actors as revoked, and resolves a presented secret to an identity.
-/

namespace Registrar

inductive TokenRole where
  | admin
  | member
  deriving DecidableEq, Repr

/-- The identity a valid token resolves to; without tenants it is not bound to
any. -/
structure TokenIdentity where
  actor : String
  role : TokenRole
  tenants : Option (List String)
  owner : Bool
  agent : Bool
  deriving DecidableEq, Repr

structure TokenRecord extends TokenIdentity where
  token : String
  expiresAt : Option String
  deriving DecidableEq, Repr

variable (env : Environment)

/-- A JSON value that is a string other than the empty one. -/
def nonEmptyText? : Json → Option String
  | .string text => if text = "" then none else some text
  | _ => none

def parseTenants : Option Json → Option (List String)
  | some (.array items) =>
      let tenants := items.filterMap nonEmptyText?
      if tenants = [] then none else some tenants
  | _ => none

def parseExpiry (raw : Option Json) : Option String :=
  raw.bind nonEmptyText?

/-- The record that an item of the tokens array describes, unless the item is
malformed or has expired. -/
def parseRecord (now : Int) : Json → Option TokenRecord
  | .object fields =>
      match (Json.field? fields "token").bind nonEmptyText?,
        (Json.field? fields "actor").bind nonEmptyText? with
      | some token, some actor =>
          let role : TokenRole :=
            match Json.field? fields "role" with
            | some (.string "admin") => .admin
            | _ => .member
          let expiresAt := parseExpiry (Json.field? fields "expiresAt")
          let expired :=
            match expiresAt with
            | none => false
            | some text =>
                match env.dateParse text with
                | none => true
                | some instant => instant ≤ now
          if expired then none
          else
            some
              { token := token
                actor := actor
                role := role
                owner :=
                  match Json.field? fields "owner" with
                  | some (.bool true) => role = .admin
                  | _ => false
                agent :=
                  match Json.field? fields "agent" with
                  | some (.bool true) => true
                  | _ => false
                tenants := parseTenants (Json.field? fields "tenants")
                expiresAt := expiresAt }
      | _, _ => none
  | _ => none

def parseRecords (now : Int) (raw : String) : List TokenRecord :=
  match Json.parse raw with
  | some (.array items) => items.filterMap (parseRecord env now)
  | _ => []

/-- The sources of token records; a path leads to a readable file or to
nothing. -/
structure TokenSourceOptions where
  apiKey : Option String
  records : List TokenRecord
  tokensJson : Option String
  tokensFile : Option String

variable (files : String → Option String)

def readFileSafe (path : Option String) : Option String :=
  match path with
  | none => none
  | some path => if path = "" then none else files path

/-- The records of the first source that has any. -/
def loadTokenRecords (now : Int) (options : TokenSourceOptions) :
    List TokenRecord :=
  if options.records ≠ [] then options.records
  else
    let raw := options.tokensJson.or (readFileSafe files options.tokensFile)
    let parsed := (raw.map (parseRecords env now)).getD []
    if parsed ≠ [] then parsed
    else
      match options.apiKey with
      | none => []
      | some apiKey =>
          if apiKey = "" then []
          else
            [{ token := apiKey
               actor := "shared"
               role := .admin
               owner := false
               agent := false
               tenants := none
               expiresAt := none }]

/-- `Buffer.from(text, 'hex')`, which stops at the first pair that is not one
of digits. -/
def bufferFromHex : List Char → List UInt8
  | high :: low :: rest =>
      match Json.hexDigitValue? high, Json.hexDigitValue? low with
      | some high, some low =>
          UInt8.ofNat (16 * high + low) :: bufferFromHex rest
      | _, _ => []
  | _ => []

def hexText (bytes : List UInt8) : List Char :=
  bytes.flatMap fun byte =>
    [Json.hexDigit (byte.toNat / 16), Json.hexDigit (byte.toNat % 16)]

structure StoredHash where
  salt : List UInt8
  hash : List UInt8
  deriving DecidableEq

def parseStoredHash (stored : String) : Option StoredHash :=
  match stored.toList.splitOn '$' with
  | [scheme, salt, hash] =>
      let salt := bufferFromHex salt
      let hash := bufferFromHex hash
      if scheme ≠ "scrypt".toList ∨ salt = [] ∨ hash = [] then none
      else
        some
          { salt := salt
            hash := hash }
  | _ => none

def scryptKeyLength : Nat := 32

/-- `scryptSync` of a secret under a salt, with the length of its result. -/
abbrev Scrypt := String → List UInt8 → Nat → List UInt8

variable (scrypt : Scrypt)

/-- The stored form of a secret under a fresh salt. -/
def hashToken (plaintext : String) (salt : List UInt8) : String :=
  String.ofList
    ("scrypt$".toList ++ (hexText salt ++
      '$' :: hexText (scrypt plaintext salt scryptKeyLength)))

/-- A live credential without its secret. -/
structure HashedRecord extends StoredHash where
  identity : TokenIdentity
  expiresAtMs : Option Int
  revoked : Bool
  deriving DecidableEq

def hashRecord (salt : List UInt8) (record : TokenRecord) :
    Except String HashedRecord :=
  match (parseStoredHash record.token).or
    (parseStoredHash (hashToken scrypt record.token salt)) with
  | none => .error "internal: hashToken produced an unparseable hash"
  | some stored =>
      .ok
        { stored with
          identity :=
            { actor := record.actor
              role := record.role
              tenants := record.tenants.filter (· ≠ [])
              owner := record.owner && record.role = .admin
              agent := record.agent }
          expiresAtMs := record.expiresAt.bind env.dateParse
          revoked := false }

/-- The presented secret is the record's. -/
def HashedRecord.Presented (record : HashedRecord) (token : String) : Prop :=
  record.hash = scrypt token record.salt record.hash.length

instance (record : HashedRecord) (token : String) :
    Decidable (record.Presented scrypt token) :=
  inferInstanceAs (Decidable (_ = _))

def HashedRecord.Live (record : HashedRecord) (now : Int) : Prop :=
  record.revoked = false ∧ ∀ instant ∈ record.expiresAtMs, now < instant

instance (record : HashedRecord) (now : Int) : Decidable (record.Live now) :=
  inferInstanceAs (Decidable (_ ∧ _))

structure InMemoryTokenRegistry where
  records : List HashedRecord
  deriving DecidableEq

theorem mem_of_mapM_eq_ok {Item Result Failure : Type}
    {step : Item → Except Failure Result} :
    ∀ {items : List Item} {results : List Result},
      items.mapM step = .ok results → ∀ {result}, result ∈ results →
        ∃ item ∈ items, step item = .ok result
  | [], _, mapped, _, member => by
      cases mapped
      cases member
  | item :: items, results, mapped, result, member => by
      rw [List.mapM_cons] at mapped
      obtain ⟨head, first, others⟩ :=
        Program.except_bind_eq_ok_iff.mp mapped
      obtain ⟨tail, rest, ends⟩ := Program.except_bind_eq_ok_iff.mp others
      cases ends
      rcases List.mem_cons.mp member with rfl | later
      · exact ⟨item, List.mem_cons_self, first⟩
      · obtain ⟨other, inside, gives⟩ := mem_of_mapM_eq_ok rest later
        exact ⟨other, List.mem_cons_of_mem _ inside, gives⟩

namespace InMemoryTokenRegistry

/-- The registry of the records, of which those of revoked actors start life
revoked; the salts are drawn one for each record. -/
def build (salts : Nat → List UInt8) (records : List TokenRecord)
    (revokedActors : List String) : Except String InMemoryTokenRegistry := do
  let hashed ← records.zipIdx.mapM fun entry =>
    hashRecord env scrypt (salts entry.2) entry.1
  return { records := hashed.map fun record =>
             { record with
               revoked := revokedActors.contains record.identity.actor } }

def isEmpty (registry : InMemoryTokenRegistry) : Bool :=
  registry.records.isEmpty

/-- The identity of the last live record whose secret was presented. -/
def resolve (registry : InMemoryTokenRegistry) (now : Int) (token : String) :
    Option TokenIdentity :=
  registry.records.foldl
    (fun found record =>
      if record.Presented scrypt token ∧ record.Live now then
        some record.identity
      else found)
    none

variable {env scrypt}

theorem resolve_eq_some {registry : InMemoryTokenRegistry} {now : Int}
    {token : String} {identity : TokenIdentity}
    (resolved : registry.resolve scrypt now token = some identity) :
    ∃ record ∈ registry.records, record.Presented scrypt token ∧
      record.Live now ∧ record.identity = identity := by
  obtain ⟨records⟩ := registry
  unfold resolve at resolved
  dsimp only at resolved ⊢
  induction records using List.reverseRecOn with
  | nil => simp at resolved
  | append_singleton records last induction =>
      rw [List.foldl_append, List.foldl_cons, List.foldl_nil] at resolved
      split_ifs at resolved with admitted
      · cases resolved
        exact ⟨last, by simp, admitted.1, admitted.2, rfl⟩
      · obtain ⟨record, member, admitted⟩ := induction resolved
        exact ⟨record, List.mem_append_left _ member, admitted⟩

/-- Each record of the registry is a hashed source record, and is revoked when
its actor is. -/
theorem mem_build {salts : Nat → List UInt8} {records : List TokenRecord}
    {revokedActors : List String} {registry : InMemoryTokenRegistry}
    (built : build env scrypt salts records revokedActors = .ok registry)
    {record : HashedRecord} (member : record ∈ registry.records) :
    ∃ source ∈ records, ∃ salt hashed,
      hashRecord env scrypt salt source = .ok hashed ∧
        record =
          { hashed with
            revoked := revokedActors.contains hashed.identity.actor } := by
  unfold build at built
  cases mapped : records.zipIdx.mapM fun entry =>
      hashRecord env scrypt (salts entry.2) entry.1 with
  | error _ =>
      rw [mapped] at built
      cases built
  | ok hashed =>
      rw [mapped] at built
      cases built
      obtain ⟨original, inside, rfl⟩ := List.mem_map.mp member
      obtain ⟨entry, listed, hashes⟩ := mem_of_mapM_eq_ok mapped inside
      exact ⟨entry.1, (List.mem_zipIdx' listed).2 ▸ List.getElem_mem _, _,
        original, hashes, rfl⟩

end InMemoryTokenRegistry

/-- The actor that an entry of the revocation list bans. -/
def revokedActor? : Json → Option String
  | .object fields => (Json.field? fields "actor").bind nonEmptyText?
  | _ => none

/-- The actors that a list with this text bans; without a text, or with one
that cannot be parsed, nobody. -/
def bannedActors (raw : Option String) : List String :=
  match raw.bind Json.parse with
  | some (.array items) => (items.filterMap revokedActor?).eraseDups
  | _ => []

/-- The actors on the durable list. -/
def loadRevokedActors (path : Option String) : List String :=
  bannedActors (readFileSafe files path)

structure RegistryBuildOptions extends TokenSourceOptions where
  revokedFile : Option String

def buildTokenRegistry (salts : Nat → List UInt8) (now : Int)
    (options : RegistryBuildOptions) : Except String InMemoryTokenRegistry :=
  InMemoryTokenRegistry.build env scrypt salts
    (loadTokenRecords env files now options.toTokenSourceOptions)
    (loadRevokedActors files options.revokedFile)

variable {env files scrypt}

theorem resolve_unrevoked {salts : Nat → List UInt8} {loadedAt now : Int}
    {options : RegistryBuildOptions} {registry : InMemoryTokenRegistry}
    {token : String} {identity : TokenIdentity}
    (built : buildTokenRegistry env files scrypt salts loadedAt options =
      .ok registry)
    (resolved : registry.resolve scrypt now token = some identity) :
    identity.actor ∉ loadRevokedActors files options.revokedFile := by
  obtain ⟨record, member, -, live, rfl⟩ :=
    InMemoryTokenRegistry.resolve_eq_some resolved
  obtain ⟨source, -, salt, hashed, -, rfl⟩ :=
    InMemoryTokenRegistry.mem_build built member
  intro revoked
  have banned := live.1
  simp only [List.contains_eq_mem, decide_eq_false_iff_not] at banned
  exact banned revoked

end Registrar
