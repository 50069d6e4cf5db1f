import Registrar.Auth.TokenRegistry

/-!
# Bearer authentication

What the server does with a registry at boot, and with a request's bearer token
afterwards.  A server without records runs open to its own host, so a tokens
text that yields no record decides how the server answers.
-/

namespace Registrar

variable (env : Environment)

def isLoopbackOctet (part : List Char) : Bool :=
  1 ≤ part.length && part.length ≤ 3 && part.all Char.isDigit

/-- The host names that only the host itself can reach. -/
def isLoopbackHost (host : String) : Bool :=
  let text := env.toLowerCase (trim host)
  text = "localhost" || text = "::1" || text = "[::1]" ||
    match text.toList.splitOn '.' with
    | [first, second, third, fourth] =>
        first = "127".toList && [second, third, fourth].all isLoopbackOctet
    | _ => false

/-- Where the server runs. -/
structure Deployment where
  isProduction : Bool
  bindHost : String
  deriving DecidableEq, Repr

inductive ApiAuth where
  | unauthenticated
  | bearer (registry : InMemoryTokenRegistry)

def productionRefusal : String :=
  "TEAMKB_API_KEY (or a token registry) must be set in production. " ++
    "Refusing to start without authentication."

def offHostRefusal (bindHost : String) : String :=
  "Refusing to start unauthenticated on a non-loopback interface (host=" ++
    bindHost ++ "). No tokens are configured, so every request would run as " ++
    "role=admin. Either configure TEAMKB_API_KEY / TEAMKB_TOKENS(_FILE), or " ++
    "bind 127.0.0.1."

def registerApiKeyAuth (deployment : Deployment)
    (registry : InMemoryTokenRegistry) : Except String ApiAuth :=
  if registry.isEmpty then
    if deployment.isProduction then .error productionRefusal
    else if !isLoopbackHost env deployment.bindHost then
      .error (offHostRefusal deployment.bindHost)
    else .ok .unauthenticated
  else .ok (.bearer registry)

structure ApiRequest where
  url : String
  authorization : Option String
  deriving DecidableEq, Repr

/-- What the hook stamps on a request. -/
structure RequestIdentity where
  actor : Option String
  role : Option TokenRole
  owner : Bool
  agent : Bool
  tenants : Option (List String)
  deriving DecidableEq, Repr

def RequestIdentity.anonymous : RequestIdentity where
  actor := none
  role := none
  owner := false
  agent := false
  tenants := none

def isAlwaysPublic (url : String) : Bool :=
  url = "/api/health" || url = "/api/health/" || url = "/openapi.json" ||
    url = "/docs" || "/docs/".toList.isPrefixOf url.toList

variable (scrypt : Scrypt)

/-- The hook that runs before every route. -/
def onRequest (now : Int) (request : ApiRequest) :
    ApiAuth → Except String RequestIdentity
  | .unauthenticated =>
      .ok
        { RequestIdentity.anonymous with
          actor := some "dev"
          role := some .admin
          owner := true }
  | .bearer registry =>
      if isAlwaysPublic request.url then .ok .anonymous
      else
        match request.authorization with
        | none => .error "Missing Authorization header"
        | some header =>
            let scheme := header.toList.takeWhile (· ≠ ' ')
            match header.toList.dropWhile (· ≠ ' ') with
            | [] => .error "Invalid Authorization header format"
            | _ :: token =>
                if scheme ≠ "Bearer".toList then .error "Invalid API key"
                else
                  match registry.resolve scrypt now (String.ofList token) with
                  | none => .error "Invalid API key"
                  | some identity =>
                      .ok
                        { actor := some identity.actor
                          role := some identity.role
                          owner := identity.owner
                          agent := identity.agent
                          tenants := identity.tenants }

/-- The authentication of a server that boots with these token sources. -/
def bootAuth (files : String → Option String) (salts : Nat → List UInt8)
    (loadedAt : Int) (deployment : Deployment)
    (options : RegistryBuildOptions) : Except String ApiAuth := do
  let registry ← buildTokenRegistry env files scrypt salts loadedAt options
  registerApiKeyAuth env deployment registry

def itemField? (item : Json) (name : String) : Option Json :=
  match item with
  | .object fields => Json.field? fields name
  | _ => none

/-- The item is one of the array that the text holds. -/
def TokenItem (raw : String) (item : Json) : Prop :=
  ∃ items, Json.parse raw = some (.array items) ∧ item ∈ items

/-- Loading the item at some instant puts this record in the registry. -/
def Accepted (item : Json) (hashed : HashedRecord) : Prop :=
  ∃ loadedAt record salt, parseRecord env loadedAt item = some record ∧
    hashRecord env scrypt salt record = .ok hashed

/-- A tenants field is a list of tenants. -/
def TenantsWellFormed (value : Json) : Prop :=
  ∃ items, value = .array items ∧
    ∀ item ∈ items, (nonEmptyText? item).isSome = true

/-- A record whose expiry field is present resolves only before the instant
that the field denotes. -/
def ExpiryRespected (item : Json) : Prop :=
  ∀ hashed, Accepted env scrypt item hashed →
    ∀ token now value, hashed.Presented scrypt token → hashed.Live now →
      itemField? item "expiresAt" = some value →
      ∃ text instant, value = .string text ∧
        env.dateParse text = some instant ∧ now < instant

/-- A record whose tenants field is malformed is bound to some tenant. -/
def TenancyRespected (item : Json) : Prop :=
  ∀ hashed, Accepted env scrypt item hashed →
    ∀ value, itemField? item "tenants" = some value →
      ¬TenantsWellFormed value → hashed.identity.tenants ≠ none

/-- Where the text is the configured source but yields no record, and there is
no shared key, no request without a token is served as an admin. -/
def NoOpenAdmin (raw : String) (deployment : Deployment) : Prop :=
  ∀ files salts loadedAt options auth,
    options.tokensJson.or (readFileSafe files options.tokensFile) =
      some raw →
    options.records = [] → (∀ apiKey ∈ options.apiKey, apiKey = "") →
    parseRecords env loadedAt raw = [] →
    bootAuth env scrypt files salts loadedAt deployment options = .ok auth →
    ∀ now request identity, request.authorization = none →
      onRequest scrypt now request auth = .ok identity →
      identity.role ≠ some .admin

/-- A tokens text grants nothing that it does not spell out. -/
structure FailsClosed (raw : String) (deployment : Deployment) : Prop where
  expiry : ∀ item, TokenItem raw item → ExpiryRespected env scrypt item
  tenancy : ∀ item, TokenItem raw item → TenancyRespected env scrypt item
  boot : NoOpenAdmin env scrypt raw deployment

/-- The expiry field, if there is one, is a text that is not empty. -/
def ExpirySpelled (item : Json) : Prop :=
  ∀ value, itemField? item "expiresAt" = some value →
    ∃ text, value = .string text ∧ text ≠ ""

/-- The tenants field, if there is one, is a list of tenants or holds one. -/
def TenancySpelled (item : Json) : Prop :=
  ∀ value, itemField? item "tenants" = some value →
    TenantsWellFormed value ∨
      ∃ items, value = .array items ∧
        ∃ item ∈ items, (nonEmptyText? item).isSome = true

variable {env scrypt}

/-- What the parser takes over from an item. -/
theorem parseRecord_eq_some {loadedAt : Int} {item : Json}
    {record : TokenRecord}
    (parsed : parseRecord env loadedAt item = some record) :
    record.expiresAt = parseExpiry (itemField? item "expiresAt") ∧
      record.tenants = parseTenants (itemField? item "tenants") ∧
      ∀ text ∈ record.expiresAt,
        ∃ instant, env.dateParse text = some instant := by
  unfold parseRecord at parsed
  split at parsed
  · rename_i fields
    split at parsed
    · dsimp only at parsed
      split_ifs at parsed with expired
      cases parsed
      refine ⟨rfl, rfl, ?_⟩
      intro text present
      simp only [Option.mem_def] at present
      rw [present] at expired
      cases denoted : env.dateParse text with
      | none => simp [denoted] at expired
      | some instant => exact ⟨instant, rfl⟩
    · cases parsed
  · cases parsed

theorem hashRecord_eq_ok {salt : List UInt8} {record : TokenRecord}
    {hashed : HashedRecord}
    (built : hashRecord env scrypt salt record = .ok hashed) :
    hashed.revoked = false ∧
      hashed.expiresAtMs = record.expiresAt.bind env.dateParse ∧
      hashed.identity.tenants = record.tenants.filter (· ≠ []) := by
  unfold hashRecord at built
  split at built
  · cases built
  · cases built
    exact ⟨rfl, rfl, rfl⟩

theorem expiryRespected_iff {item : Json} :
    ExpiryRespected env scrypt item ↔
      ((∃ hashed token, Accepted env scrypt item hashed ∧
        hashed.Presented scrypt token) → ExpirySpelled item) := by
  constructor
  · rintro respected ⟨hashed, token, accepted, presented⟩ value present
    by_contra unspelled
    obtain ⟨loadedAt, record, salt, parsed, built⟩ := accepted
    obtain ⟨expiresAt, -, -⟩ := parseRecord_eq_some parsed
    obtain ⟨unrevoked, instant, -⟩ := hashRecord_eq_ok built
    have permanent : record.expiresAt = none := by
      rw [expiresAt, present]
      cases value <;> try rfl
      rename_i text
      have empty : text = "" := by
        by_contra nonempty
        exact unspelled ⟨text, rfl, nonempty⟩
      rw [empty]
      rfl
    have live (now : Int) : hashed.Live now := by
      refine ⟨unrevoked, ?_⟩
      rw [instant, permanent]
      intro _ present
      cases present
    obtain ⟨text, expiry, rfl, denotes, -⟩ := respected hashed
      ⟨loadedAt, record, salt, parsed, built⟩ token 0 value presented
      (live 0) present
    obtain ⟨again, later, same, denotesAgain, before⟩ := respected hashed
      ⟨loadedAt, record, salt, parsed, built⟩ token expiry _ presented
      (live expiry) present
    cases same
    rw [denotes] at denotesAgain
    cases denotesAgain
    exact absurd before (lt_irrefl _)
  · rintro spelled hashed ⟨loadedAt, record, salt, parsed, built⟩ token now
      value presented live present
    obtain ⟨text, rfl, nonempty⟩ := spelled
      ⟨hashed, token, ⟨loadedAt, record, salt, parsed, built⟩, presented⟩
      value present
    obtain ⟨expiresAt, -, denotes⟩ := parseRecord_eq_some parsed
    obtain ⟨-, instant, -⟩ := hashRecord_eq_ok built
    have kept : record.expiresAt = some text := by
      rw [expiresAt, present]
      simp [parseExpiry, nonEmptyText?, nonempty]
    obtain ⟨expiry, denoted⟩ := denotes text kept
    refine ⟨text, expiry, rfl, denoted, live.2 expiry ?_⟩
    rw [instant, kept]
    exact denoted

theorem parseTenants_ne_none {value : Json} :
    (parseTenants (some value)).filter (· ≠ []) ≠ none ↔
      ∃ items, value = .array items ∧
        ∃ item ∈ items, (nonEmptyText? item).isSome = true := by
  cases value with
  | array items =>
      cases tenants : items.filterMap nonEmptyText? with
      | nil =>
          have noTenant := List.filterMap_eq_nil_iff.mp tenants
          simp [parseTenants, tenants]
          intro item member
          simp [noTenant item member]
      | cons tenant rest =>
          have member : tenant ∈ items.filterMap nonEmptyText? := by
            simp [tenants]
          obtain ⟨item, inside, gives⟩ := List.mem_filterMap.mp member
          simp [parseTenants, tenants]
          exact ⟨item, inside, by simp [gives]⟩
  | _ => simp [parseTenants]

theorem tenancyRespected_iff {item : Json} :
    TenancyRespected env scrypt item ↔
      ((∃ hashed, Accepted env scrypt item hashed) → TenancySpelled item) := by
  have bound {hashed : HashedRecord} {value : Json}
      (accepted : Accepted env scrypt item hashed)
      (present : itemField? item "tenants" = some value) :
      hashed.identity.tenants ≠ none ↔
        ∃ items, value = .array items ∧
          ∃ item ∈ items, (nonEmptyText? item).isSome = true := by
    obtain ⟨loadedAt, record, salt, parsed, built⟩ := accepted
    obtain ⟨-, tenants, -⟩ := parseRecord_eq_some parsed
    obtain ⟨-, -, kept⟩ := hashRecord_eq_ok built
    rw [kept, tenants, present]
    exact parseTenants_ne_none
  constructor
  · rintro respected ⟨hashed, accepted⟩ value present
    by_cases wellFormed : TenantsWellFormed value
    · exact .inl wellFormed
    · exact .inr ((bound accepted present).mp
        (respected hashed accepted value present wellFormed))
  · rintro spelled hashed accepted value present malformed
    rcases spelled ⟨hashed, accepted⟩ value present with wellFormed | isUuid
    · exact absurd wellFormed malformed
    · exact (bound accepted present).mpr isUuid

section Unusable

variable {files : String → Option String} {loadedAt : Int}
variable {options : RegistryBuildOptions} {raw : String}

theorem loadTokenRecords_of_unusable
    (source : options.tokensJson.or (readFileSafe files options.tokensFile) =
      some raw)
    (implicit : options.records = [])
    (keyless : ∀ apiKey ∈ options.apiKey, apiKey = "")
    (unusable : parseRecords env loadedAt raw = []) :
    loadTokenRecords env files loadedAt options.toTokenSourceOptions = [] := by
  cases shared : options.apiKey with
  | none => simp [loadTokenRecords, implicit, source, unusable, shared]
  | some apiKey =>
      have blank := keyless apiKey shared
      simp [loadTokenRecords, implicit, source, unusable, shared, blank]

theorem bootAuth_eq_ok_of_unusable {salts : Nat → List UInt8}
    {deployment : Deployment}
    (source : options.tokensJson.or (readFileSafe files options.tokensFile) =
      some raw)
    (implicit : options.records = [])
    (keyless : ∀ apiKey ∈ options.apiKey, apiKey = "")
    (unusable : parseRecords env loadedAt raw = []) :
    bootAuth env scrypt files salts loadedAt deployment options =
      registerApiKeyAuth env deployment
        { records := [] } := by
  have empty := loadTokenRecords_of_unusable source implicit keyless unusable
  unfold bootAuth buildTokenRegistry
  rw [empty]
  rfl

end Unusable

theorem registerApiKeyAuth_empty {deployment : Deployment} {auth : ApiAuth} :
    registerApiKeyAuth env deployment
        { records := [] } = .ok auth ↔
      deployment.isProduction = false ∧
        isLoopbackHost env deployment.bindHost = true ∧
        auth = .unauthenticated := by
  have empty : InMemoryTokenRegistry.isEmpty
      { records := [] } = true := rfl
  unfold registerApiKeyAuth
  rw [if_pos empty]
  cases deployment.isProduction <;>
    cases isLoopbackHost env deployment.bindHost <;> simp [eq_comm]

theorem noOpenAdmin_iff {raw : String} {deployment : Deployment} :
    NoOpenAdmin env scrypt raw deployment ↔
      deployment.isProduction = true ∨
        isLoopbackHost env deployment.bindHost = false ∨
        ∀ loadedAt, parseRecords env loadedAt raw ≠ [] := by
  constructor
  · intro closed
    by_contra unguarded
    push Not at unguarded
    obtain ⟨development, loopback, loadedAt, unusable⟩ := unguarded
    let options : RegistryBuildOptions :=
      { apiKey := none
        records := []
        tokensJson := some raw
        tokensFile := none
        revokedFile := none }
    have keyless : ∀ apiKey ∈ options.apiKey, apiKey = "" := by
      intro apiKey present
      cases present
    refine closed (fun _ => none) (fun _ => []) loadedAt options
      .unauthenticated rfl rfl keyless unusable ?_ 0
      { url := "/api/memories"
        authorization := none } _ rfl rfl rfl
    rw [bootAuth_eq_ok_of_unusable rfl rfl keyless unusable]
    exact registerApiKeyAuth_empty.mpr
      ⟨by simpa using development, by simpa using loopback, rfl⟩
  · intro guarded files salts loadedAt options auth source implicit keyless
      unusable booted
    rw [bootAuth_eq_ok_of_unusable source implicit keyless unusable] at booted
    obtain ⟨development, loopback, -⟩ := registerApiKeyAuth_empty.mp booted
    rcases guarded with production | offHost | usable
    · simp [development] at production
    · simp [loopback] at offHost
    · exact absurd unusable (usable loadedAt)

/-- A tokens text fails closed exactly when each record that a secret resolves
spells its expiry, each accepted record spells its tenants, and the server
either has a record or refuses to run open. -/
theorem tokens_failClosed_iff (raw : String) (deployment : Deployment) :
    FailsClosed env scrypt raw deployment ↔
      (∀ item, TokenItem raw item →
        (∃ hashed token, Accepted env scrypt item hashed ∧
          hashed.Presented scrypt token) → ExpirySpelled item) ∧
      (∀ item, TokenItem raw item →
        (∃ hashed, Accepted env scrypt item hashed) → TenancySpelled item) ∧
      (deployment.isProduction = true ∨
        isLoopbackHost env deployment.bindHost = false ∨
        ∀ loadedAt, parseRecords env loadedAt raw ≠ []) := by
  constructor
  · intro closed
    refine ⟨?_, ?_, noOpenAdmin_iff.mp closed.boot⟩
    · exact fun item listed => expiryRespected_iff.mp (closed.expiry item listed)
    · exact fun item listed =>
        tenancyRespected_iff.mp (closed.tenancy item listed)
  · rintro ⟨expiry, tenancy, boot⟩
    constructor
    · exact fun item listed => expiryRespected_iff.mpr (expiry item listed)
    · exact fun item listed => tenancyRespected_iff.mpr (tenancy item listed)
    · exact noOpenAdmin_iff.mpr boot

theorem mem_parseRecords {loadedAt : Int} {raw : String} {record : TokenRecord}
    (member : record ∈ parseRecords env loadedAt raw) :
    ∃ item, TokenItem raw item ∧ parseRecord env loadedAt item = some record := by
  unfold parseRecords at member
  split at member
  · rename_i items parsed
    obtain ⟨item, listed, reads⟩ := List.mem_filterMap.mp member
    exact ⟨item, ⟨items, parsed, listed⟩, reads⟩
  · cases member

/-- Behind every identity that a server resolves stands an item of the text,
whose expiry lies ahead and whose tenants bind the identity. -/
theorem resolve_of_failsClosed {raw : String} {deployment : Deployment}
    (closed : FailsClosed env scrypt raw deployment)
    {files : String → Option String} {salts : Nat → List UInt8}
    {loadedAt now : Int} {options : RegistryBuildOptions}
    (source : options.tokensJson.or (readFileSafe files options.tokensFile) =
      some raw)
    (implicit : options.records = [])
    (keyless : ∀ apiKey ∈ options.apiKey, apiKey = "")
    {registry : InMemoryTokenRegistry}
    (built : buildTokenRegistry env files scrypt salts loadedAt options =
      .ok registry)
    {token : String} {identity : TokenIdentity}
    (resolved : registry.resolve scrypt now token = some identity) :
    ∃ item, TokenItem raw item ∧
      (∀ value, itemField? item "expiresAt" = some value →
        ∃ text instant, value = .string text ∧
          env.dateParse text = some instant ∧ now < instant) ∧
      ∀ value, itemField? item "tenants" = some value →
        ¬TenantsWellFormed value → identity.tenants ≠ none := by
  obtain ⟨record, inside, presented, live, rfl⟩ :=
    InMemoryTokenRegistry.resolve_eq_some resolved
  obtain ⟨loaded, member, salt, hashed, hashes, rfl⟩ :=
    InMemoryTokenRegistry.mem_build built inside
  have parsed : loaded ∈ parseRecords env loadedAt raw := by
    by_cases unusable : parseRecords env loadedAt raw = []
    · rw [loadTokenRecords_of_unusable source implicit keyless unusable]
        at member
      cases member
    · simpa [loadTokenRecords, implicit, source, unusable] using member
  obtain ⟨item, listed, reads⟩ := mem_parseRecords parsed
  have accepted : Accepted env scrypt item hashed :=
    ⟨loadedAt, loaded, salt, reads, hashes⟩
  have unrevoked : hashed.Live now := ⟨(hashRecord_eq_ok hashes).1, live.2⟩
  refine ⟨item, listed, fun value present => ?_, fun value present malformed => ?_⟩
  · exact closed.expiry item listed hashed accepted token now value presented
      unrevoked present
  · exact closed.tenancy item listed hashed accepted value present malformed

/-- A tokens array whose record writes its expiry as seconds. -/
def epochSecondsItem : Json :=
  .object
    [("token", .string "secret"), ("actor", .string "alice"),
      ("role", .string "admin"), ("expiresAt", .number "1")]

def epochSecondsText : String :=
  (Json.array [epochSecondsItem]).stringifyIndented ++ "\n"

def constantScrypt : Scrypt := fun _ _ length => List.replicate length 7

def epochSecondsHashed : HashedRecord where
  salt := [1]
  hash := List.replicate 32 7
  identity :=
    { actor := "alice"
      role := .admin
      tenants := none
      owner := false
      agent := false }
  expiresAtMs := none
  revoked := false

/-- Its record never expires. -/
theorem epochSeconds_permanent :
    ¬FailsClosed plainEnvironment constantScrypt epochSecondsText
      { isProduction := true
        bindHost := "127.0.0.1" } := by
  intro closed
  have wellFormed : (Json.array [epochSecondsItem]).WellFormed :=
    ⟨⟨trivial, trivial, trivial, ⟨by decide +kernel, by decide +kernel⟩,
      trivial⟩, trivial⟩
  have listed : TokenItem epochSecondsText epochSecondsItem :=
    ⟨_, Json.parse_stringifyIndented wellFormed, List.mem_singleton_self _⟩
  have accepted : Accepted plainEnvironment constantScrypt epochSecondsItem
      epochSecondsHashed :=
    ⟨0,
      { token := "secret"
        actor := "alice"
        role := .admin
        tenants := none
        owner := false
        agent := false
        expiresAt := none }, [1], by decide +kernel, by decide +kernel⟩
  obtain ⟨text, _, same, -⟩ := closed.expiry epochSecondsItem listed
    epochSecondsHashed accepted "secret" 2000 (.number "1") (by decide +kernel)
    (by decide +kernel) rfl
  cases same

end Registrar
