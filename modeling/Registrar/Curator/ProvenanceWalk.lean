import Registrar.Curator.RedactionTrail
import Registrar.Curator.VaultFiles

/-!
# The provenance walk

The walk of one memory goes from its row over its id, its receipt and its
candidate to the spool file and the compile trace that it came from.  An absent
artifact is unverifiable; one that disagrees fails its link.
-/

namespace Registrar

open AuditRepository (RedactionReceipt)

inductive LinkStatus where
  | pass
  | fail
  | unverifiable
  deriving DecidableEq, Repr

inductive LinkName where
  | memoryRow
  | memoryIdDerivation
  | promotionReceipt
  | candidateRow
  | candidateIdDerivation
  | spoolManifest
  | compileTrace
  deriving DecidableEq, Repr

structure LinkVerdict where
  status : LinkStatus
  evidence : String
  deriving DecidableEq, Repr

structure WalkLink extends LinkVerdict where
  link : LinkName
  deriving DecidableEq, Repr

def LinkName.verdict (link : LinkName) (status : LinkStatus)
    (evidence : String) : WalkLink where
  link := link
  status := status
  evidence := evidence

structure WalkResult where
  memoryId : String
  links : List WalkLink
  passCount : Nat
  failCount : Nat
  unverifiableCount : Nat
  exitCode : Nat
  deriving DecidableEq, Repr

def finalizeWalk (memoryId : String) (links : List WalkLink) : WalkResult :=
  let count (status : LinkStatus) : Nat := links.countP (·.status = status)
  { memoryId := memoryId
    links := links
    passCount := count .pass
    failCount := count .fail
    unverifiableCount := count .unverifiable
    exitCode :=
      if 0 < count .fail then 1 else if 0 < count .unverifiable then 3 else 0 }

/-- A manifest beside a spool file; what a malformed one lists is nothing. -/
structure SpoolSidecar where
  path : String
  candidateIds : Option (List String)
  spoolFileSha256 : Option String
  spoolFile : Option String
  deriving DecidableEq, Repr

/-- One event of the compile traces. -/
structure TraceEvent where
  file : String
  eventType : String
  eventId : String
  timestamp : String
  prevHash : Option String
  outputPath : Option String
  deriving DecidableEq, Repr

/-- What the walk reads besides the store; a brain root that does not exist has
no traces. -/
structure WalkOptions where
  cwd : String
  brainDir : String
  spoolDirs : List String
  sidecars : List SpoolSidecar
  traces : Option (List TraceEvent)

/-- The workspace that the ids of candidates were derived in. -/
def WalkOptions.workspaceId (opts : WalkOptions) : String :=
  basename (resolvePath opts.cwd opts.brainDir)

variable (env : Environment)

/-- The content still has the stored hash, and the id is derived from it or from
the hash before the first redaction. -/
def memoryIdDerivationLink (log : AuditLog) (memory : CuratedMemory) :
    LinkVerdict :=
  let recomputedHash := computeContentHash env memory.content.value
  let derivedMemoryId := deriveMemoryId env memory.candidateId memory.contentHash
  if recomputedHash ≠ memory.contentHash then
    { status := .fail
      evidence :=
        "stored content no longer hashes to content_hash (expected " ++
          memory.contentHash ++ ", got " ++ recomputedHash ++
          ") — the durable row was modified after promotion" }
  else if derivedMemoryId = memory.id then
    { status := .pass
      evidence :=
        "id == uuidv5(\"memory\", candidate_id, content_hash) == " ++
          derivedMemoryId ++ "; content re-hashes to content_hash" }
  else
    match readRedactionTrail log memory.id memory.contentHash with
    | none =>
        { status := .fail
          evidence :=
            "id " ++ memory.id ++ " != derived " ++ derivedMemoryId ++
              " — the id is not a pure function of this candidate lineage " ++
              "(pre-derivation legacy row, or the lineage was altered)" }
    | some trail =>
        let count := toString trail.receiptIds.length
        if trail.consistent = true ∧
            deriveMemoryId env memory.candidateId trail.originalHash =
              memory.id then
          { status := .pass
            evidence :=
              "id == uuidv5(\"memory\", candidate_id, pre-redaction " ++
                "content_hash) — the content was governed-redacted " ++ count ++
                " time(s); 'redacted' receipt(s) " ++
                joinComma trail.receiptIds ++ " record the hash history " ++
                "ending at the current content_hash; content re-hashes to " ++
                "content_hash" }
        else
          { status := .fail
            evidence :=
              "id " ++ memory.id ++ " does not derive from the current " ++
                "content_hash, and its " ++ count ++ " 'redacted' " ++
                "receipt(s) do not account for it (hash history " ++
                (if trail.consistent then
                  "is consistent but its starting hash does not derive this id"
                else "does not end at the current content_hash") ++
                ") — the row was changed outside a governed redaction" }

/-- The id is derived from the stored content, or from what it was before the
first redaction of the copy. -/
def candidateIdDerivationLink (log : AuditLog) (row : CandidateRow)
    (workspaceId relPath : String) : LinkVerdict :=
  let bodySha256 := computeContentHash env row.candidate.content
  let derivedCandidateId := deriveCandidateId env workspaceId relPath bodySha256
  let derivedFrom (hash : String) : String :=
    "candidate_id == uuidv5(workspaceId=\"" ++ workspaceId ++ "\", relPath=\"" ++
      relPath ++ "\", " ++ hash ++ ")"
  let trail := readRedactionTrail log row.id bodySha256
  if derivedCandidateId = row.id then
    { status := .pass
      evidence := derivedFrom "sha256(content)" ++ " == " ++ derivedCandidateId }
  else
    match trail.filter fun trail => trail.consistent = true ∧
        deriveCandidateId env workspaceId relPath trail.originalHash =
          row.id with
    | some trail =>
        { status := .pass
          evidence :=
            derivedFrom "pre-redaction sha256(content)" ++ " — the candidate " ++
              "copy was governed-redacted; 'redacted' receipt(s) " ++
              joinComma trail.receiptIds ++ " record the hash history" }
    | none =>
        { status := .fail
          evidence :=
            "candidate_id " ++ row.id ++ " != derived " ++ derivedCandidateId ++
              " (workspaceId=\"" ++ workspaceId ++ "\", relPath=\"" ++ relPath ++
              "\") — stored candidate content does not address to this id" }

/-- The first receipt of an insertion by the promoter. -/
def promotionReceipt (log : AuditLog) (memoryId : String) :
    Option AuditEvent :=
  (AuditRepository.findByMemory log memoryId).find? (·.action = .promoted)

def promotionReceiptLink (log : AuditLog) (memoryId : String) : WalkLink :=
  match promotionReceipt log memoryId with
  | none =>
      LinkName.promotionReceipt.verdict .fail
        ("no 'promoted' audit_events receipt for this memory — the signature " ++
          "of an insert that bypassed the promoter (see " ++
          "verify-corpus-accounting)")
  | some receipt =>
      LinkName.promotionReceipt.verdict .pass
        ("'promoted' receipt " ++ receipt.id ++ " at " ++ receipt.timestamp ++
          " on the audit_events hash chain (verify the whole chain with " ++
          "verify-audit-chain)")

/-- The path that the spool stamped into the metadata. -/
def CandidateRow.relPath? (row : CandidateRow) : Option String :=
  if row.candidate.source = .import_ then row.candidate.metadata.filePaths.head?
  else none

def candidateIdLink (log : AuditLog) (opts : WalkOptions)
    (row : CandidateRow) : WalkLink :=
  match row.relPath? with
  | none =>
      LinkName.candidateIdDerivation.verdict .unverifiable
        ("candidate source is '" ++ row.candidate.source.text ++ "' with no " ++
          "compile-side filePath — not a spool-derived candidate; its id is " ++
          "not content-addressed by design")
  | some relPath =>
      { candidateIdDerivationLink env log row opts.workspaceId relPath with
        link := .candidateIdDerivation }

/-- The manifest that lists the candidate, and the spool file beside it. -/
def spoolManifestLink (opts : WalkOptions) (row : CandidateRow) : WalkLink :=
  let dirs := joinComma opts.spoolDirs
  if row.relPath? = none then
    LinkName.spoolManifest.verdict .unverifiable
      "not a spool-derived candidate — no spool manifest exists by design"
  else if opts.sidecars = [] then
    LinkName.spoolManifest.verdict .unverifiable
      ("no *.manifest.json sidecars found under: " ++ dirs ++ " — spool " ++
        "artifacts absent (rotated, or not present on this host)")
  else
    match opts.sidecars.find? fun sidecar =>
        sidecar.candidateIds.any (·.contains row.id) with
    | none =>
        LinkName.spoolManifest.verdict .fail
          ("scanned " ++ toString opts.sidecars.length ++ " manifest " ++
            "sidecar(s) under " ++ dirs ++ " — none lists candidate " ++
            row.id ++ "; the spool bridge for this candidate is broken")
    | some sidecar =>
        let listed := "manifest " ++ sidecar.path ++ " lists candidate " ++
          row.id ++ "; "
        match sidecar.spoolFile, sidecar.spoolFileSha256 with
        | some file, some pinned =>
            let actual := computeContentHash env file
            if actual = pinned then
              LinkName.spoolManifest.verdict .pass
                (listed ++ "spool file present and hashes to the pinned " ++
                  "SHA-256 (" ++ String.ofList (actual.toList.take 12) ++ "…)")
            else
              LinkName.spoolManifest.verdict .fail
                (listed ++ "spool file present but hashes to " ++ actual ++
                  ", manifest pins " ++ pinned ++
                  " — file modified after emit")
        | _, _ =>
            LinkName.spoolManifest.verdict .pass
              (listed ++ "spool file no longer present (archived/rotated) — " ++
                "manifest entry stands")

/-- The trace that a compile pass left of the source of the candidate. -/
def compileTraceLink (opts : WalkOptions) (row : CandidateRow) : WalkLink :=
  match row.relPath?, opts.traces with
  | none, _ =>
      LinkName.compileTrace.verdict .unverifiable
        "not a spool-derived candidate — there is no ICO compile trace to look for"
  | some _, none =>
      LinkName.compileTrace.verdict .unverifiable
        ("brain root " ++ opts.brainDir ++ " does not exist on this host — " ++
          "compile-side evidence unavailable (expected e.g. on CI)")
  | some relPath, some traces =>
      match traces.find? (·.outputPath = some relPath) with
      | none =>
          LinkName.compileTrace.verdict .unverifiable
            ("no trace event with outputPath=\"" ++ relPath ++ "\" — traces " ++
              "absent or rotated past this compile (absence of evidence, not " ++
              "contradiction)")
      | some event =>
          LinkName.compileTrace.verdict .pass
            ("trace event " ++ event.eventId ++ " (" ++ event.eventType ++
              ") at " ++ event.timestamp ++ " in " ++ event.file ++
              (if event.prevHash.isSome then ", hash-chained via prev_hash"
              else " (chain head: prev_hash null)"))

/-- The links from the candidate on; without its row the walk ends. -/
def candidateLinks (store : Store) (opts : WalkOptions) (candidateId : String) :
    List WalkLink :=
  match store.candidates.find? candidateId with
  | none =>
      [LinkName.candidateRow.verdict .fail
        ("no candidates row with id " ++ candidateId)]
  | some row =>
      [LinkName.candidateRow.verdict .pass
          ("candidates row found (id=" ++ row.id ++ ", source=" ++
            row.candidate.source.text ++ ")"),
        candidateIdLink env store.auditEvents opts row,
        spoolManifestLink env opts row, compileTraceLink opts row]

def walkProvenance (store : Store) (memoryId : String) (opts : WalkOptions) :
    WalkResult :=
  finalizeWalk memoryId <|
    match store.curatedMemories.find? memoryId with
    | none =>
        [LinkName.memoryRow.verdict .fail
          ("no curated_memories row with id " ++ memoryId)]
    | some memory =>
        [LinkName.memoryRow.verdict .pass
            ("curated_memories row found (tenant=" ++ memory.tenantId.value ++
              ", source=" ++ memory.source.text ++ ", promoted_at=" ++
              memory.promotedAt ++ ")"),
          { memoryIdDerivationLink env store.auditEvents memory with
            link := .memoryIdDerivation },
          promotionReceiptLink store.auditEvents memoryId] ++
          candidateLinks env store opts memory.candidateId

end Registrar
