import Registrar.Store.ImportBatches

/-!
# Spool intake

The candidates of a spool directory become rows of the store.  A file with a
batch receipt is admitted as a whole, under the batch it names.
-/

namespace Registrar

open Program

/-- The errors that the database raises at a step, keyed by the record at which
it raises them. -/
abbrev StoreFaults := String → Option RegistrarError

/-- Fail here, if the database does. -/
def faultAt (faults : StoreFaults) (point : String) : StoreM PUnit :=
  match faults point with
  | none => pure ⟨⟩
  | some error => throw error

structure SpoolBatchReceipt where
  batchId : String
  tenantId : String
  source : MemorySource
  trustLevel : TrustLevel
  candidateCount : Nat
  maxCandidates : Nat
  deriving DecidableEq

inductive SpoolManifestStatus where
  | verified
  | noManifest
  | tampered
  deriving DecidableEq, Repr

structure SpoolManifestResult where
  status : SpoolManifestStatus
  expected : Option String
  actual : Option String
  candidateIds : Option (List String)
  batchReceipt : Option SpoolBatchReceipt
  deriving DecidableEq

/-- A file of the spool: how its manifest verifies, and the candidates that
reading it yields. -/
structure SpoolFile where
  path : String
  manifest : Except String SpoolManifestResult
  candidates : Except String (List MemoryCandidate)
  /-- Reading keeps the lines that the candidate schema accepts. -/
  parsed : ∀ read, candidates = .ok read → ∀ candidate ∈ read,
    candidate.parse = .ok candidate

structure IngestFromSpoolOptions where
  verifyManifest : Bool
  /-- The caller supplies the ledger of batches. -/
  importBatchRepo : Bool
  deriving DecidableEq

structure SpoolTamperRecord where
  spoolFile : String
  expectedSha256 : Option String
  actualSha256 : Option String
  deriving DecidableEq

structure SpoolDisclosureRejection where
  candidateId : String
  category : DisclosureCategory
  deriving DecidableEq

structure SpoolAdmissionRejection where
  spoolFile : String
  reason : String
  batchId : Option String
  deriving DecidableEq

structure IngestResult where
  ingested : List MemoryCandidate
  tampered : List SpoolTamperRecord
  rejected : List SpoolDisclosureRejection
  admissionRejected : List SpoolAdmissionRejection
  deriving DecidableEq

def IngestResult.empty : IngestResult where
  ingested := []
  tampered := []
  rejected := []
  admissionRejected := []

def defaultBroadImportCandidateLimit : Nat := 100

def requiresBatchReceipt (candidates : List MemoryCandidate)
    (manifest : Option SpoolManifestResult) : Bool :=
  (manifest.bind SpoolManifestResult.batchReceipt).isSome ||
    candidates.any (·.source = .bulkImport) ||
    defaultBroadImportCandidateLimit < candidates.length

/-- What is wrong with a candidate under the receipt, if anything. -/
def receiptMismatch (receipt : SpoolBatchReceipt)
    (candidate : MemoryCandidate) : Option String :=
  if candidate.tenantId ≠ receipt.tenantId then
    some ("candidate " ++ candidate.id ++
      " tenantId does not match batchReceipt tenantId")
  else if candidate.source ≠ receipt.source then
    some ("candidate " ++ candidate.id ++
      " source does not match batchReceipt source")
  else if candidate.trustLevel ≠ receipt.trustLevel then
    some ("candidate " ++ candidate.id ++
      " trustLevel does not match batchReceipt trustLevel")
  else none

/-- The ids of the manifest are those of the candidates. -/
def pinsCandidates (candidateIds : List String)
    (candidates : List MemoryCandidate) : Bool :=
  candidateIds.eraseDups.length = candidates.length &&
    candidates.all fun candidate => candidateIds.contains candidate.id

def validateBatchReceipt (receipt : Option SpoolBatchReceipt)
    (manifest : SpoolManifestResult) (candidates : List MemoryCandidate) :
    Option String :=
  match receipt with
  | none => some "missing batchReceipt in the spool manifest"
  | some receipt =>
      if manifest.status ≠ .verified then
        some "batchReceipt requires a manifest whose spool-file hash verifies"
      else if receipt.candidateCount ≠ candidates.length then
        some ("batchReceipt candidateCount=" ++
          toString receipt.candidateCount ++
          " does not match parsed candidate count=" ++
          toString candidates.length)
      else if receipt.maxCandidates < receipt.candidateCount then
        some ("batchReceipt candidateCount=" ++
          toString receipt.candidateCount ++ " exceeds maxCandidates=" ++
          toString receipt.maxCandidates)
      else
        match manifest.candidateIds.filter
            (·.length = candidates.length) with
        | none =>
            some ("batchReceipt requires manifest candidateIds for every " ++
              "parsed candidate")
        | some candidateIds =>
            if !pinsCandidates candidateIds candidates then
              some ("manifest candidateIds do not match the parsed candidate " ++
                "IDs")
            else
              match candidates.findSome? (receiptMismatch receipt) with
              | some mismatch => some mismatch
              | none =>
                  if receipt.source = .bulkImport ∧
                      receipt.trustLevel ≠ .low ∧
                      receipt.trustLevel ≠ .untrusted then
                    some ("bulk_import batchReceipt must use trustLevel " ++
                      "'low' or 'untrusted'")
                  else none

inductive SpoolAdmission where
  | admitted (candidates : List MemoryCandidate)
      (receipt : Option SpoolBatchReceipt)
  | unreadable
  | tampered (record : SpoolTamperRecord)
  | refused (rejection : SpoolAdmissionRejection)
  deriving DecidableEq

namespace SpoolFile

variable (file : SpoolFile)

def refusedBecause (reason : String) (batchId : Option String) :
    SpoolAdmission :=
  .refused
    { spoolFile := file.path
      reason := reason
      batchId := batchId }

/-- A broad or bulk file needs a receipt that checks, and a ledger. -/
def admitReceipted (options : IngestFromSpoolOptions)
    (candidates : List MemoryCandidate) (manifest : SpoolManifestResult) :
    SpoolAdmission :=
  let batchId := manifest.batchReceipt.map SpoolBatchReceipt.batchId
  match validateBatchReceipt manifest.batchReceipt manifest candidates with
  | some receiptError => file.refusedBecause receiptError batchId
  | none =>
      if options.importBatchRepo then
        .admitted candidates manifest.batchReceipt
      else
        file.refusedBecause ("durable import batch repository is required " ++
          "for broad/bulk admission") batchId

/-- A file whose manifest, if it was verified, was not tampered with. -/
def admitRead (options : IngestFromSpoolOptions)
    (manifest : Option SpoolManifestResult) : SpoolAdmission :=
  match file.candidates with
  | .error _ => .unreadable
  | .ok candidates =>
      if requiresBatchReceipt candidates manifest then
        match manifest with
        | some manifest => file.admitReceipted options candidates manifest
        | none =>
            match file.manifest with
            | .error reason => file.refusedBecause reason none
            | .ok manifest => file.admitReceipted options candidates manifest
      else .admitted candidates none

def admission (options : IngestFromSpoolOptions) : SpoolAdmission :=
  if options.verifyManifest then
    match file.manifest with
    | .error reason => file.refusedBecause reason none
    | .ok manifest =>
        if manifest.status = .tampered then
          .tampered
            { spoolFile := file.path
              expectedSha256 := manifest.expected
              actualSha256 := manifest.actual }
        else file.admitRead options (some manifest)
  else file.admitRead options none

end SpoolFile

variable (env : Environment)

/-- What became of the candidates of one file. -/
structure FileIntake where
  ingested : List MemoryCandidate
  rejected : List SpoolDisclosureRejection
  skipped : Nat
  deriving DecidableEq

/-- What the choke point of the repository does to one candidate. -/
def insertSpooled (candidate : MemoryCandidate) (batchId : Option String)
    (intake : FileIntake) : StoreM FileIntake :=
  tryCatch
    (do
      CandidateRepository.insert env candidate
        (computeContentHash env candidate.content) batchId
      pure { intake with ingested := intake.ingested ++ [candidate] })
    fun error =>
      let refused (category : DisclosureCategory) : FileIntake :=
        { intake with
          rejected := intake.rejected ++
            [{ candidateId := candidate.id
               category := category }] }
      match error with
      | .disclosureRejected category => pure (refused category)
      | .redactedContentReingest => pure (refused .secret)
      | error => throw error

/-- The loop over the candidates of a file; an id that is stored already is
skipped. -/
def ingestCandidates (faults : StoreFaults) (batchId : Option String) :
    List MemoryCandidate → FileIntake → StoreM FileIntake
  | [], intake => pure intake
  | candidate :: rest, intake => do
      faultAt faults candidate.id
      let existing ← CandidateRepository.findById candidate.id
      match existing with
      | some _ =>
          ingestCandidates faults batchId rest
            { intake with skipped := intake.skipped + 1 }
      | none =>
          let intake ← insertSpooled env candidate batchId intake
          ingestCandidates faults batchId rest intake

def FileIntake.empty : FileIntake where
  ingested := []
  rejected := []
  skipped := 0

def spoolBatch (file : SpoolFile) (receipt : SpoolBatchReceipt)
    (now : String) : ImportBatch where
  id := receipt.batchId
  tenantId := receipt.tenantId
  sourcePath := some file.path
  fileCount := 1
  createdCount := 0
  rejectedCount := 0
  skippedCount := 0
  status := .active
  createdAt := now
  rolledBackAt := none

def IngestResult.add (result : IngestResult) (intake : FileIntake) :
    IngestResult :=
  { result with
    ingested := result.ingested ++ intake.ingested
    rejected := result.rejected ++ intake.rejected }

/-- A file under a receipt: its batch is recorded before its candidates and
completed after them, unless the batch is known already. -/
def ingestReceipted (file : SpoolFile) (receipt : SpoolBatchReceipt)
    (candidates : List MemoryCandidate) (faults : StoreFaults) (now : String)
    (result : IngestResult) : StoreM IngestResult := do
  let existingBatch ← query fun store : Store =>
    ImportBatchRepository.findById store.importBatches receipt.batchId
  match existingBatch with
  | some _ =>
      let intake ← ingestCandidates env faults (some receipt.batchId)
        candidates .empty
      pure (result.add intake)
  | none =>
      ImportBatchRepository.insert (spoolBatch file receipt now)
      let intake ← ingestCandidates env faults (some receipt.batchId)
        candidates .empty
      faultAt faults receipt.batchId
      let _ ← ImportBatchRepository.updateCounts receipt.batchId
        { fileCount := 1
          createdCount := intake.ingested.length
          rejectedCount := intake.rejected.length
          skippedCount := intake.skipped }
      let _ ← ImportBatchRepository.complete receipt.batchId
      pure (result.add intake)

def ingestFile (options : IngestFromSpoolOptions) (faults : StoreFaults)
    (now : String) (file : SpoolFile) (result : IngestResult) :
    StoreM IngestResult :=
  match file.admission options with
  | .unreadable => pure result
  | .tampered record =>
      pure { result with tampered := result.tampered ++ [record] }
  | .refused rejection =>
      pure { result with
             admissionRejected := result.admissionRejected ++ [rejection] }
  | .admitted candidates none => do
      let intake ← ingestCandidates env faults none candidates .empty
      pure (result.add intake)
  | .admitted candidates (some receipt) =>
      ingestReceipted env file receipt candidates faults now result

def ingestFiles (options : IngestFromSpoolOptions) (faults : StoreFaults)
    (now : String) : List SpoolFile → IngestResult → StoreM IngestResult
  | [], result => pure result
  | file :: rest, result => do
      let result ← ingestFile env options faults now file result
      ingestFiles options faults now rest result

/-- The whole spool, or the error that its directory cannot be listed with. -/
def ingestFromSpoolDetailed (spool : Except String (List SpoolFile))
    (options : IngestFromSpoolOptions) (faults : StoreFaults) (now : String) :
    StoreM (Except String IngestResult) :=
  match spool with
  | .error error => pure (.error error)
  | .ok files => do
      let result ← ingestFiles env options faults now files .empty
      pure (.ok result)

end Registrar
