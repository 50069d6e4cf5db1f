import Registrar.Curator.SpoolIntake

/-!
# Arrivals of a spool

Which candidates of a spool become rows is decided by the store before the
ingestion and by the errors of the database.
-/

namespace Registrar

open Program

/-- The loop over a spool, foreseen from the store before it. -/
structure Arrivals where
  /-- The candidates that became rows. -/
  arrived : List MemoryCandidate
  /-- The batches that were recorded. -/
  batches : List String
  /-- The database raised an error, which ended the loop. -/
  failed : Bool
  deriving DecidableEq

def Arrivals.begin : Arrivals where
  arrived := []
  batches := []
  failed := false

/-- The choke point of the repository lets the candidate in. -/
def admitsCandidate (env : Environment) (store : Store)
    (candidate : MemoryCandidate) : Bool :=
  disclosureViolation env candidate = none &&
    !CandidateRepository.isRedactedContent env store.auditEvents
      candidate.content candidate.tenantId

section Foresight

variable (env : Environment) (faults : StoreFaults) (store : Store)

/-- After one more candidate. -/
def Arrivals.next (seen : Arrivals) (candidate : MemoryCandidate) : Arrivals :=
  if seen.failed then seen
  else if (faults candidate.id).isSome then { seen with failed := true }
  else
    match CandidateRepository.read store.candidates candidate.id with
    | .error _ => { seen with failed := true }
    | .ok (some _) => seen
    | .ok none =>
        if seen.arrived.any (·.id = candidate.id) then seen
        else if admitsCandidate env store candidate then
          { seen with arrived := seen.arrived ++ [candidate] }
        else seen

def Arrivals.knows (seen : Arrivals) (batchId : String) : Bool :=
  (store.importBatches.find? batchId).isSome || seen.batches.contains batchId

/-- After the candidates of one file, whose batch is completed if it was new. -/
def Arrivals.nextFile (options : IngestFromSpoolOptions) (seen : Arrivals)
    (file : SpoolFile) : Arrivals :=
  match file.admission options with
  | .unreadable | .tampered _ | .refused _ => seen
  | .admitted candidates none =>
      candidates.foldl (Arrivals.next env faults store) seen
  | .admitted candidates (some receipt) =>
      if seen.failed || seen.knows store receipt.batchId then
        candidates.foldl (Arrivals.next env faults store) seen
      else
        let after := candidates.foldl (Arrivals.next env faults store)
          { seen with batches := receipt.batchId :: seen.batches }
        { after with
          failed := after.failed || (faults receipt.batchId).isSome }

/-- The arrivals of a whole spool. -/
def spoolArrivals (options : IngestFromSpoolOptions) (files : List SpoolFile) :
    Arrivals :=
  files.foldl (Arrivals.nextFile env faults store options) .begin

end Foresight

variable {env : Environment} {faults : StoreFaults} {store : Store}

/-- The candidates of the store are those of the earlier one and the
arrivals. -/
structure Foreseen (store : Store) (seen : Arrivals) (current : Store) :
    Prop where
  candidates : current.candidates.rows.map CandidateRow.candidate =
    store.candidates.rows.map CandidateRow.candidate ++ seen.arrived
  auditEvents : current.auditEvents = store.auditEvents
  governancePolicies : current.governancePolicies = store.governancePolicies
  batches : ∀ id, (current.importBatches.find? id).isSome =
    seen.knows store id
  parsed : ∀ candidate ∈ seen.arrived, candidate.parse = .ok candidate

theorem Foreseen.begin (store : Store) : Foreseen store .begin store where
  candidates := by simp [Arrivals.begin]
  auditEvents := rfl
  governancePolicies := rfl
  batches := by simp [Arrivals.knows, Arrivals.begin]
  parsed := by simp [Arrivals.begin]

theorem Foreseen.fail {seen : Arrivals} {current : Store}
    (foreseen : Foreseen store seen current) (failed : Bool) :
    Foreseen store { seen with failed := failed } current :=
  ⟨foreseen.candidates, foreseen.auditEvents, foreseen.governancePolicies,
    foreseen.batches, foreseen.parsed⟩

theorem Arrivals.mem_next {seen : Arrivals} {candidate arrival : MemoryCandidate}
    (member : arrival ∈
      (Arrivals.next env faults store seen candidate).arrived) :
    arrival ∈ seen.arrived ∨ admitsCandidate env store arrival = true := by
  unfold Arrivals.next at member
  split at member
  · exact .inl member
  split at member
  · exact .inl member
  split at member
  · exact .inl member
  · exact .inl member
  · split_ifs at member with repeated passes
    · exact .inl member
    · rcases List.mem_append.mp member with earlier | new
      · exact .inl earlier
      · rw [List.mem_singleton.mp new]
        exact .inr passes
    · exact .inl member

theorem Arrivals.next_admitted {seen : Arrivals}
    (admitted : ∀ arrival ∈ seen.arrived,
      admitsCandidate env store arrival = true)
    (candidates : List MemoryCandidate) :
    ∀ arrival ∈ (candidates.foldl (Arrivals.next env faults store) seen).arrived,
      admitsCandidate env store arrival = true := by
  induction candidates generalizing seen with
  | nil => exact admitted
  | cons candidate rest induction =>
      apply induction
      intro arrival member
      rcases Arrivals.mem_next member with earlier | passes
      · exact admitted arrival earlier
      · exact passes

theorem spoolArrivals_admitted (options : IngestFromSpoolOptions)
    (files : List SpoolFile) :
    ∀ arrival ∈ (spoolArrivals env faults store options files).arrived,
      admitsCandidate env store arrival = true := by
  unfold spoolArrivals
  suffices step : ∀ seen : Arrivals,
      (∀ arrival ∈ seen.arrived, admitsCandidate env store arrival = true) →
      ∀ arrival ∈ (files.foldl (Arrivals.nextFile env faults store options)
        seen).arrived, admitsCandidate env store arrival = true by
    apply step
    intro arrival member
    cases member
  induction files with
  | nil => exact fun seen admitted => admitted
  | cons file rest induction =>
      intro seen admitted
      apply induction
      unfold Arrivals.nextFile
      cases file.admission options with
      | unreadable => exact admitted
      | tampered record => exact admitted
      | refused rejection => exact admitted
      | admitted candidates receipt =>
          cases receipt with
          | none => exact Arrivals.next_admitted admitted candidates
          | some receipt =>
              dsimp only
              split_ifs
              · exact Arrivals.next_admitted admitted candidates
              · exact @Arrivals.next_admitted env faults store
                  { seen with batches := receipt.batchId :: seen.batches }
                  admitted candidates

theorem CandidateRepository.read_eq (table : CandidateTable) (id : String) :
    CandidateRepository.read table id =
      ((table.rows.map CandidateRow.candidate).find? (·.id = id)).mapM
        MemoryCandidate.parse := by
  unfold CandidateRepository.read Table.find?
  rw [List.find?_map]
  change _ = ((table.rows.find? fun row => row.id = id).map
    CandidateRow.candidate).mapM MemoryCandidate.parse
  cases table.rows.find? (fun row => row.id = id) <;> rfl

/-- An arrival reads as it arrived; every other row as before. -/
theorem Foreseen.read {seen : Arrivals} {current : Store}
    (foreseen : Foreseen store seen current) (id : String) :
    CandidateRepository.read current.candidates id =
      match CandidateRepository.read store.candidates id with
      | .error issue => .error issue
      | .ok (some candidate) => .ok (some candidate)
      | .ok none => .ok (seen.arrived.find? (·.id = id)) := by
  rw [CandidateRepository.read_eq, CandidateRepository.read_eq,
    foreseen.candidates, List.find?_append]
  cases (store.candidates.rows.map CandidateRow.candidate).find? (·.id = id)
    with
  | some candidate =>
      cases parsed : candidate.parse <;>
        simp [Option.mapM_some, parsed, Functor.map, Except.map]
  | none =>
      cases arrival : seen.arrived.find? (·.id = id) with
      | none => rfl
      | some candidate =>
          have solid : candidate.parse = .ok candidate :=
            foreseen.parsed candidate (List.mem_of_find?_eq_some arrival)
          simp [Option.mapM_some, solid, Functor.map, Except.map, pure, Except.pure]

theorem CandidateRepository.read_eq_none {table : CandidateTable} {id : String}
    (absent : CandidateRepository.read table id = .ok none) :
    table.find? id = none := by
  unfold CandidateRepository.read at absent
  cases found : table.find? id with
  | none => rfl
  | some row =>
      rw [found] at absent
      cases parsed : row.candidate.parse <;>
        simp [Option.mapM_some, parsed, Functor.map, Except.map] at absent

/-! ## One candidate -/

theorem CandidateRepository.insert_refused {candidate : MemoryCandidate}
    {contentHash : String} {batchId : Option String} {current : Store}
    (refused : admitsCandidate env current candidate = false) :
    (∃ category, CandidateRepository.insert env candidate contentHash batchId
        current = .error (.disclosureRejected category) current) ∨
      CandidateRepository.insert env candidate contentHash batchId current =
        .error .redactedContentReingest current := by
  unfold CandidateRepository.insert CandidateRepository.assertDisclosureClean
  cases violation : disclosureViolation env candidate with
  | some category => exact .inl ⟨category, rfl⟩
  | none =>
      refine .inr ?_
      have redacted : CandidateRepository.isRedactedContent env
          current.auditEvents candidate.content candidate.tenantId = true := by
        simpa [admitsCandidate, violation] using refused
      rw [bind_apply_of_ok (pure_apply _ _),
        bind_apply_of_ok (query_apply _ _), redacted]
      rfl

theorem CandidateRepository.insert_admitted {candidate : MemoryCandidate}
    {contentHash : String} {batchId : Option String} {current : Store}
    (admitted : admitsCandidate env current candidate = true)
    (absent : current.candidates.find? candidate.id = none) :
    ∃ next,
      current.candidates.insert?
          { candidate := candidate
            contentHash := contentHash
            importBatchId := batchId } = some next ∧
        CandidateRepository.insert env candidate contentHash batchId current =
          .ok ⟨⟩ { current with candidates := next } := by
  obtain ⟨clean, kept⟩ := (Bool.and_eq_true _ _).mp admitted
  have violation : disclosureViolation env candidate = none :=
    of_decide_eq_true clean
  have unredacted : CandidateRepository.isRedactedContent env
      current.auditEvents candidate.content candidate.tenantId = false := by
    simpa using kept
  have accepted : (current.candidates.insert?
      { candidate := candidate
        contentHash := contentHash
        importBatchId := batchId }).isSome :=
    Table.insert?_isSome_iff.mpr absent
  obtain ⟨next, inserted⟩ := Option.isSome_iff_exists.mp accepted
  refine ⟨next, inserted, ?_⟩
  unfold CandidateRepository.insert CandidateRepository.assertDisclosureClean
  rw [violation, bind_apply_of_ok (pure_apply _ _),
    bind_apply_of_ok (query_apply _ _), unredacted]
  have owned : (ensure (false = false) .redactedContentReingest : StoreM PUnit)
      current = .ok ⟨⟩ current :=
    ensure_eq_ok_iff.mpr ⟨rfl, rfl⟩
  refine (bind_apply_of_ok owned).trans ?_
  simp only [inserted]

theorem insertSpooled_refused {candidate : MemoryCandidate}
    {batchId : Option String} {current : Store} (intake : FileIntake)
    (refused : admitsCandidate env current candidate = false) :
    ∃ next, next.ingested = intake.ingested ∧
      insertSpooled env candidate batchId intake current = .ok next current := by
  unfold insertSpooled
  have thrown {error : RegistrarError}
      (failed : CandidateRepository.insert env candidate
        (computeContentHash env candidate.content) batchId current =
          .error error current) :
      (do
        CandidateRepository.insert env candidate
          (computeContentHash env candidate.content) batchId
        pure { intake with ingested := intake.ingested ++ [candidate] } :
          StoreM FileIntake) current = .error error current :=
    bind_apply_of_error failed
  rcases CandidateRepository.insert_refused refused with
    ⟨category, failed⟩ | failed
  · refine ⟨_, ?_, (tryCatch_apply_of_error (thrown failed)).trans rfl⟩
    rfl
  · refine ⟨_, ?_, (tryCatch_apply_of_error (thrown failed)).trans rfl⟩
    rfl

theorem insertSpooled_admitted {candidate : MemoryCandidate}
    {batchId : Option String} {current : Store} (intake : FileIntake)
    (admitted : admitsCandidate env current candidate = true)
    (absent : current.candidates.find? candidate.id = none) :
    ∃ next,
      next.rows.map CandidateRow.candidate =
          current.candidates.rows.map CandidateRow.candidate ++ [candidate] ∧
        insertSpooled env candidate batchId intake current =
          .ok { intake with ingested := intake.ingested ++ [candidate] }
            { current with candidates := next } := by
  obtain ⟨next, inserted, ended⟩ :=
    @CandidateRepository.insert_admitted env candidate
      (computeContentHash env candidate.content) batchId current admitted absent
  refine ⟨next, ?_, ?_⟩
  · rw [Table.rows_of_insert? inserted, List.map_append]
    rfl
  · unfold insertSpooled
    exact tryCatch_apply_of_ok ((bind_apply_of_ok ended).trans rfl)

theorem CandidateRepository.findById_apply (id : String) (current : Store) :
    CandidateRepository.findById id current =
      match CandidateRepository.read current.candidates id with
      | .ok found => .ok found current
      | .error issue => .error (.schema issue) current := by
  unfold CandidateRepository.findById
  rw [bind_apply_of_ok (query_apply _ _)]
  cases CandidateRepository.read current.candidates id <;> rfl

section Candidates

variable {seen : Arrivals} {current : Store} {candidate : MemoryCandidate}

theorem Arrivals.next_failed (failed : seen.failed = true)
    (candidates : List MemoryCandidate) :
    candidates.foldl (Arrivals.next env faults store) seen = seen := by
  induction candidates with
  | nil => rfl
  | cons candidate rest induction =>
      have stays : Arrivals.next env faults store seen candidate = seen := by
        simp [Arrivals.next, failed]
      rw [List.foldl_cons, stays, induction]

/-- The loop has gone on so far, and foreseen what the file has brought beside
the earlier arrivals. -/
structure IntakeForeseen (store : Store) (earlier : List MemoryCandidate)
    (seen : Arrivals) (intake : FileIntake) (current : Store) : Prop where
  going : seen.failed = false
  ingested : seen.arrived = earlier ++ intake.ingested
  foreseen : Foreseen store seen current

/-- After the candidates, the loop has gone on or an error has ended it. -/
def CandidatesForeseen (env : Environment) (faults : StoreFaults)
    (store : Store) (earlier candidates : List MemoryCandidate)
    (seen : Arrivals) : EStateM.Result RegistrarError Store FileIntake → Prop
  | .ok intake final =>
      IntakeForeseen store earlier
        (candidates.foldl (Arrivals.next env faults store) seen) intake final
  | .error _ final =>
      (candidates.foldl (Arrivals.next env faults store) seen).failed = true ∧
        Foreseen store
          (candidates.foldl (Arrivals.next env faults store) seen) final

theorem candidatesForeseen_cons {earlier rest : List MemoryCandidate}
    (result : EStateM.Result RegistrarError Store FileIntake) :
    CandidatesForeseen env faults store earlier (candidate :: rest) seen result ↔
      CandidatesForeseen env faults store earlier rest
        (Arrivals.next env faults store seen candidate) result := by
  cases result <;> rfl

theorem Foreseen.admits (foreseen : Foreseen store seen current) :
    admitsCandidate env current candidate =
      admitsCandidate env store candidate := by
  unfold admitsCandidate
  rw [foreseen.auditEvents]

theorem Foreseen.arrive (foreseen : Foreseen store seen current)
    (parsed : candidate.parse = .ok candidate) {next : CandidateTable}
    (added : next.rows.map CandidateRow.candidate =
      current.candidates.rows.map CandidateRow.candidate ++ [candidate]) :
    Foreseen store { seen with arrived := seen.arrived ++ [candidate] }
      { current with candidates := next } where
  candidates := by
    rw [added, foreseen.candidates, List.append_assoc]
  auditEvents := foreseen.auditEvents
  governancePolicies := foreseen.governancePolicies
  batches := foreseen.batches
  parsed := by
    intro arrival member
    rcases List.mem_append.mp member with earlier | new
    · exact foreseen.parsed arrival earlier
    · rw [List.mem_singleton.mp new]
      exact parsed

variable {earlier : List MemoryCandidate} {batchId : Option String}

/-- A candidate without a row becomes one, if the choke point lets it in. -/
theorem ingestNovel_foreseen {rest : List MemoryCandidate}
    {intake : FileIntake}
    (start : IntakeForeseen store earlier seen intake current)
    (parsed : candidate.parse = .ok candidate)
    (stored : CandidateRepository.read store.candidates candidate.id = .ok none)
    (novel : seen.arrived.find? (·.id = candidate.id) = none)
    (goesOn : ∀ {after : Arrivals} {intake : FileIntake} {current : Store},
      IntakeForeseen store earlier after intake current →
        CandidatesForeseen env faults store earlier rest after
          (ingestCandidates env faults batchId rest intake current)) :
    CandidatesForeseen env faults store earlier rest
      (if admitsCandidate env store candidate then
        { seen with arrived := seen.arrived ++ [candidate] }
      else seen)
      ((do
        let intake ← insertSpooled env candidate batchId intake
        ingestCandidates env faults batchId rest intake) current) := by
  have absent : current.candidates.find? candidate.id = none := by
    apply CandidateRepository.read_eq_none
    rw [start.foreseen.read candidate.id, stored]
    exact congrArg Except.ok novel
  split_ifs with admitted
  · rw [← start.foreseen.admits] at admitted
    obtain ⟨next, added, ended⟩ :=
      @insertSpooled_admitted env candidate batchId current intake admitted
        absent
    rw [bind_apply_of_ok ended]
    apply goesOn
    refine ⟨start.going, ?_, start.foreseen.arrive parsed added⟩
    simp [start.ingested]
  · have refused : admitsCandidate env current candidate = false := by
      rw [start.foreseen.admits]
      simpa using admitted
    obtain ⟨next, same, ended⟩ :=
      @insertSpooled_refused env candidate batchId current intake refused
    rw [bind_apply_of_ok ended]
    apply goesOn
    refine ⟨start.going, ?_, start.foreseen⟩
    rw [same]
    exact start.ingested

/-- The loop does to the store what was foreseen. -/
theorem ingestCandidates_foreseen {candidates : List MemoryCandidate}
    (parsed : ∀ candidate ∈ candidates, candidate.parse = .ok candidate)
    {intake : FileIntake}
    (start : IntakeForeseen store earlier seen intake current) :
    CandidatesForeseen env faults store earlier candidates seen
      (ingestCandidates env faults batchId candidates intake current) := by
  induction candidates generalizing seen intake current with
  | nil => exact start
  | cons candidate rest induction =>
      have restParsed : ∀ later ∈ rest, later.parse = .ok later :=
        fun later member => parsed later (List.mem_cons_of_mem candidate member)
      have going : seen.failed = false := start.going
      unfold ingestCandidates
      -- The database may fail at the candidate, or at reading its row.
      have stopped {error : RegistrarError}
          (next : Arrivals.next env faults store seen candidate =
            { seen with failed := true }) :
          CandidatesForeseen env faults store earlier (candidate :: rest) seen
            (.error error current) := by
        rw [candidatesForeseen_cons, next]
        unfold CandidatesForeseen
        rw [Arrivals.next_failed rfl]
        exact ⟨rfl, start.foreseen.fail true⟩
      have skipped
          (next : Arrivals.next env faults store seen candidate = seen) :
          CandidatesForeseen env faults store earlier (candidate :: rest) seen
            (ingestCandidates env faults batchId rest
              { intake with skipped := intake.skipped + 1 } current) := by
        rw [candidatesForeseen_cons, next]
        exact induction restParsed ⟨going, start.ingested, start.foreseen⟩
      cases fault : faults candidate.id with
      | some error =>
          have raised : faultAt faults candidate.id current =
              .error error current := by
            unfold faultAt
            rw [fault]
            rfl
          rw [bind_apply_of_error raised]
          apply stopped
          simp [Arrivals.next, going, fault]
      | none =>
          have quiet : faultAt faults candidate.id current = .ok ⟨⟩ current := by
            unfold faultAt
            rw [fault]
            rfl
          rw [bind_apply_of_ok quiet]
          have looked := CandidateRepository.findById_apply candidate.id current
          rw [start.foreseen.read candidate.id] at looked
          cases stored : CandidateRepository.read store.candidates candidate.id
            with
          | error issue =>
              simp only [stored] at looked
              rw [bind_apply_of_error looked]
              apply stopped
              simp [Arrivals.next, going, fault, stored]
          | ok found =>
              cases found with
              | some row =>
                  simp only [stored] at looked
                  rw [bind_apply_of_ok looked]
                  apply skipped
                  simp [Arrivals.next, going, fault, stored]
              | none =>
                  simp only [stored] at looked
                  rw [bind_apply_of_ok looked]
                  cases arrival : seen.arrived.find? (·.id = candidate.id) with
                  | some other =>
                      apply skipped
                      have repeated :
                          seen.arrived.any (·.id = candidate.id) = true := by
                        rw [List.any_eq_true]
                        have sameId := List.find?_some arrival
                        exact ⟨other, List.mem_of_find?_eq_some arrival, sameId⟩
                      simp [Arrivals.next, going, fault, stored, repeated]
                  | none =>
                      have novel :
                          seen.arrived.any (·.id = candidate.id) = false := by
                        simpa using arrival
                      have next :
                          Arrivals.next env faults store seen candidate =
                            if admitsCandidate env store candidate then
                              { seen with arrived := seen.arrived ++ [candidate] }
                            else seen := by
                        simp [Arrivals.next, going, fault, stored, novel]
                      rw [candidatesForeseen_cons, next]
                      exact ingestNovel_foreseen start
                        (parsed candidate List.mem_cons_self) stored arrival
                        (induction restParsed)

end Candidates

/-! ## Files -/

/-- An admitted file brings the candidates that reading it yielded. -/
theorem SpoolFile.admission_parsed {file : SpoolFile}
    {options : IngestFromSpoolOptions} {candidates : List MemoryCandidate}
    {receipt : Option SpoolBatchReceipt}
    (admitted : file.admission options = .admitted candidates receipt) :
    ∀ candidate ∈ candidates, candidate.parse = .ok candidate := by
  apply file.parsed candidates
  have ofReceipted {read : List MemoryCandidate} {manifest : SpoolManifestResult}
      (entered : file.admitReceipted options read manifest =
        .admitted candidates receipt) : read = candidates := by
    unfold admitReceipted at entered
    dsimp only at entered
    split at entered
    · cases entered
    · split_ifs at entered
      · cases entered
        rfl
      · cases entered
  have ofRead {manifest : Option SpoolManifestResult}
      (entered : file.admitRead options manifest =
        .admitted candidates receipt) : file.candidates = .ok candidates := by
    unfold admitRead at entered
    cases read : file.candidates with
    | error error =>
        rw [read] at entered
        cases entered
    | ok found =>
        simp only [read] at entered
        split_ifs at entered
        · cases manifest with
          | some manifest =>
              exact congrArg Except.ok (ofReceipted entered)
          | none =>
              cases verified : file.manifest with
              | error reason =>
                  simp only [verified] at entered
                  cases entered
              | ok manifest =>
                  simp only [verified] at entered
                  exact congrArg Except.ok (ofReceipted entered)
        · cases entered
          rfl
  unfold admission at admitted
  split_ifs at admitted
  · cases verified : file.manifest with
    | error reason =>
        simp only [verified] at admitted
        cases admitted
    | ok manifest =>
        simp only [verified] at admitted
        split_ifs at admitted
        exact ofRead admitted
  · exact ofRead admitted

/-- The result lists the arrivals so far. -/
structure SpoolForeseen (store : Store) (seen : Arrivals)
    (result : IngestResult) (current : Store) : Prop where
  going : seen.failed = false
  ingested : seen.arrived = result.ingested
  foreseen : Foreseen store seen current

/-- After some files, the loop has gone on or an error has ended it. -/
def FilesForeseen (store : Store) (after : Arrivals) :
    EStateM.Result RegistrarError Store IngestResult → Prop
  | .ok result final => SpoolForeseen store after result final
  | .error _ final => after.failed = true ∧ Foreseen store after final

section Files

variable {seen : Arrivals} {current : Store} {result : IngestResult}
variable {candidates : List MemoryCandidate} {batchId : Option String}

/-- The candidates of a file, added to the result. -/
theorem ingestInto_foreseen
    (parsed : ∀ candidate ∈ candidates, candidate.parse = .ok candidate)
    (start : SpoolForeseen store seen result current) :
    FilesForeseen store
      (candidates.foldl (Arrivals.next env faults store) seen)
      ((do
        let intake ← ingestCandidates env faults batchId candidates .empty
        pure (result.add intake)) current) := by
  have begun : IntakeForeseen store result.ingested seen .empty current := by
    refine ⟨start.going, ?_, start.foreseen⟩
    rw [start.ingested]
    exact (List.append_nil _).symm
  have loop := @ingestCandidates_foreseen env faults store seen current
    result.ingested batchId candidates parsed .empty begun
  cases ended : ingestCandidates env faults batchId candidates .empty current
    with
  | ok intake final =>
      rw [ended] at loop
      rw [bind_apply_of_ok ended]
      exact ⟨loop.going, loop.ingested, loop.foreseen⟩
  | error error final =>
      rw [ended] at loop
      rw [bind_apply_of_error ended]
      exact loop

theorem ImportBatchRepository.rewrite_foreseen {id : String}
    {change : ImportBatch → ImportBatch}
    {keepsId : ∀ batch, (change batch).id = batch.id}
    (foreseen : Foreseen store seen current) :
    ∃ found next,
      ImportBatchRepository.rewrite id change keepsId current =
          .ok found next ∧
        Foreseen store seen next := by
  refine ⟨_, _, rfl, foreseen.candidates, foreseen.auditEvents,
    foreseen.governancePolicies, ?_, foreseen.parsed⟩
  intro wanted
  rw [← foreseen.batches wanted]
  dsimp only
  rw [Table.find?_updateWhere, Option.isSome_map]

theorem Foreseen.recordBatch (foreseen : Foreseen store seen current)
    {batch : ImportBatch} {next : ImportBatchTable}
    (inserted : current.importBatches.insert? batch = some next) :
    Foreseen store { seen with batches := batch.id :: seen.batches }
      { current with importBatches := next } where
  candidates := foreseen.candidates
  auditEvents := foreseen.auditEvents
  governancePolicies := foreseen.governancePolicies
  batches := by
    intro wanted
    rw [Table.find?_of_insert? inserted]
    have before := foreseen.batches wanted
    split_ifs with same
    · simp [Arrivals.knows, same]
    · have other : ¬ wanted = batch.id := fun reversed => same reversed.symm
      rw [before]
      simp [Arrivals.knows, other]
  parsed := foreseen.parsed

/-- The end of a file whose batch is new. -/
theorem closeBatch_foreseen {intake : FileIntake} {id : String}
    {counts : ImportBatchRepository.BatchCounts}
    (loop : IntakeForeseen store result.ingested seen intake current) :
    FilesForeseen store
      { seen with failed := seen.failed || (faults id).isSome }
      ((do
        faultAt faults id
        let _ ← ImportBatchRepository.updateCounts id counts
        let _ ← ImportBatchRepository.complete id
        pure (result.add intake) : StoreM IngestResult) current) := by
  cases fault : faults id with
  | some error =>
      have raised : faultAt faults id current = .error error current := by
        unfold faultAt
        rw [fault]
        rfl
      rw [bind_apply_of_error raised]
      exact ⟨by simp, loop.foreseen.fail _⟩
  | none =>
      have quiet : faultAt faults id current = .ok ⟨⟩ current := by
        unfold faultAt
        rw [fault]
        rfl
      rw [bind_apply_of_ok quiet]
      obtain ⟨found, counted, updated, foreseen⟩ :
          ∃ found next,
            ImportBatchRepository.updateCounts id counts current =
                .ok found next ∧
              Foreseen store seen next :=
        ImportBatchRepository.rewrite_foreseen loop.foreseen
      rw [bind_apply_of_ok updated]
      obtain ⟨found', closed, completed, closedForeseen⟩ :
          ∃ found next,
            ImportBatchRepository.complete id counted = .ok found next ∧
              Foreseen store seen next :=
        ImportBatchRepository.rewrite_foreseen foreseen
      rw [bind_apply_of_ok completed]
      refine ⟨?_, loop.ingested, closedForeseen.fail _⟩
      simp [loop.going]

/-- A file under a receipt: its batch is opened, and closed, if it is new. -/
theorem ingestReceipted_foreseen {file : SpoolFile}
    {receipt : SpoolBatchReceipt} {now : String}
    (parsed : ∀ candidate ∈ candidates, candidate.parse = .ok candidate)
    (start : SpoolForeseen store seen result current) :
    FilesForeseen store
      (if seen.failed || seen.knows store receipt.batchId then
        candidates.foldl (Arrivals.next env faults store) seen
      else
        let after := candidates.foldl (Arrivals.next env faults store)
          { seen with batches := receipt.batchId :: seen.batches }
        { after with
          failed := after.failed || (faults receipt.batchId).isSome })
      (ingestReceipted env file receipt candidates faults now result
        current) := by
  unfold ingestReceipted
  rw [bind_apply_of_ok (query_apply _ _)]
  have known := start.foreseen.batches receipt.batchId
  unfold ImportBatchRepository.findById
  cases found : current.importBatches.find? receipt.batchId with
  | some batch =>
      rw [found] at known
      have knows : seen.knows store receipt.batchId = true := known.symm
      simp only [knows, Bool.or_true, if_true]
      exact ingestInto_foreseen parsed start
  | none =>
      rw [found] at known
      have knows : seen.knows store receipt.batchId = false := known.symm
      have isNew :
          ¬ (seen.failed || seen.knows store receipt.batchId) = true := by
        simp [knows, start.going]
      rw [if_neg isNew]
      have accepted : (current.importBatches.insert?
          (spoolBatch file receipt now)).isSome :=
        Table.insert?_isSome_iff.mpr found
      obtain ⟨next, inserted⟩ := Option.isSome_iff_exists.mp accepted
      have opened : ImportBatchRepository.insert (spoolBatch file receipt now)
          current = .ok ⟨⟩ { current with importBatches := next } := by
        unfold ImportBatchRepository.insert
        rw [inserted]
      dsimp only
      rw [bind_apply_of_ok opened]
      have begun : IntakeForeseen store result.ingested
          { seen with batches := receipt.batchId :: seen.batches } .empty
          { current with importBatches := next } := by
        refine ⟨start.going, ?_, start.foreseen.recordBatch inserted⟩
        rw [start.ingested]
        exact (List.append_nil _).symm
      have loop := @ingestCandidates_foreseen env faults store _ _
        result.ingested (some receipt.batchId) candidates parsed .empty begun
      cases ended : ingestCandidates env faults (some receipt.batchId)
          candidates .empty { current with importBatches := next } with
      | error error final =>
          rw [ended] at loop
          rw [bind_apply_of_error ended]
          refine ⟨?_, loop.2.fail _⟩
          rw [loop.1]
          rfl
      | ok intake final =>
          rw [ended] at loop
          rw [bind_apply_of_ok ended]
          exact closeBatch_foreseen loop

theorem ingestFile_foreseen {options : IngestFromSpoolOptions} {now : String}
    {file : SpoolFile} (start : SpoolForeseen store seen result current) :
    FilesForeseen store (Arrivals.nextFile env faults store options seen file)
      (ingestFile env options faults now file result current) := by
  unfold ingestFile Arrivals.nextFile
  cases admission : file.admission options with
  | unreadable => exact start
  | tampered record => exact ⟨start.going, start.ingested, start.foreseen⟩
  | refused rejection => exact ⟨start.going, start.ingested, start.foreseen⟩
  | admitted candidates receipt =>
      have parsed := SpoolFile.admission_parsed admission
      cases receipt with
      | none => exact ingestInto_foreseen parsed start
      | some receipt => exact ingestReceipted_foreseen parsed start

theorem Arrivals.nextFile_failed {options : IngestFromSpoolOptions}
    (failed : seen.failed = true) (files : List SpoolFile) :
    files.foldl (Arrivals.nextFile env faults store options) seen = seen := by
  induction files with
  | nil => rfl
  | cons file rest induction =>
      have stays :
          Arrivals.nextFile env faults store options seen file = seen := by
        unfold Arrivals.nextFile
        cases file.admission options with
        | unreadable => rfl
        | tampered record => rfl
        | refused rejection => rfl
        | admitted candidates receipt =>
            cases receipt with
            | none => exact Arrivals.next_failed failed candidates
            | some receipt =>
                simp only [failed, Bool.true_or, if_true]
                exact Arrivals.next_failed failed candidates
      rw [List.foldl_cons, stays, induction]

/-- The spool files in their order. -/
theorem ingestFiles_foreseen {options : IngestFromSpoolOptions} {now : String}
    (files : List SpoolFile)
    (start : SpoolForeseen store seen result current) :
    FilesForeseen store
      (files.foldl (Arrivals.nextFile env faults store options) seen)
      (ingestFiles env options faults now files result current) := by
  induction files generalizing seen result current with
  | nil => exact start
  | cons file rest induction =>
      have step := @ingestFile_foreseen env faults store seen current result
        options now file start
      unfold ingestFiles
      rw [List.foldl_cons]
      cases ended : ingestFile env options faults now file result current with
      | ok after final =>
          rw [ended] at step
          rw [bind_apply_of_ok ended]
          exact induction step
      | error error final =>
          rw [ended] at step
          rw [bind_apply_of_error ended]
          unfold FilesForeseen
          rw [Arrivals.nextFile_failed step.1]
          exact step

end Files

theorem ingestFromSpoolDetailed_foreseen {options : IngestFromSpoolOptions}
    {now : String} (files : List SpoolFile) :
    FilesForeseen store (spoolArrivals env faults store options files)
      (ingestFiles env options faults now files .empty store) := by
  apply ingestFiles_foreseen
  exact ⟨rfl, rfl, Foreseen.begin store⟩

end Registrar
