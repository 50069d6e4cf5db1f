import Registrar.Curator.HoldSteps
import Registrar.Library.Stages
import Registrar.Runs.Mergeable

/-!
# Holds under concurrent writers

A placement checks and writes in one transaction.  A resolution reads the hold,
then the candidate, and writes in a transaction of its own; a sweep reads the
expired holds of a tenant and closes them one after another.  Between two of
these stages any other operation may move.
-/

namespace Registrar

open Program Stages Transition

inductive HoldRequest where
  | place (candidate : MemoryCandidate) (decision : HoldDecision)
      (limits : HoldLimits) (triggeredBy : Option Author) (dryRun : Bool)
      (now : String)
  | resolve (input : ResolveHoldInput) (options : ResolveHoldOptions)
      (draw : Draw)
  | expire (tenantId : String) (dryRun : Bool) (now : String)

inductive HoldStage where
  /-- Nothing was read yet. -/
  | start (request : HoldRequest)
  /-- The resolver has read the open hold. -/
  | settle (input : ResolveHoldInput) (options : ResolveHoldOptions)
      (hold : ActiveHold) (actor : Author) (role : ReaderRole)
      (verdict : HoldVerdict) (draw : Draw)
  /-- The release has read the candidate. -/
  | release (input : ResolveHoldInput) (options : ResolveHoldOptions)
      (hold : ActiveHold) (released : MemoryCandidate) (audience : Audience)
      (actor : Author) (role : ReaderRole) (draw : Draw)
  /-- The sweep has these holds left to close. -/
  | close (dryRun : Bool) (now : String) (holds : List ActiveHold)

variable (env : Environment)

/-- The whole operation, with nothing in between. -/
def HoldRequest.alone (store : Store) : HoldRequest → Store
  | .place candidate decision limits triggeredBy dryRun now =>
      finalState
        (placeHold env candidate decision limits triggeredBy dryRun now) store
  | .resolve input options draw =>
      finalState (resolveHold env input options draw) store
  | .expire tenantId dryRun now =>
      finalState (expireHolds env tenantId dryRun now) store

/-- The stage after the resolver has looked for the hold. -/
def settleStage (input : ResolveHoldInput) (options : ResolveHoldOptions)
    (draw : Draw) (store : Store) : Option HoldStage :=
  match checkResolver input with
  | .error _ => none
  | .ok (actor, role, verdict) =>
      (findActiveHold env store input.candidateId input.tenantId draw.now).map
        fun hold => .settle input options hold actor role verdict draw

/-- The stage after the release has read the candidate. -/
def releaseStage (input : ResolveHoldInput) (options : ResolveHoldOptions)
    (hold : ActiveHold) (actor : Author) (role : ReaderRole) (draw : Draw)
    (store : Store) : Option HoldStage :=
  match chosenAudience input hold,
      CandidateRepository.read store.candidates input.candidateId with
  | .ok audience, .ok (some stored) =>
      match (stored.withAudience audience).parse with
      | .error _ => none
      | .ok released =>
          if (disclosureViolation env released).isSome then none
          else
            some (.release input options hold released audience actor role draw)
  | _, _ => none

/-- The release, in a transaction unless it is a dry run. -/
def releaseProgram (input : ResolveHoldInput) (options : ResolveHoldOptions)
    (hold : ActiveHold) (released : MemoryCandidate) (audience : Audience)
    (actor : Author) (role : ReaderRole) (draw : Draw) :
    StoreM ResolveHoldResult :=
  let release :=
    runRelease env input options hold released audience actor role draw
  if input.dryRun then release else transaction release

def advanceHold (store : Store) : HoldStage → Store × Option HoldStage
  | .start (.place candidate decision limits triggeredBy dryRun now) =>
      (finalState
        (placeHold env candidate decision limits triggeredBy dryRun now) store,
        none)
  | .start (.resolve input options draw) =>
      (store, settleStage env input options draw store)
  | .start (.expire tenantId dryRun now) =>
      (store, some (.close dryRun now
        ((listActiveHolds env store tenantId now).filter (·.expired))))
  | .settle input options hold actor role verdict draw =>
      if !isAudienceVisibleToRole (some hold.declaredAudience) role then
        (store, none)
      else if hold.expired then
        (finalState (closeExpiredHold env input hold draw.now) store, none)
      else
        match verdict with
        | .reject =>
            (finalState (rejectHeld env input hold actor role draw.now) store,
              none)
        | .release =>
            (store, releaseStage env input options hold actor role draw store)
  | .release input options hold released audience actor role draw =>
      (finalState (releaseProgram env input options hold released audience
        actor role draw) store, none)
  | .close _ _ [] => (store, none)
  | .close dryRun now (hold :: rest) =>
      match closeExpired env dryRun now hold store with
      | .ok _ next => (next, some (.close dryRun now rest))
      | .error _ next => (next, none)

def holdSystem : System Store HoldRequest HoldStage where
  start request _ := some (.start request)
  advance stage store := advanceHold env store stage

variable {env}

/-- Closing the holds one after another is the loop of the sweep. -/
theorem close_completes (dryRun : Bool) (now : String)
    (holds : List ActiveHold) (store : Store) :
    (holdSystem env).Completes (.close dryRun now holds) store
      (finalState (holds.mapM (closeExpired env dryRun now)) store) := by
  induction holds generalizing store with
  | nil => exact .done rfl
  | cons hold rest induction =>
      rw [List.mapM_cons]
      cases closed : closeExpired env dryRun now hold store with
      | ok expired next =>
          have moved : (holdSystem env).advance
              (.close dryRun now (hold :: rest)) store =
                (next, some (.close dryRun now rest)) := by
            change advanceHold env store (.close dryRun now (hold :: rest)) = _
            simp only [advanceHold, closed]
          apply System.Completes.next moved
          have ends := induction next
          unfold finalState at ends ⊢
          rw [bind_apply_of_ok closed]
          cases others : rest.mapM (closeExpired env dryRun now) next with
          | ok results final =>
              rw [others] at ends
              rw [bind_apply_of_ok others]
              exact ends
          | error error final =>
              rw [others] at ends
              rw [bind_apply_of_error others]
              exact ends
      | error error next =>
          apply System.Completes.done
          change advanceHold env store (.close dryRun now (hold :: rest)) = _
          unfold finalState
          rw [bind_apply_of_error closed]
          simp only [advanceHold, closed]

theorem completes_of_done {stage : HoldStage} {store final : Store}
    (ended : advanceHold env store stage = (final, none)) :
    (holdSystem env).Completes stage store final :=
  .done ended

theorem completes_of_next {stage following : HoldStage}
    {store middle final : Store}
    (moved : advanceHold env store stage = (middle, some following))
    (rest : (holdSystem env).Completes following middle final) :
    (holdSystem env).Completes stage store final :=
  .next moved rest

/-- The release of a hold that was read. -/
theorem release_completes {input : ResolveHoldInput}
    {options : ResolveHoldOptions} {hold : ActiveHold} {actor : Author}
    {role : ReaderRole} {draw : Draw} {store : Store}
    (visible :
      isAudienceVisibleToRole (some hold.declaredAudience) role = true)
    (unexpired : hold.expired = false) :
    (holdSystem env).Completes
      (.settle input options hold actor role .release draw) store
      (finalState (releaseHeld env input options hold actor role draw)
        store) := by
  have moved : advanceHold env store
      (.settle input options hold actor role .release draw) =
        (store, releaseStage env input options hold actor role draw store) := by
    simp [advanceHold, visible, unexpired]
  cases chosen : chosenAudience input hold with
  | error result =>
      apply completes_of_done
      rw [moved]
      simp [releaseStage, releaseHeld, chosen, finalState]
  | ok audience =>
      have ends (stored : Option MemoryCandidate)
          (found : CandidateRepository.read store.candidates
            input.candidateId = .ok stored) :
          CandidateRepository.findById input.candidateId store =
            .ok stored store := by
        unfold CandidateRepository.findById
        rw [bind_apply_of_ok (query_apply _ _), found]
        rfl
      cases read : CandidateRepository.read store.candidates
          input.candidateId with
      | error issue =>
          have fails : CandidateRepository.findById input.candidateId store =
              .error (.schema issue) store := by
            unfold CandidateRepository.findById
            rw [bind_apply_of_ok (query_apply _ _), read]
            rfl
          apply completes_of_done
          rw [moved]
          simp only [releaseStage, releaseHeld, chosen, read, finalState,
            bind_apply_of_error fails]
      | ok found =>
          cases found with
          | none =>
              apply completes_of_done
              rw [moved]
              simp only [releaseStage, releaseHeld, chosen, read, finalState,
                bind_apply_of_ok (ends none read), pure_apply]
          | some stored =>
              cases parsed : (stored.withAudience audience).parse with
              | error issue =>
                  have fails :
                      (orSchemaError (.error issue) : StoreM MemoryCandidate)
                        store = .error (.schema issue) store :=
                    rfl
                  apply completes_of_done
                  rw [moved]
                  simp only [releaseStage, releaseHeld, chosen, read,
                    finalState, bind_apply_of_ok (ends _ read), parsed,
                    bind_apply_of_error fails]
              | ok released =>
                  have checked : (orSchemaError (.ok released)) store =
                      .ok released store :=
                    rfl
                  by_cases refused :
                      (disclosureViolation env released).isSome = true
                  · apply completes_of_done
                    rw [moved]
                    simp only [releaseStage, releaseHeld, chosen, read,
                      finalState, bind_apply_of_ok (ends _ read), parsed,
                      bind_apply_of_ok checked, if_pos refused, pure_apply]
                  · apply completes_of_next
                    · rw [moved]
                      simp only [releaseStage, chosen, read, parsed,
                        if_neg refused]
                      rfl
                    · apply completes_of_done
                      simp only [advanceHold, releaseProgram, releaseHeld,
                        chosen, finalState, bind_apply_of_ok (ends _ read),
                        parsed, bind_apply_of_ok checked, if_neg refused]

/-- The resolution of a hold that was read. -/
theorem settle_completes {input : ResolveHoldInput}
    {options : ResolveHoldOptions} {hold : ActiveHold} {actor : Author}
    {role : ReaderRole} {verdict : HoldVerdict} {draw : Draw} {store : Store} :
    (holdSystem env).Completes
      (.settle input options hold actor role verdict draw) store
      (finalState
        (resolveOpenHold env input options hold actor role verdict draw)
        store) := by
  by_cases visible :
      isAudienceVisibleToRole (some hold.declaredAudience) role = true
  · by_cases expired : hold.expired = true
    · apply completes_of_done
      simp [advanceHold, resolveOpenHold, visible, expired]
    · have unexpired : hold.expired = false := by simpa using expired
      cases verdict with
      | reject =>
          apply completes_of_done
          simp [advanceHold, resolveOpenHold, visible, unexpired]
      | release =>
          simp only [resolveOpenHold, visible, unexpired, Bool.not_true,
            Bool.false_eq_true, if_false]
          exact release_completes visible unexpired
  · apply completes_of_done
    simp [advanceHold, resolveOpenHold, visible, finalState]

/-- Each operation, alone in the system, does what it does as a whole. -/
theorem alone_completes (request : HoldRequest) (store : Store) :
    (holdSystem env).Completes (.start request) store
      (request.alone env store) := by
  cases request with
  | place candidate decision limits triggeredBy dryRun now =>
      exact completes_of_done rfl
  | expire tenantId dryRun now =>
      apply completes_of_next rfl
      exact close_completes dryRun now _ store
  | resolve input options draw =>
      change (holdSystem env).Completes _ store
        (finalState (resolveHold env input options draw) store)
      cases checked : checkResolver input with
      | error result =>
          apply completes_of_done
          simp only [advanceHold, settleStage, resolveHold, checked, finalState,
            pure_apply]
      | ok parts =>
          obtain ⟨actor, role, verdict⟩ := parts
          cases found : findActiveHold env store input.candidateId
              input.tenantId draw.now with
          | none =>
              apply completes_of_done
              simp only [advanceHold, settleStage, resolveHold, checked, found,
                finalState, bind_apply_of_ok (query_apply _ _), pure_apply,
                Option.map_none]
          | some hold =>
              apply completes_of_next
              · simp only [advanceHold, settleStage, checked, found]
                rfl
              · simp only [resolveHold, checked, finalState, found,
                  bind_apply_of_ok (query_apply _ _)]
                exact settle_completes

/-! ## Sound stages -/

/-- What a stage has read is on the books, and a placement heeds the cap. -/
def SoundHold (env : Environment) (cap : String → Nat) (stage : HoldStage)
    (store : Store) : Prop :=
  match stage with
  | .start (.place candidate _ limits _ _ _) =>
      resolveMaxActiveHolds limits ≤ cap candidate.tenantId
  | .start (.resolve _ _ _) | .start (.expire _ _ _) => True
  | .settle input _ hold _ _ _ draw =>
      HoldOf store.holdView hold ∧ hold.candidateId = input.candidateId ∧
        hold.tenantId = input.tenantId ∧
        hold.expired = hasElapsed env hold.expiresAt draw.now
  | .release input _ hold released _ _ _ draw =>
      HoldOf store.holdView hold ∧ hold.candidateId = input.candidateId ∧
        hold.tenantId = input.tenantId ∧ released.id = hold.candidateId ∧
        hasElapsed env hold.expiresAt draw.now = false
  | .close _ _ holds => ∀ hold ∈ holds, HoldOf store.holdView hold

variable {cap : String → Nat}

theorem SoundHold.stable {stage : HoldStage} {store next : Store}
    (move : HoldMove env cap store.holdView next.holdView)
    (sound : SoundHold env cap stage store) : SoundHold env cap stage next := by
  cases stage with
  | start request => cases request <;> exact sound
  | settle input options hold actor role verdict draw =>
      exact ⟨move.holdOf sound.1, sound.2⟩
  | release input options hold released audience actor role draw =>
      exact ⟨move.holdOf sound.1, sound.2⟩
  | close dryRun now holds =>
      exact fun hold member => move.holdOf (sound hold member)

theorem move_of_triple {Value : Type} {program : StoreM Value} {store : Store}
    (triple : Triple (fun current => current.holdView = store.holdView) program
      (fun _ current => HoldMove env cap store.holdView current.holdView)
      (fun _ current => HoldMove env cap store.holdView current.holdView)) :
    HoldMove env cap store.holdView (finalState program store).holdView := by
  have result := triple.run store rfl
  unfold finalState
  cases ended : program store <;> rw [ended] at result <;> exact result

theorem closeExpiredHold_move {store : Store} {input : ResolveHoldInput}
    {hold : ActiveHold} (isHold : HoldOf store.holdView hold) (now : String) :
    HoldMove env cap store.holdView
      (finalState (closeExpiredHold env input hold now) store).holdView := by
  have closes : Triple (fun current => current.holdView = store.holdView)
      (when (input.dryRun = false) (do let _ ← expireHold env hold now))
      (fun _ current => HoldMove env cap store.holdView current.holdView)
      (fun _ current => HoldMove env cap store.holdView current.holdView) := by
    apply Triple.ite
    · intro _
      apply Triple.bind (expireHold_triple isHold now)
      intro auditEventId
      exact Triple.pure _ fun _ moved => moved
    · intro _
      apply Triple.pure
      intro current same
      rw [same]
      exact .stay
  apply move_of_triple
  unfold closeExpiredHold
  apply Triple.bind closes
  intro _
  exact Triple.pure _ fun _ moved => moved

theorem closeExpired_triple {store : Store} {hold : ActiveHold}
    (isHold : HoldOf store.holdView hold) (dryRun : Bool) (now : String) :
    Triple (fun current => current.holdView = store.holdView)
      (closeExpired env dryRun now hold)
      (fun _ current => HoldMove env cap store.holdView current.holdView)
      (fun _ current => HoldMove env cap store.holdView current.holdView) := by
  unfold closeExpired
  cases dryRun with
  | true =>
      apply Triple.pure
      intro current same
      rw [same]
      exact .stay
  | false =>
      simp only [Bool.false_eq_true, if_false, bind_map_left]
      apply Triple.bind (expireHold_triple isHold now)
      intro auditEventId
      exact Triple.pure _ fun _ moved => moved

/-- The release is one move. -/
theorem releaseProgram_move {store : Store} {input : ResolveHoldInput}
    {options : ResolveHoldOptions} {hold : ActiveHold}
    {released : MemoryCandidate} {audience : Audience} {actor : Author}
    {role : ReaderRole} {draw : Draw} (isHold : HoldOf store.holdView hold)
    (sameCandidate : hold.candidateId = input.candidateId)
    (sameTenant : hold.tenantId = input.tenantId)
    (isReleased : released.id = hold.candidateId)
    (inTime : hasElapsed env hold.expiresAt draw.now = false) :
    HoldMove env cap store.holdView
      (finalState (releaseProgram env input options hold released audience
        actor role draw) store).holdView := by
  have released := @runRelease_triple env store.holdView hold cap input options
    released audience actor role draw isHold sameCandidate sameTenant
    isReleased inTime
  have stays (current : Store) (same : current.holdView = store.holdView) :
      HoldMove env cap store.holdView current.holdView := by
    rw [same]
    exact .stay
  apply move_of_triple
  unfold releaseProgram
  apply Triple.ite
  · intro isDry
    exact Triple.weaken released (fun _ start => start)
      (fun _ _ moved => moved) fun _ current same => stays current (same isDry)
  · intro _
    exact Triple.transaction (Triple.anyFailure released) fun _ => stays

theorem settleStage_sound {store : Store}
    (books : HoldBooks env store.holdView) {input : ResolveHoldInput}
    {options : ResolveHoldOptions} {draw : Draw} {stage : HoldStage}
    (next : settleStage env input options draw store = some stage) :
    SoundHold env cap stage store := by
  unfold settleStage at next
  split at next
  · cases next
  · obtain ⟨hold, found, rfl⟩ := Option.map_eq_some_iff.mp next
    exact holdOf_findActiveHold books found

/-- The candidate that a release reads is the one on hold. -/
theorem releaseStage_sound {store : Store} {input : ResolveHoldInput}
    {options : ResolveHoldOptions} {hold : ActiveHold} {actor : Author}
    {role : ReaderRole} {draw : Draw} {stage : HoldStage}
    (isHold : HoldOf store.holdView hold)
    (sameCandidate : hold.candidateId = input.candidateId)
    (sameTenant : hold.tenantId = input.tenantId)
    (inTime : hasElapsed env hold.expiresAt draw.now = false)
    (next : releaseStage env input options hold actor role draw store =
      some stage) :
    SoundHold env cap stage store := by
  unfold releaseStage at next
  split at next
  · rename_i audience stored chosen read
    split at next
    · cases next
    · rename_i released parsed
      split_ifs at next
      cases next
      refine ⟨isHold, sameCandidate, sameTenant, ?_, inTime⟩
      have found : CandidateRepository.findCandidateSafe store.candidates
          input.candidateId = some stored := by
        unfold CandidateRepository.findCandidateSafe
        rw [read]
      obtain ⟨row, -, rowId, accepted⟩ := findCandidateSafe_eq_some found
      rw [MemoryCandidate.parse_eq_ok parsed,
        MemoryCandidate.parse_eq_ok accepted, sameCandidate]
      exact rowId
  · cases next

/-- A sound stage moves the books at most once, and the stage that it leaves is
sound. -/
theorem advanceHold_sound {stage : HoldStage} {store : Store}
    (books : HoldBooks env store.holdView)
    (sound : SoundHold env cap stage store) :
    HoldMove env cap store.holdView
        (advanceHold env store stage).1.holdView ∧
      ∀ next ∈ (advanceHold env store stage).2,
        SoundHold env cap next (advanceHold env store stage).1 := by
  cases stage with
  | start request =>
      cases request with
      | place candidate decision limits triggeredBy dryRun now =>
          refine ⟨move_of_triple (placeHold_triple sound), ?_⟩
          intro next following
          cases following
      | resolve input options draw =>
          exact ⟨.stay, fun next following =>
            settleStage_sound books following⟩
      | expire tenantId dryRun now =>
          refine ⟨.stay, ?_⟩
          rintro next following
          cases following
          intro hold member
          exact holdOf_listActiveHolds books (List.mem_of_mem_filter member)
  | settle input options hold actor role verdict draw =>
      obtain ⟨isHold, sameCandidate, sameTenant, expiry⟩ := sound
      simp only [advanceHold]
      by_cases hidden :
          (!isAudienceVisibleToRole (some hold.declaredAudience) role) = true
      · rw [if_pos hidden]
        exact ⟨.stay, fun next following => by cases following⟩
      rw [if_neg hidden]
      by_cases expired : hold.expired = true
      · rw [if_pos expired]
        exact ⟨closeExpiredHold_move isHold draw.now,
          fun next following => by cases following⟩
      rw [if_neg expired]
      cases verdict with
      | reject =>
          refine ⟨move_of_triple
            (rejectHeld_triple isHold sameCandidate sameTenant draw.now), ?_⟩
          intro next following
          cases following
      | release =>
          refine ⟨.stay, fun next following => ?_⟩
          apply releaseStage_sound isHold sameCandidate sameTenant _ following
          rw [← expiry]
          simpa using expired
  | release input options hold released audience actor role draw =>
      obtain ⟨isHold, sameCandidate, sameTenant, isReleased, inTime⟩ := sound
      refine ⟨releaseProgram_move isHold sameCandidate sameTenant isReleased
        inTime, ?_⟩
      intro next following
      cases following
  | close dryRun now holds =>
      cases holds with
      | nil => exact ⟨.stay, fun next following => by cases following⟩
      | cons hold rest =>
          have closes : Triple
              (fun current => current.holdView = store.holdView)
              (closeExpired env dryRun now hold)
              (fun _ current => HoldMove env cap store.holdView current.holdView)
              (fun _ current =>
                HoldMove env cap store.holdView current.holdView) :=
            closeExpired_triple (sound hold List.mem_cons_self) dryRun now
          have result := closes.run store rfl
          simp only [advanceHold]
          cases closed : closeExpired env dryRun now hold store with
          | ok expired final =>
              rw [closed] at result
              refine ⟨result, ?_⟩
              rintro next following
              cases following
              intro later member
              exact result.holdOf (sound later (List.mem_cons_of_mem _ member))
          | error error final =>
              rw [closed] at result
              exact ⟨result, fun next following => by cases following⟩

/-! ## Every schedule -/

/-- A placement heeds the cap of its tenant. -/
def HoldRequest.Heeds (cap : String → Nat) : HoldRequest → Prop
  | .place candidate _ limits _ _ _ =>
      resolveMaxActiveHolds limits ≤ cap candidate.tenantId
  | .resolve _ _ _ | .expire _ _ _ => True

/-- The log and the tables agree on every hold. -/
structure HoldsAgree (env : Environment) (cap : String → Nat) (store : Store) :
    Prop where
  oneHeld : ∀ candidateId, store.auditEvents.rows.countP (fun record =>
    record.event.action = .held && record.event.memoryId = candidateId) ≤ 1
  oneResolved : ∀ candidateId, store.auditEvents.rows.countP (fun record =>
    record.event.action = .holdResolved &&
      record.event.memoryId = candidateId) ≤ 1
  status : ∀ record ∈ store.auditEvents.rows,
    record.event.action = .holdResolved → ∃ resolution : HoldResolution,
      record.event.detailText "resolution" = some resolution.text ∧
        ∃ row ∈ store.candidates.rows, row.id = record.event.memoryId ∧
          row.candidate.status = resolution.status
  promoted : ∀ held ∈ store.auditEvents.rows, held.event.action = .held →
    ((∃ memory ∈ store.curatedMemories.rows,
        memory.candidateId = held.event.memoryId) ↔
      ∃ record ∈ store.auditEvents.rows,
        record.event.action = .holdResolved ∧
          record.event.memoryId = held.event.memoryId ∧
          record.event.detailText "resolution" =
            some HoldResolution.released.text)
  capped : ∀ tenantId now,
    (listActiveHolds env store tenantId now).length ≤ cap tenantId
  inTime : ∀ record ∈ store.auditEvents.rows,
    record.event.action = .holdResolved →
    record.event.detailText "resolution" =
      some HoldResolution.released.text →
    ∃ held ∈ store.auditEvents.rows, held.event.action = .held ∧
      held.event.memoryId = record.event.memoryId ∧
      hasElapsed env ((held.event.detailText "expiresAt").getD "")
        record.event.timestamp = false

theorem HoldResolution.text_injective {left right : HoldResolution}
    (same : left.text = right.text) : left = right := by
  cases left <;> cases right <;> simp_all [HoldResolution.text]

/-- Of each action the books carry one receipt at most for a candidate. -/
theorem countP_records_le_one {store : Store}
    (books : HoldBooks env store.holdView) {action : AuditAction}
    (ofHold : action = .held ∨ action = .holdResolved) (candidateId : String) :
    store.auditEvents.rows.countP (fun record =>
      record.event.action = action &&
        record.event.memoryId = candidateId) ≤ 1 := by
  have counted : store.auditEvents.rows.countP (fun record =>
      record.event.action = action && record.event.memoryId = candidateId) =
        (store.holdView.receipts.filter fun event =>
          event.action = action && event.memoryId = candidateId).length := by
    rw [← List.countP_eq_length_filter, Store.holdView, List.countP_filter,
      List.countP_map]
    apply List.countP_congr
    intro record _
    simp only [Function.comp_apply, Bool.and_eq_true, decide_eq_true_eq,
      AuditEvent.OfHold]
    constructor
    · rintro ⟨rfl, ofCandidate⟩
      exact ⟨⟨rfl, ofCandidate⟩, decide_eq_true ofHold⟩
    · exact And.left
  have single {left right : AuditEvent}
      (leftMember : left ∈ store.holdView.receipts.filter fun event =>
        event.action = action && event.memoryId = candidateId)
      (rightMember : right ∈ store.holdView.receipts.filter fun event =>
        event.action = action && event.memoryId = candidateId) :
      left = right := by
    simp only [List.mem_filter, Bool.and_eq_true, decide_eq_true_eq]
      at leftMember rightMember
    apply books.eq_of_memoryId leftMember.1 rightMember.1
    · rw [leftMember.2.1, rightMember.2.1]
    · rw [leftMember.2.2, rightMember.2.2]
  have distinct : (store.holdView.receipts.filter fun event =>
      event.action = action && event.memoryId = candidateId).Nodup :=
    (List.Nodup.of_map _ books.distinct).filter _
  rw [counted]
  generalize (store.holdView.receipts.filter fun event =>
    event.action = action && event.memoryId = candidateId) = found at *
  cases found with
  | nil => simp
  | cons first rest =>
      cases rest with
      | nil => simp
      | cons second others =>
          have same : first = second := single (by simp) (by simp)
          rw [same] at distinct
          simp at distinct

theorem holdsAgree_of_books {store : Store}
    (books : HoldBooks env store.holdView)
    (capped : ∀ tenantId, store.holdView.activeHolds tenantId ≤ cap tenantId) :
    HoldsAgree env cap store := by
  have recorded {record : AuditRecord}
      (member : record ∈ store.auditEvents.rows)
      (ofHold : record.event.OfHold) :
      record.event ∈ store.holdView.receipts :=
    mem_holdView.mpr ⟨ofHold, record, member, rfl⟩
  have isReleased {event : AuditEvent} {resolution : HoldResolution}
      (ends : Resolved env store.holdView event resolution)
      (named : event.detailText "resolution" =
        some HoldResolution.released.text) : resolution = .released := by
    rw [ends.names, Option.some.injEq] at named
    exact HoldResolution.text_injective named
  constructor
  · exact countP_records_le_one books (.inl rfl)
  · exact countP_records_le_one books (.inr rfl)
  · intro record member isResolved
    have receipt := recorded member (.inr isResolved)
    obtain ⟨resolution, ends⟩ := books.resolved _ receipt isResolved
    obtain ⟨row, rowMember, rowId, -⟩ := books.stored _ receipt
    exact ⟨resolution, ends.names, row, rowMember, rowId,
      ends.status row rowMember rowId⟩
  · intro held member isHeld
    have promotes : (∃ memory ∈ store.curatedMemories.rows,
        memory.candidateId = held.event.memoryId) ↔
          held.event.memoryId ∈ store.holdView.promoted :=
      List.mem_map.symm
    rw [promotes]
    constructor
    · intro inPromoted
      by_contra unreleased
      apply books.unresolved _ (recorded member (.inl isHeld)) isHeld _
        inPromoted
      intro event inLog isResolved ofCandidate
      obtain ⟨resolution, ends⟩ := books.resolved event inLog isResolved
      obtain ⟨record, inside, rfl⟩ := (mem_holdView.mp inLog).2
      rw [← ofCandidate, ends.promoted] at inPromoted
      rw [inPromoted] at ends
      exact unreleased ⟨record, inside, isResolved, ofCandidate, ends.names⟩
    · rintro ⟨record, inside, isResolved, ofCandidate, named⟩
      obtain ⟨resolution, ends⟩ :=
        books.resolved _ (recorded inside (.inr isResolved)) isResolved
      rw [← ofCandidate, ends.promoted]
      exact isReleased ends named
  · intro tenantId now
    rw [length_listActiveHolds]
    exact capped tenantId
  · intro record member isResolved named
    obtain ⟨resolution, ends⟩ :=
      books.resolved _ (recorded member (.inr isResolved)) isResolved
    obtain ⟨held, inLog, isHeld, ofCandidate, inTime⟩ := ends.inTime
    obtain ⟨first, inside, rfl⟩ := (mem_holdView.mp inLog).2
    exact ⟨first, inside, isHeld, ofCandidate,
      inTime (isReleased ends named)⟩

/-- The books stay in order under every schedule of the operations. -/
theorem holdBooks_of_run {config : Config Store HoldStage}
    {labels : List (Label HoldRequest)}
    (heeds : ∀ request, .start request ∈ labels → request.Heeds cap)
    (fresh : ∀ stage ∈ config.pending, SoundHold env cap stage config.shared)
    (books : HoldBooks env config.shared.holdView)
    (capped : ∀ tenantId,
      config.shared.holdView.activeHolds tenantId ≤ cap tenantId) :
    HoldBooks env (run (holdSystem env).step config labels).shared.holdView ∧
      ∀ tenantId, (run (holdSystem env).step config
        labels).shared.holdView.activeHolds tenantId ≤ cap tenantId := by
  have kept := @System.invariant_of_stages Store HoldRequest HoldStage
    (holdSystem env)
    (fun store => HoldBooks env store.holdView ∧
      ∀ tenantId, store.holdView.activeHolds tenantId ≤ cap tenantId)
    (SoundHold env cap) (HoldRequest.Heeds cap)
  refine (kept ?_ ?_ ?_ heeds fresh ⟨books, capped⟩).1
  · intro request store stage allowed _ started
    cases started
    cases request <;> exact allowed
  · intro stage store inOrder sound
    obtain ⟨move, next⟩ := advanceHold_sound inOrder.1 sound
    exact ⟨⟨move.books inOrder.1, move.capped inOrder.1 inOrder.2⟩, next⟩
  · intro moved other store inOrder movedSound otherSound
    exact SoundHold.stable (advanceHold_sound inOrder.1 movedSound).1 otherSound

/-- From a store whose books are in order, whatever placements within the caps,
resolutions and sweeps run and however their stages interleave, the log and the
tables agree on every hold. -/
theorem holdsAgree_of_interleaved {store : Store}
    {labels : List (Label HoldRequest)}
    (books : HoldBooks env store.holdView)
    (capped : ∀ tenantId, store.holdView.activeHolds tenantId ≤ cap tenantId)
    (heeds : ∀ request, .start request ∈ labels → request.Heeds cap) :
    HoldsAgree env cap
      (run (holdSystem env).step (Config.idle store) labels).shared := by
  have unread : ∀ stage ∈ (Config.idle store).pending,
      SoundHold env cap stage store :=
    fun stage member => absurd member List.not_mem_nil
  obtain ⟨stillBooks, stillCapped⟩ :=
    holdBooks_of_run heeds unread books capped
  exact holdsAgree_of_books stillBooks stillCapped

def waitingStore : Store :=
  { Store.empty with
    candidates :=
      { rows :=
          [{ candidate := pagerCandidate
             contentHash := "hash"
             importBatchId := none }]
        coexist := List.pairwise_singleton _ _ } }

def placePager : HoldRequest :=
  .place pagerCandidate
    { triggers := []
      declaredAudience := .tenant
      recommendedAudience := .tenant
      basis := "policy"
      matchedPatterns := []
      triggerRuleIds := []
      otherFlags := [] }
    { ttlDays := some 1
      maxActiveHolds := some 1 } none false "0"

def resolvePager (resolution now : String) : HoldRequest :=
  .resolve
    { candidateId := "candidate"
      tenantId := "team"
      resolution := resolution
      audience := some "tenant"
      acknowledgeWider := false
      actor :=
        { type := .human
          id := "bea"
          name := none }
      role := "owner"
      reason := "Reviewed"
      dryRun := false }
    { originSecret := none
      withLinks := true }
    { freshId := "draw"
      now := now }

/-- A release has read the hold and the candidate when a second resolver
rejects it. -/
theorem holdsAgree_raced :
    HoldsAgree plainEnvironment (fun _ => 1)
      (run (holdSystem plainEnvironment).step (Config.idle waitingStore)
        [.start placePager, .advance 0, .start (resolvePager "release" "1"),
          .advance 0, .advance 0, .start (resolvePager "reject" "2"),
          .advance 1, .advance 1, .advance 0]).shared := by
  apply holdsAgree_of_interleaved
  · apply holdBooks_of_unheld rfl
    · decide +kernel
    · intro row member waits promoted
      cases promoted
  · intro tenantId
    exact Nat.zero_le 1
  · intro request member
    simp only [List.mem_cons, Label.start.injEq, reduceCtorEq, false_or,
      List.not_mem_nil, or_false] at member
    rcases member with rfl | rfl | rfl
    · change resolveMaxActiveHolds _ ≤ 1
      decide +kernel
    · trivial
    · trivial

end Registrar
