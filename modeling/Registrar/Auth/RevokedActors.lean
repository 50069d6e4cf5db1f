import Registrar.Auth.ApiKeyAuth
import Registrar.Library.Transition
import Mathlib.Logic.Function.Basic

/-!
# The durable revocation list

Revoking an actor reads the list, extends it and rewrites the file in place.
Between two calls of one process any number of other processes may run, and a
process may die after any call; a registry that is built later reads whatever
the file then holds.
-/

namespace Registrar

open Transition

structure RevokedActorEntry where
  actor : String
  revokedAt : String
  reason : Option String
  deriving DecidableEq, Repr

def RevokedActorEntry.json (entry : RevokedActorEntry) : Json :=
  .object
    ([("actor", .string entry.actor), ("revokedAt", .string entry.revokedAt)] ++
      Json.optionalField "reason"
        ((entry.reason.filter (· ≠ "")).map Json.string))

/-- An entry that an append keeps. -/
def isRevocationEntry : Json → Bool
  | .object fields =>
      match Json.field? fields "actor" with
      | some (.string _) => true
      | _ => false
  | _ => false

def existingEntries (raw : Option String) : List Json :=
  match raw.bind Json.parse with
  | some (.array items) => items.filter isRevocationEntry
  | _ => []

/-- The text that an append writes after it has read `raw`. -/
def appendedText (raw : Option String) (entry : RevokedActorEntry) : String :=
  (Json.array (existingEntries raw ++ [entry.json])).stringifyIndented ++ "\n"

theorem mem_bannedActors_iff {raw : Option String} {actor : String} :
    actor ∈ bannedActors raw ↔
      ∃ items, raw.bind Json.parse = some (.array items) ∧
        ∃ item ∈ items, revokedActor? item = some actor := by
  unfold bannedActors
  split
  · rename_i items parsed
    simp only [List.mem_eraseDups, List.mem_filterMap]
    constructor
    · exact fun listed => ⟨items, parsed, listed⟩
    · rintro ⟨others, same, listed⟩
      rw [parsed] at same
      cases same
      exact listed
  · rename_i unparsed
    constructor
    · intro listed
      cases listed
    · rintro ⟨items, parsed, -⟩
      exact absurd parsed (unparsed items)

theorem isRevocationEntry_of_revokedActor? {item : Json} {actor : String}
    (bans : revokedActor? item = some actor) :
    isRevocationEntry item = true := by
  unfold revokedActor? at bans
  split at bans
  · rename_i fields
    obtain ⟨value, present, text⟩ := Option.bind_eq_some_iff.mp bans
    cases value with
    | string value => simp [isRevocationEntry, present]
    | _ => cases text
  · cases bans

theorem revokedActor?_json {entry : RevokedActorEntry}
    (named : entry.actor ≠ "") :
    revokedActor? entry.json = some entry.actor := by
  have present : Json.field?
      ([("actor", .string entry.actor),
        ("revokedAt", .string entry.revokedAt)] ++
        Json.optionalField "reason"
          ((entry.reason.filter (· ≠ "")).map Json.string)) "actor" =
      some (.string entry.actor) := by
    rw [Json.field?_append, Json.field?_optionalField, if_neg (by decide)]
    simp [Json.field?]
  rw [RevokedActorEntry.json, revokedActor?, present]
  simp [nonEmptyText?, named]

theorem revokedActorEntry_wellFormed (entry : RevokedActorEntry) :
    entry.json.WellFormed := by
  apply Json.fieldsWellFormed_iff.mpr
  intro field member
  simp only [List.mem_append, List.mem_cons, List.not_mem_nil, or_false,
    Json.optionalField, List.mem_map, Option.mem_toList, Option.map_eq_some_iff]
    at member
  rcases member with (rfl | rfl) | ⟨_, ⟨_, -, rfl⟩, rfl⟩ <;> trivial

/-- What an append writes bans its actor and everyone whom the text that it read
banned. -/
theorem mem_bannedActors_appendedText {raw : Option String}
    {entry : RevokedActorEntry} {actor : String} (named : entry.actor ≠ "")
    (listed : actor ∈ bannedActors raw ∨ actor = entry.actor) :
    actor ∈ bannedActors (some (appendedText raw entry)) := by
  have wellFormed :
      (Json.array (existingEntries raw ++ [entry.json])).WellFormed := by
    apply Json.itemsWellFormed_iff.mpr
    intro item member
    rcases List.mem_append.mp member with existing | new
    · unfold existingEntries at existing
      split at existing
      · rename_i items parsed
        obtain ⟨text, -, parses⟩ := Option.bind_eq_some_iff.mp parsed
        exact Json.itemsWellFormed_iff.mp (Json.parse_wellFormed parses) item
          (List.mem_filter.mp existing).1
      · cases existing
    · rw [List.mem_singleton.mp new]
      exact revokedActorEntry_wellFormed entry
  refine mem_bannedActors_iff.mpr
    ⟨_, Json.parse_stringifyIndented wellFormed, ?_⟩
  rcases listed with earlier | rfl
  · obtain ⟨items, parsed, item, member, bans⟩ :=
      mem_bannedActors_iff.mp earlier
    refine ⟨item, List.mem_append_left _ ?_, bans⟩
    rw [existingEntries, parsed]
    exact List.mem_filter.mpr
      ⟨member, isRevocationEntry_of_revokedActor? bans⟩
  · exact ⟨entry.json, by simp, revokedActor?_json named⟩

/-- The next call of an append on the list file. -/
inductive AppendStage where
  | reading (entry : RevokedActorEntry)
  | opening (raw : Option String) (entry : RevokedActorEntry)
  | writing (text : List Char) (written : Nat) (actor : String)
  deriving DecidableEq

/-- The append has emptied the file and not yet filled it. -/
def AppendStage.isWriting : AppendStage → Bool
  | .writing _ _ _ => true
  | _ => false

/-- The file, the append that each process is in, and the actors whose append
has returned. -/
structure RevocationWorld where
  file : Option (List Char)
  appends : Nat → Option AppendStage
  returned : List String

namespace RevocationWorld

def raw (world : RevocationWorld) : Option String :=
  world.file.map String.ofList

def goto (world : RevocationWorld) (process : Nat)
    (stage : Option AppendStage) : RevocationWorld :=
  { world with
    appends := Function.update world.appends process stage }

/-- Some process has emptied the file and not yet filled it. -/
def Torn (world : RevocationWorld) : Prop :=
  ∃ process stage, world.appends process = some stage ∧ stage.isWriting = true

end RevocationWorld

/-- The file after a write of some characters at an offset. -/
def overwrite (file piece : List Char) (offset : Nat) : List Char :=
  file.take offset ++
    (List.replicate (offset - file.length) (Char.ofNat 0) ++
      (piece ++ file.drop (offset + piece.length)))

/-- The next call of `appendRevokedActor`; a write takes one character and up to
`extra` more. -/
def appendStep (world : RevocationWorld) (process extra : Nat) :
    AppendStage → RevocationWorld
  | .reading entry => world.goto process (some (.opening world.raw entry))
  | .opening raw entry =>
      { world with file := some [] }.goto process
        (some (.writing (appendedText raw entry).toList 0 entry.actor))
  | .writing text written actor =>
      let piece := (text.drop written).take (extra + 1)
      let next :=
        { world with
          file := some (overwrite (world.file.getD []) piece written) }
      if text.length ≤ written + (extra + 1) then
        { next with returned := world.returned ++ [actor] }.goto process none
      else
        next.goto process (some (.writing text (written + (extra + 1)) actor))

/-- What a build of a registry is given besides the list. -/
structure RegistryBuild where
  path : String
  options : TokenSourceOptions
  others : String → Option String
  salts : Nat → List UInt8
  loadedAt : Int

inductive RevocationLabel where
  | append (process : Nat) (entry : RevokedActorEntry)
  | advance (process extra : Nat)
  | crash (process : Nat)
  | build (arguments : RegistryBuild)

/-- A process calls `appendRevokedActor`, makes its next call on the file, or
dies, or some process builds a registry. -/
def revocationStep (world : RevocationWorld) :
    RevocationLabel → RevocationWorld
  | .append process entry =>
      match world.appends process with
      | none => world.goto process (some (.reading entry))
      | some _ => world
  | .advance process extra =>
      match world.appends process with
      | none => world
      | some stage => appendStep world process extra stage
  | .crash process => world.goto process none
  | .build _ => world

variable (env : Environment) (scrypt : Scrypt)

/-- The registry that the build gives, with the list at its path. -/
def RegistryBuild.result (arguments : RegistryBuild)
    (world : RevocationWorld) : Except String InMemoryTokenRegistry :=
  buildTokenRegistry env
    (fun path =>
      if path = arguments.path then world.raw else arguments.others path)
    scrypt arguments.salts arguments.loadedAt
    { arguments.options with
      revokedFile := some arguments.path }

/-- A registry that is built now resolves no token of an actor whose revocation
has returned. -/
def RevocationHonoured (world : RevocationWorld) : RevocationLabel → Prop
  | .build arguments =>
      arguments.path ≠ "" →
        ∀ registry, arguments.result env scrypt world = .ok registry →
          ∀ now token identity,
            registry.resolve scrypt now token = some identity →
            identity.actor ∉ world.returned
  | _ => True

/-- The revoked actor has a name; nobody reads the list, and no writer dies,
while the file is half written; and an append rewrites the list that it read. -/
def Orderly (world : RevocationWorld) : RevocationLabel → Prop
  | .append _ entry => entry.actor ≠ ""
  | .advance process _ =>
      match world.appends process with
      | some (.reading _) => ¬world.Torn
      | some (.opening raw _) => ¬world.Torn ∧ world.raw = raw
      | _ => True
  | .crash process =>
      ∀ stage ∈ world.appends process, stage.isWriting = false
  | .build _ => ¬world.Torn

/-! ## The list keeps what was revoked -/

/-- The append is about to extend the list by an actor with a name. -/
def AppendStage.Named : AppendStage → Prop
  | .reading entry => entry.actor ≠ ""
  | .opening _ entry => entry.actor ≠ ""
  | .writing _ _ _ => True

/-- The text of the one writer, or the file when there is none, bans every actor
whose append has returned. -/
structure RevocationSound (world : RevocationWorld) : Prop where
  named : ∀ process stage, world.appends process = some stage → stage.Named
  alone : ∀ left right leftStage rightStage,
    world.appends left = some leftStage →
    world.appends right = some rightStage →
    leftStage.isWriting = true → rightStage.isWriting = true → left = right
  writing : ∀ process text written actor,
    world.appends process = some (.writing text written actor) →
    written < text.length ∧ world.file = some (text.take written) ∧
      ∀ revoked, revoked ∈ world.returned ∨ revoked = actor →
        revoked ∈ bannedActors (some (String.ofList text))
  settled : ¬world.Torn → ∀ revoked ∈ world.returned,
    revoked ∈ bannedActors world.raw

variable {env scrypt}
variable {world : RevocationWorld} {process : Nat}

theorem appends_goto {stage : Option AppendStage} {other : Nat}
    {otherStage : AppendStage}
    (found : (world.goto process stage).appends other = some otherStage) :
    other = process ∧ stage = some otherStage ∨
      other ≠ process ∧ world.appends other = some otherStage := by
  by_cases same : other = process
  · subst same
    exact .inl ⟨rfl, by simpa [RevocationWorld.goto] using found⟩
  · exact .inr ⟨same, by
      simpa [RevocationWorld.goto, Function.update_of_ne same] using found⟩

/-- A process that is not writing goes on without writing. -/
theorem sound_of_goto_quiet (sound : RevocationSound world)
    (was : ∀ stage ∈ world.appends process, stage.isWriting = false)
    {next : Option AppendStage}
    (quiet : ∀ stage ∈ next, stage.isWriting = false ∧ stage.Named) :
    RevocationSound (world.goto process next) := by
  -- a writer afterwards is a writer before, so it is not this process
  have writer {other : Nat} {stage : AppendStage}
      (found : (world.goto process next).appends other = some stage)
      (writes : stage.isWriting = true) :
      world.appends other = some stage := by
    rcases appends_goto found with ⟨-, isNext⟩ | ⟨-, before⟩
    · rw [(quiet stage isNext).1] at writes
      cases writes
    · exact before
  constructor
  · intro other stage found
    rcases appends_goto found with ⟨-, isNext⟩ | ⟨-, before⟩
    · exact (quiet stage isNext).2
    · exact sound.named other stage before
  · intro left right leftStage rightStage leftFound rightFound leftWrites
      rightWrites
    exact sound.alone left right leftStage rightStage
      (writer leftFound leftWrites) (writer rightFound rightWrites) leftWrites
      rightWrites
  · intro other text written actor found
    exact sound.writing other text written actor (writer found rfl)
  · intro whole revoked returned
    refine sound.settled ?_ revoked returned
    rintro ⟨other, stage, found, writes⟩
    refine whole ⟨other, stage, ?_, writes⟩
    have different : other ≠ process := by
      rintro rfl
      rw [was stage found] at writes
      cases writes
    simpa [RevocationWorld.goto, Function.update_of_ne different] using found

theorem sound_of_open (sound : RevocationSound world) {extra : Nat}
    {raw : Option String} {entry : RevokedActorEntry}
    (found : world.appends process = some (.opening raw entry))
    (whole : ¬world.Torn) (unchanged : world.raw = raw) :
    RevocationSound (appendStep world process extra (.opening raw entry)) := by
  have named : entry.actor ≠ "" := sound.named process _ found
  -- nobody else writes
  have only {other : Nat} {stage : AppendStage}
      (isAppend : (appendStep world process extra (.opening raw entry)).appends
        other = some stage) (writes : stage.isWriting = true) :
      other = process ∧
        stage = .writing (appendedText raw entry).toList 0 entry.actor := by
    rcases appends_goto isAppend with ⟨same, isNext⟩ | ⟨-, before⟩
    · exact ⟨same, (Option.some.inj isNext).symm⟩
    · exact absurd ⟨other, stage, before, writes⟩ whole
  constructor
  · intro other stage isAppend
    rcases appends_goto isAppend with ⟨-, isNext⟩ | ⟨-, before⟩
    · cases isNext
      trivial
    · exact sound.named other stage before
  · intro left right _ _ leftFound rightFound leftWrites rightWrites
    rw [(only leftFound leftWrites).1, (only rightFound rightWrites).1]
  · intro other text written actor isAppend
    obtain ⟨-, same⟩ := only isAppend rfl
    cases same
    refine ⟨?_, rfl, ?_⟩
    · simp [appendedText]
    · intro revoked listed
      rw [String.ofList_toList]
      apply mem_bannedActors_appendedText named
      rcases listed with returned | isActor
      · left
        rw [← unchanged]
        exact sound.settled whole revoked returned
      · exact .inr isActor
  · intro whole'
    exact absurd ⟨process, .writing (appendedText raw entry).toList 0
      entry.actor, Function.update_self _ _ _, rfl⟩ whole'

theorem overwrite_take {text : List Char} {written : Nat}
    (inside : written < text.length) (count : Nat) :
    overwrite (text.take written) ((text.drop written).take count) written =
      text.take (written + count) := by
  have length : (text.take written).length = written :=
    List.length_take_of_le inside.le
  have nothing : (text.take written).drop
      (written + ((text.drop written).take count).length) = [] := by
    apply List.drop_eq_nil_of_le
    omega
  rw [overwrite, nothing, length, Nat.sub_self, List.replicate_zero,
    List.take_take, Nat.min_self, List.append_nil, List.nil_append,
    ← List.take_add]

theorem sound_of_write (sound : RevocationSound world) {extra written : Nat}
    {text : List Char} {actor : String}
    (found : world.appends process = some (.writing text written actor)) :
    RevocationSound
      (appendStep world process extra (.writing text written actor)) := by
  obtain ⟨inside, file, bans⟩ := sound.writing process text written actor found
  -- this process is the one writer before the step
  have only {other : Nat} {stage : AppendStage}
      (before : world.appends other = some stage)
      (writes : stage.isWriting = true) : other = process :=
    sound.alone other process stage _ before found writes rfl
  have extended : some (overwrite (world.file.getD [])
      ((text.drop written).take (extra + 1)) written) =
      some (text.take (written + (extra + 1))) := by
    rw [file, Option.getD_some, overwrite_take inside]
  simp only [appendStep, extended]
  split_ifs with complete
  · -- the text is complete and nobody writes any more
    constructor
    · intro other stage isAppend
      rcases appends_goto isAppend with ⟨-, isNext⟩ | ⟨-, before⟩
      · cases isNext
      · exact sound.named other stage before
    · intro left right leftStage rightStage leftFound rightFound leftWrites
        rightWrites
      rcases appends_goto leftFound with ⟨-, isNext⟩ | ⟨different, before⟩
      · cases isNext
      · exact absurd (only before leftWrites) different
    · intro other _ _ _ isAppend
      rcases appends_goto isAppend with ⟨-, isNext⟩ | ⟨different, before⟩
      · cases isNext
      · exact absurd (only before rfl) different
    · intro _ revoked returned
      simp only [RevocationWorld.raw, RevocationWorld.goto, Option.map_some,
        List.take_of_length_le complete]
      apply bans
      simpa [RevocationWorld.goto] using returned
  · -- the same process goes on with the same text
    have stays {other : Nat} {stage : AppendStage}
        (isAppend : (RevocationWorld.goto
          { file := some (text.take (written + (extra + 1)))
            appends := world.appends
            returned := world.returned } process
          (some (.writing text (written + (extra + 1)) actor))).appends
            other = some stage) (writes : stage.isWriting = true) :
        other = process ∧
          stage = .writing text (written + (extra + 1)) actor := by
      rcases appends_goto isAppend with ⟨same, isNext⟩ | ⟨different, before⟩
      · exact ⟨same, (Option.some.inj isNext).symm⟩
      · exact absurd (only before writes) different
    constructor
    · intro other stage isAppend
      rcases appends_goto isAppend with ⟨-, isNext⟩ | ⟨-, before⟩
      · cases isNext
        trivial
      · exact sound.named other stage before
    · intro left right _ _ leftFound rightFound leftWrites rightWrites
      rw [(stays leftFound leftWrites).1, (stays rightFound rightWrites).1]
    · intro other _ _ _ isAppend
      obtain ⟨-, same⟩ := stays isAppend rfl
      cases same
      exact ⟨by omega, rfl, bans⟩
    · intro whole
      exact absurd ⟨process, .writing text (written + (extra + 1)) actor,
        Function.update_self _ _ _, rfl⟩ whole

theorem revocationStep_sound (world : RevocationWorld)
    (label : RevocationLabel) (sound : RevocationSound world)
    (orderly : Orderly world label) :
    RevocationSound (revocationStep world label) := by
  cases label with
  | append process entry =>
      simp only [revocationStep]
      cases found : world.appends process with
      | some stage => exact sound
      | none =>
          apply sound_of_goto_quiet sound
          · simp [found]
          · rintro stage ⟨⟩
            exact ⟨rfl, orderly⟩
  | advance process extra =>
      simp only [revocationStep, Orderly] at orderly ⊢
      cases found : world.appends process with
      | none => exact sound
      | some stage =>
          rw [found] at orderly
          cases stage with
          | reading entry =>
              apply sound_of_goto_quiet sound
              · rintro stage isStage
                rw [found] at isStage
                cases isStage
                rfl
              · have named : entry.actor ≠ "" := sound.named process _ found
                rintro stage ⟨⟩
                exact ⟨rfl, named⟩
          | opening raw entry =>
              exact sound_of_open sound found orderly.1 orderly.2
          | writing text written actor => exact sound_of_write sound found
  | crash process =>
      apply sound_of_goto_quiet sound orderly
      intro stage isNone
      cases isNone
  | build arguments => exact sound

theorem honoured_of_sound (world : RevocationWorld) (label : RevocationLabel)
    (sound : RevocationSound world) (orderly : Orderly world label) :
    RevocationHonoured env scrypt world label := by
  cases label with
  | build arguments =>
      intro located registry built now token identity resolved returned
      apply resolve_unrevoked built resolved
      have listed := sound.settled orderly identity.actor returned
      simpa [loadRevokedActors, readFileSafe, located] using listed
  | append _ _ => trivial
  | advance _ _ => trivial
  | crash _ => trivial

/-! ## Runs -/

/-- From a state in which no append is under way or has returned, whatever the
file holds, every build honours every revocation that has returned as long as
the steps are orderly. -/
theorem revocations_honoured {world : RevocationWorld}
    {labels : List RevocationLabel}
    (idle : ∀ process, world.appends process = none)
    (fresh : world.returned = [])
    (orderly : Always revocationStep Orderly world labels) :
    Always revocationStep (RevocationHonoured env scrypt) world labels := by
  apply always_of_always revocationStep_sound honoured_of_sound _ orderly
  constructor
  · intro process stage found
    rw [idle process] at found
    cases found
  · intro left _ _ _ found
    rw [idle left] at found
    cases found
  · intro process _ _ _ found
    rw [idle process] at found
    cases found
  · rw [fresh]
    intro _ revoked returned
    cases returned

/-- The process that the step moves. -/
def RevocationLabel.process? : RevocationLabel → Option Nat
  | .append process _ => some process
  | .advance process _ => some process
  | .crash process => some process
  | .build _ => none

theorem appends_revocationStep {world : RevocationWorld} {other : Nat}
    {label : RevocationLabel} (elsewhere : label.process? ≠ some other) :
    (revocationStep world label).appends other = world.appends other := by
  have different {process : Nat} (moved : label.process? = some process) :
      other ≠ process := by
    rintro rfl
    exact elsewhere moved
  cases label with
  | append process entry =>
      simp only [revocationStep]
      cases world.appends process with
      | none => exact Function.update_of_ne (different rfl) _ _
      | some stage => rfl
  | advance process extra =>
      simp only [revocationStep]
      cases world.appends process with
      | none => rfl
      | some stage =>
          cases stage with
          | reading entry => exact Function.update_of_ne (different rfl) _ _
          | opening raw entry =>
              exact Function.update_of_ne (different rfl) _ _
          | writing text written actor =>
              simp only [appendStep]
              split_ifs <;> exact Function.update_of_ne (different rfl) _ _
  | crash process => exact Function.update_of_ne (different rfl) _ _
  | build arguments => rfl

theorem appends_run {other : Nat} {labels : List RevocationLabel}
    (elsewhere : ∀ label ∈ labels, label.process? ≠ some other)
    (world : RevocationWorld) :
    (run revocationStep world labels).appends other = world.appends other := by
  induction labels generalizing world with
  | nil => rfl
  | cons label rest induction =>
      rw [run_cons, induction fun next member =>
        elsewhere next (List.mem_cons_of_mem _ member)]
      exact appends_revocationStep (elsewhere label List.mem_cons_self)

theorem not_torn_run {processes : List Nat} {labels : List RevocationLabel}
    {world : RevocationWorld} (idle : ∀ other, world.appends other = none)
    (among : ∀ label ∈ labels, ∀ process ∈ label.process?,
      process ∈ processes)
    (quiet : ∀ process ∈ processes,
      ∀ stage ∈ (run revocationStep world labels).appends process,
        stage.isWriting = false) :
    ¬(run revocationStep world labels).Torn := by
  rintro ⟨other, stage, found, writes⟩
  by_cases moves : other ∈ processes
  · rw [quiet other moves stage found] at writes
    cases writes
  · have elsewhere : ∀ label ∈ labels, label.process? ≠ some other := by
      intro label member moved
      exact moves (among label member other moved)
    rw [appends_run elsewhere, idle other] at found
    cases found

def revocationOf (actor : String) : RevokedActorEntry where
  actor := actor
  revokedAt := "2026-01-01T00:00:00.000Z"
  reason := none

/-- No list yet, and no append under way. -/
def noRevocations : RevocationWorld where
  file := none
  appends := fun _ => none
  returned := []

/-- A build with one token, of alice. -/
def aliceBuild : RegistryBuild where
  path := "revoked-actors.json"
  options :=
    { apiKey := none
      records :=
        [{ token := "secret"
           actor := "alice"
           role := .admin
           tenants := none
           owner := false
           agent := false
           expiresAt := none }]
      tokensJson := none
      tokensFile := none }
  others := fun _ => none
  salts := fun _ => [1]
  loadedAt := 0

/-- Two processes read the same list before either rewrites it. -/
def lostRevocationLabels : List RevocationLabel :=
  [.append 1 (revocationOf "alice"), .append 2 (revocationOf "bob"),
    .advance 1 0, .advance 2 0, .advance 1 0, .advance 1 200, .advance 2 0,
    .advance 2 200, .build aliceBuild]

/-- The second rewrite drops the first revocation. -/
theorem lostRevocation_resolves :
    ¬Always revocationStep
      (RevocationHonoured plainEnvironment constantScrypt) noRevocations
      lostRevocationLabels := by
  rintro ⟨-, -, -, -, -, -, -, -, honoured, -⟩
  have built : aliceBuild.result plainEnvironment constantScrypt
      (run revocationStep noRevocations lostRevocationLabels) =
      .ok
        { records :=
            [{ salt := [1]
               hash := List.replicate 32 7
               identity :=
                 { actor := "alice"
                   role := .admin
                   tenants := none
                   owner := false
                   agent := false }
               expiresAtMs := none
               revoked := false }] } := by
    decide +kernel
  exact honoured (by decide) _ built 0 "secret" _ rfl (by decide +kernel)

/-- Two calls at once: the second reads the list that the first has written,
and the build honours the revocation. -/
theorem revocation_honoured_alone :
    Always revocationStep
      (RevocationHonoured plainEnvironment constantScrypt) noRevocations
      [.append 1 (revocationOf "alice"), .append 2 (revocationOf "bob"),
        .advance 1 0, .advance 1 0, .advance 1 400, .advance 2 0, .advance 2 0,
        .advance 2 400, .build aliceBuild] := by
  apply revocations_honoured (fun _ => rfl) rfl
  have named (actor : String) (given : actor ≠ "") :
      (revocationOf actor).actor ≠ "" :=
    given
  have whole (labels : List RevocationLabel)
      (among : ∀ label ∈ labels, ∀ process ∈ label.process?,
        process ∈ [1, 2])
      (quiet : ∀ process ∈ [1, 2],
        ∀ stage ∈ (run revocationStep noRevocations labels).appends process,
          stage.isWriting = false) :
      ¬(run revocationStep noRevocations labels).Torn :=
    not_torn_run (fun _ => rfl) among quiet
  refine ⟨named "alice" (by decide), named "bob" (by decide), ?_, ⟨?_, rfl⟩,
    trivial, ?_, ⟨?_, rfl⟩, trivial, ?_, trivial⟩
  · exact whole
      [.append 1 (revocationOf "alice"), .append 2 (revocationOf "bob")]
      (by decide) (by decide)
  · exact whole
      [.append 1 (revocationOf "alice"), .append 2 (revocationOf "bob"),
        .advance 1 0]
      (by decide) (by decide +kernel)
  · exact whole
      [.append 1 (revocationOf "alice"), .append 2 (revocationOf "bob"),
        .advance 1 0, .advance 1 0, .advance 1 400]
      (by decide) (by decide +kernel)
  · exact whole
      [.append 1 (revocationOf "alice"), .append 2 (revocationOf "bob"),
        .advance 1 0, .advance 1 0, .advance 1 400, .advance 2 0]
      (by decide) (by decide +kernel)
  · have settled := whole
      [.append 1 (revocationOf "alice"), .append 2 (revocationOf "bob"),
        .advance 1 0, .advance 1 0, .advance 1 400, .advance 2 0, .advance 2 0,
        .advance 2 400]
      (by decide) (by decide +kernel)
    simp only [run_cons, run_nil] at settled
    exact settled

end Registrar
