import Registrar.Library.Transition
import Registrar.Schema.Common

/-!
# The daemon's lock file

A daemon holds the lock while the lock file names it.  Taking and releasing the
lock are sequences of file-system calls, and between two calls of one process
any number of others may run.
-/

namespace Registrar

open Transition

/-- The sign that `parseInt` reads, and the characters after it. -/
def splitSign : List Char → Int × List Char
  | '-' :: rest => (-1, rest)
  | '+' :: rest => (1, rest)
  | chars => (1, chars)

/-- `parseInt(text, 10)` -/
def parseDecimal (text : String) : Option Int :=
  let signed := splitSign (trim text).toList
  let digits := signed.2.takeWhile Char.isDigit
  if digits = [] then none
  else some (signed.1 * Nat.ofDigitChars 10 digits 0)

/-- The process id that the file holds, if there is a file and it holds one. -/
def readPidFile (file : Option String) : Option Int :=
  file.bind parseDecimal

theorem isTrimmedSpace_of_isDigit {char : Char} (digit : char.isDigit = true) :
    isTrimmedSpace char = false := by
  unfold Char.isDigit at digit
  simp only [ge_iff_le, Bool.and_eq_true, decide_eq_true_eq] at digit
  have low : 48 ≤ char.toNat := digit.1
  have high : char.toNat ≤ 57 := digit.2
  unfold isTrimmedSpace
  simp
  omega

theorem splitSign_of_isDigit {first : Char} {rest : List Char}
    (digit : first.isDigit = true) :
    splitSign (first :: rest) = (1, first :: rest) := by
  unfold splitSign
  split
  · simp_all [Char.isDigit]
  · simp_all [Char.isDigit]
  · rfl

/-- A process reads back the id that it wrote. -/
theorem readPidFile_repr (pid : Nat) :
    readPidFile (some (Nat.repr pid)) = some (pid : Int) := by
  have chars : (Nat.repr pid).toList = Nat.toDigits 10 pid := by
    rw [Nat.repr, String.toList_ofList]
  have digits : ∀ char ∈ Nat.toDigits 10 pid, char.isDigit = true :=
    fun char member => Nat.isDigit_of_mem_toDigits (by decide) (by decide) member
  have solid : trim (Nat.repr pid) = Nat.repr pid := by
    apply Trim.trim_eq_self
    intro char member
    rw [chars] at member
    exact isTrimmedSpace_of_isDigit (digits char member)
  have unsigned : splitSign (Nat.toDigits 10 pid) =
      (1, Nat.toDigits 10 pid) := by
    cases text : Nat.toDigits 10 pid with
    | nil => exact absurd text Nat.toDigits_ne_nil
    | cons first rest =>
        apply splitSign_of_isDigit
        apply digits
        rw [text]
        exact List.mem_cons_self
  have allDigits : (Nat.toDigits 10 pid).takeWhile Char.isDigit =
      Nat.toDigits 10 pid :=
    List.takeWhile_eq_self_iff.mpr digits
  simp [readPidFile, parseDecimal, solid, chars, unsigned, allDigits,
    Nat.toDigits_ne_nil]

/-- The next call that a process makes on the lock file. -/
inductive LockStage where
  | idle
  | acquireExists
  | acquireRead
  | acquireProbe (existingPid : Option Int)
  | acquireUnlink
  | findDirectory
  | makeDirectory
  | acquireWrite
  | releaseExists
  | releaseRead
  | releaseUnlink
  deriving DecidableEq

/-- A live process; it holds the lock from a true return of `acquireLock` until
its `releaseLock` has returned. -/
structure LockProcess where
  stage : LockStage
  holds : Bool
  deriving DecidableEq

structure LockWorld where
  file : Option String
  directory : Bool
  processes : Nat → Option LockProcess

/-- What the host answers to a signal. -/
structure LockHost where
  /-- The caller may signal the process. -/
  maySignal : Nat → Nat → Bool
  /-- A signal to an id that is not positive goes to a process group. -/
  groupAnswers : Nat → Int → Bool

variable (host : LockHost)

/-- `process.kill(pid, 0)` by the caller does not throw. -/
def isProcessRunning (world : LockWorld) (caller : Nat) (pid : Int) : Bool :=
  match pid with
  | .ofNat (previous + 1) =>
      (world.processes (previous + 1)).isSome &&
        host.maySignal caller (previous + 1)
  | group => host.groupAnswers caller group

namespace LockWorld

/-- The process goes on to its next call. -/
def goto (world : LockWorld) (pid : Nat) (process : LockProcess)
    (stage : LockStage) : LockWorld :=
  { world with
    processes := Function.update world.processes pid
      (some
        { process with
          stage := stage }) }

/-- The call of the process has returned or thrown. -/
def finish (world : LockWorld) (pid : Nat) (holds : Bool) : LockWorld :=
  { world with
    processes := Function.update world.processes pid
      (some
        { stage := .idle
          holds := holds }) }

/-- The next call of `acquireLock`. -/
def acquireStep (world : LockWorld) (pid : Nat) (process : LockProcess) :
    LockWorld :=
  match process.stage with
  | .acquireExists =>
      world.goto pid process
        (if world.file.isSome then .acquireRead else .findDirectory)
  | .acquireRead =>
      world.goto pid process (.acquireProbe (readPidFile world.file))
  | .acquireProbe existingPid =>
      if existingPid.any (isProcessRunning host world pid) then
        world.finish pid process.holds
      else world.goto pid process .acquireUnlink
  | .acquireUnlink =>
      match world.file with
      | none => world.finish pid process.holds
      | some _ =>
          { world with file := none }.goto pid process .findDirectory
  | .findDirectory =>
      world.goto pid process
        (if world.directory then .acquireWrite else .makeDirectory)
  | .makeDirectory =>
      { world with directory := true }.goto pid process .acquireWrite
  | .acquireWrite =>
      if world.directory then
        { world with file := some (Nat.repr pid) }.finish pid true
      else world.finish pid process.holds
  | _ => world

/-- The next call of `releaseLock`. -/
def releaseStep (world : LockWorld) (pid : Nat) (process : LockProcess) :
    LockWorld :=
  match process.stage with
  | .releaseExists =>
      if world.file.isSome then world.goto pid process .releaseRead
      else world.finish pid false
  | .releaseRead =>
      if readPidFile world.file = some (pid : Int) then
        world.goto pid process .releaseUnlink
      else world.finish pid false
  | .releaseUnlink => { world with file := none }.finish pid false
  | _ => world

end LockWorld

inductive LockLabel where
  | spawn (pid : Nat)
  | crash (pid : Nat)
  | acquireLock (pid : Nat)
  | releaseLock (pid : Nat)
  | advance (pid : Nat)
  deriving DecidableEq

/-- A process starts, dies, calls one of the functions, or makes the next call
on the file. -/
def lockStep (world : LockWorld) : LockLabel → LockWorld
  | .spawn pid =>
      match world.processes pid with
      | some _ => world
      | none => world.finish pid false
  | .crash pid =>
      { world with
        processes := Function.update world.processes pid none }
  | .acquireLock pid =>
      match world.processes pid with
      | some { stage := .idle, holds } =>
          world.goto pid { stage := .idle, holds := holds } .acquireExists
      | _ => world
  | .releaseLock pid =>
      match world.processes pid with
      | some { stage := .idle, holds } =>
          world.goto pid { stage := .idle, holds := holds } .releaseExists
      | _ => world
  | .advance pid =>
      match world.processes pid with
      | none => world
      | some process =>
          match process.stage with
          | .releaseExists | .releaseRead | .releaseUnlink =>
              world.releaseStep pid process
          | _ => world.acquireStep host pid process

/-- The process holds the lock, or is about to remove the file as its own. -/
def LockProcess.Claims (process : LockProcess) : Prop :=
  process.holds = true ∨ process.stage = .releaseUnlink

/-- The file names a live process. -/
def LockWorld.namesLive (world : LockWorld) : Bool :=
  match readPidFile world.file with
  | some (.ofNat owner) => (world.processes owner).isSome
  | _ => false

/-- The call of `acquireLock` that removes or overwrites the file. -/
def LockStage.replaces (stage : LockStage) : Bool :=
  stage = .acquireUnlink || stage = .acquireWrite

/-- No call of `acquireLock` removes or overwrites a file that names a live
process. -/
def SparesLive (world : LockWorld) : LockLabel → Prop
  | .advance pid =>
      ∀ process ∈ world.processes pid, process.stage.replaces = true →
        world.namesLive = false
  | _ => True

instance decidableSparesLive (world : LockWorld) :
    ∀ label : LockLabel, Decidable (SparesLive world label)
  | .spawn _ | .crash _ | .acquireLock _ | .releaseLock _ => isTrue trivial
  | .advance pid =>
      inferInstanceAs (Decidable
        (∀ process ∈ world.processes pid, process.stage.replaces = true →
          world.namesLive = false))

/-- The file names every process that relies on it. -/
def LockSound (world : LockWorld) : Prop :=
  ∀ pid process, world.processes pid = some process → process.Claims →
    readPidFile world.file = some (pid : Int)

variable {host}

section Sound

variable {world : LockWorld} {pid : Nat} {process : LockProcess}

theorem namesLive_of_claims (sound : LockSound world)
    (found : world.processes pid = some process) (claims : process.Claims) :
    world.namesLive = true := by
  unfold LockWorld.namesLive
  rw [sound pid process found claims]
  simp [found]

theorem sound_of_update {file : Option String} {directory : Bool}
    (own : process.Claims → readPidFile file = some (pid : Int))
    (others : ∀ other otherProcess, other ≠ pid →
      world.processes other = some otherProcess → otherProcess.Claims →
        readPidFile file = some (other : Int)) :
    LockSound
      { file := file
        directory := directory
        processes := Function.update world.processes pid (some process) } := by
  intro other otherProcess found claims
  by_cases same : other = pid
  · subst same
    simp only [Function.update_self, Option.some.injEq] at found
    subst found
    exact own claims
  · simp only [Function.update_of_ne same] at found
    exact others other otherProcess same found claims

theorem sound_of_goto (sound : LockSound world)
    (found : world.processes pid = some process) {stage : LockStage}
    (stays : stage ≠ .releaseUnlink) :
    LockSound (world.goto pid process stage) := by
  apply sound_of_update
  · rintro (holds | unlinks)
    · exact sound pid process found (.inl holds)
    · exact absurd unlinks stays
  · intro other otherProcess _ foundOther claims
    exact sound other otherProcess foundOther claims

theorem sound_of_finish (sound : LockSound world)
    {holds : Bool}
    (held : holds = true → readPidFile world.file = some (pid : Int)) :
    LockSound (world.finish pid holds) := by
  apply sound_of_update
  · rintro (kept | unlinks)
    · exact held kept
    · cases unlinks
  · intro other otherProcess _ foundOther claims
    exact sound other otherProcess foundOther claims

theorem readPidFile_of_holds (sound : LockSound world)
    (found : world.processes pid = some process)
    (holds : process.holds = true) :
    readPidFile world.file = some (pid : Int) :=
  sound pid process found (.inl holds)

theorem sound_of_replace (sound : LockSound world)
    (spared : world.namesLive = false)
    {next : LockProcess} {file : Option String} {directory : Bool}
    (own : next.Claims → readPidFile file = some (pid : Int)) :
    LockSound
      { file := file
        directory := directory
        processes := Function.update world.processes pid (some next) } := by
  apply sound_of_update own
  intro other otherProcess _ foundOther claims
  have live := namesLive_of_claims sound foundOther claims
  rw [spared] at live
  cases live

theorem acquireStep_sound (sound : LockSound world)
    (found : world.processes pid = some process)
    (spares : process.stage.replaces = true → world.namesLive = false) :
    LockSound (world.acquireStep host pid process) := by
  have kept (holds : process.holds = true) :=
    readPidFile_of_holds sound found holds
  unfold LockWorld.acquireStep
  cases atStage : process.stage with
  | acquireExists =>
      apply sound_of_goto sound found
      split_ifs <;> simp
  | acquireRead => exact sound_of_goto sound found (by simp)
  | acquireProbe existingPid =>
      dsimp only
      split_ifs
      · exact sound_of_finish sound kept
      · exact sound_of_goto sound found (by simp)
  | acquireUnlink =>
      have spared : world.namesLive = false := by
        apply spares
        simp [atStage, LockStage.replaces]
      dsimp only
      split
      · exact sound_of_finish sound kept
      · apply sound_of_replace sound spared
        rintro (holds | unlinks)
        · have live := namesLive_of_claims sound found (.inl holds)
          rw [spared] at live
          cases live
        · cases unlinks
  | findDirectory =>
      apply sound_of_goto sound found
      split_ifs <;> simp
  | makeDirectory =>
      apply sound_of_update
      · rintro (holds | unlinks)
        · exact kept holds
        · cases unlinks
      · intro other otherProcess _ foundOther claims
        exact sound other otherProcess foundOther claims
  | acquireWrite =>
      have spared : world.namesLive = false := by
        apply spares
        simp [atStage, LockStage.replaces]
      dsimp only
      split_ifs
      · apply sound_of_replace sound spared
        intro _
        exact readPidFile_repr pid
      · exact sound_of_finish sound kept
  | idle => exact sound
  | releaseExists => exact sound
  | releaseRead => exact sound
  | releaseUnlink => exact sound

theorem releaseStep_sound (sound : LockSound world)
    (found : world.processes pid = some process) :
    LockSound (world.releaseStep pid process) := by
  have released : LockSound (world.finish pid false) :=
    sound_of_finish sound (by simp)
  unfold LockWorld.releaseStep
  cases atStage : process.stage with
  | releaseExists =>
      dsimp only
      split_ifs
      · exact sound_of_goto sound found (by simp)
      · exact released
  | releaseRead =>
      dsimp only
      split_ifs with own
      · apply sound_of_update
        · intro _
          exact own
        · intro other otherProcess _ foundOther claims
          exact sound other otherProcess foundOther claims
      · exact released
  | releaseUnlink =>
      -- the file is this process's own, so nobody else relies on it
      have own := sound pid process found (.inr atStage)
      apply sound_of_update
      · rintro (holds | unlinks)
        · cases holds
        · cases unlinks
      · intro other otherProcess different foundOther claims
        have named := sound other otherProcess foundOther claims
        rw [own, Option.some.injEq, Int.natCast_inj] at named
        exact absurd named.symm different
  | idle => exact sound
  | acquireExists => exact sound
  | acquireRead => exact sound
  | acquireProbe existingPid => exact sound
  | acquireUnlink => exact sound
  | findDirectory => exact sound
  | makeDirectory => exact sound
  | acquireWrite => exact sound

end Sound

theorem lockStep_sound (world : LockWorld) (label : LockLabel)
    (sound : LockSound world) (spares : SparesLive world label) :
    LockSound (lockStep host world label) := by
  cases label with
  | spawn pid =>
      simp only [lockStep]
      cases world.processes pid with
      | some process => exact sound
      | none => exact sound_of_finish sound (by simp)
  | crash pid =>
      intro other otherProcess found claims
      by_cases same : other = pid
      · subst same
        simp [lockStep] at found
      · simp only [lockStep, Function.update_of_ne same] at found
        exact sound other otherProcess found claims
  | acquireLock pid =>
      simp only [lockStep]
      split
      · next found => exact sound_of_goto sound found (by simp)
      · exact sound
  | releaseLock pid =>
      simp only [lockStep]
      split
      · next found => exact sound_of_goto sound found (by simp)
      · exact sound
  | advance pid =>
      simp only [lockStep]
      cases found : world.processes pid with
      | none => exact sound
      | some process =>
          dsimp only
          split
          · exact releaseStep_sound sound found
          · exact releaseStep_sound sound found
          · exact releaseStep_sound sound found
          · exact acquireStep_sound sound found (spares process found)

/-- At most one live process holds the lock. -/
def OneHolder (world : LockWorld) : Prop :=
  ∀ left right leftProcess rightProcess,
    world.processes left = some leftProcess →
    world.processes right = some rightProcess →
    leftProcess.holds = true → rightProcess.holds = true → left = right

theorem oneHolder_of_sound {world : LockWorld} (sound : LockSound world) :
    OneHolder world := by
  intro left right leftProcess rightProcess leftFound rightFound leftHolds
    rightHolds
  have namesLeft := readPidFile_of_holds sound leftFound leftHolds
  have namesRight := readPidFile_of_holds sound rightFound rightHolds
  rw [namesLeft, Option.some.injEq, Int.natCast_inj] at namesRight
  exact namesRight

/-- From a state in which nobody has called yet, whatever the file holds, at
most one process holds the lock as long as the calls spare live processes. -/
theorem lock_exclusive {world : LockWorld} {labels : List LockLabel}
    (idle : ∀ pid process, world.processes pid = some process →
      process.stage = .idle ∧ process.holds = false)
    (spares : Always (lockStep host) SparesLive world labels) :
    OneHolder (run (lockStep host) world labels) := by
  apply oneHolder_of_sound
  apply invariant_of_always lockStep_sound _ spares
  intro pid process found claims
  obtain ⟨isIdle, free⟩ := idle pid process found
  rcases claims with holds | unlinks
  · rw [free] at holds
    cases holds
  · rw [isIdle] at unlinks
    cases unlinks

def singleUserHost : LockHost where
  maySignal _ _ := true
  groupAnswers _ _ := true

/-- A directory without a lock file and without a process. -/
def unlockedWorld : LockWorld where
  file := none
  directory := true
  processes := fun _ => none

/-- Two starters that both see no file. -/
def raceLabels : List LockLabel :=
  [.spawn 1, .spawn 2, .acquireLock 1, .acquireLock 2, .advance 1, .advance 2,
    .advance 1, .advance 2, .advance 1, .advance 2]

theorem twoStarters_bothHold :
    ¬ OneHolder (run (lockStep singleUserHost) unlockedWorld raceLabels) := by
  intro one
  have same := one 1 2
    { stage := .idle
      holds := true }
    { stage := .idle
      holds := true }
    rfl rfl rfl rfl
  cases same

theorem lock_exclusive_afterCrash :
    OneHolder
      (run (lockStep singleUserHost) unlockedWorld
        [.spawn 1, .acquireLock 1, .advance 1, .advance 1, .advance 1, .crash 1,
          .spawn 2, .acquireLock 2, .advance 2, .advance 2, .advance 2,
          .advance 2, .advance 2, .advance 2]) := by
  apply lock_exclusive
  · intro pid process found
    cases found
  · decide +kernel

end Registrar
