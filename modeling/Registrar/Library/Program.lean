import Mathlib.Data.List.Forall2
import Mathlib.Data.List.Basic

/-!
# Programs with state and exceptions

Triples for programs in `EStateM`.  A program starts in a state, ends in a
state and returns a value or throws; a triple bounds both ways to end.  A
transaction is a program whose writes are undone when it throws.
-/

namespace Program

variable {Error State Value Other : Type}

/-- From every state in `before`, the program returns into `after` or throws
into `failed`. -/
structure Triple (before : State → Prop) (program : EStateM Error State Value)
    (after : Value → State → Prop) (failed : Error → State → Prop) : Prop where
  run : ∀ state, before state →
    match program state with
    | .ok value next => after value next
    | .error error next => failed error next

/-- The program keeps an assertion, whichever way it ends. -/
def Keeps (invariant : State → Prop) (program : EStateM Error State Value) :
    Prop :=
  Triple invariant program (fun _ => invariant) (fun _ => invariant)

/-- Undo the writes of a program that throws. -/
def transaction (program : EStateM Error State Value) :
    EStateM Error State Value :=
  fun state =>
    match program state with
    | .ok value next => .ok value next
    | .error error _ => .error error state

/-- Read something off the state. -/
def query (read : State → Value) : EStateM Error State Value :=
  fun state => .ok (read state) state

/-- Throw unless the condition holds. -/
def ensure (condition : Prop) [Decidable condition] (error : Error) :
    EStateM Error State PUnit :=
  if condition then pure ⟨⟩ else throw error

/-- Run a program under a condition. -/
def when (condition : Prop) [Decidable condition]
    (program : EStateM Error State PUnit) : EStateM Error State PUnit :=
  if condition then program else pure ⟨⟩

/-- The state in which the program ends. -/
def finalState (program : EStateM Error State Value) (state : State) : State :=
  match program state with
  | .ok _ next => next
  | .error _ next => next

section Run

theorem bind_apply_of_ok {first : EStateM Error State Other}
    {rest : Other → EStateM Error State Value} {state next : State}
    {value : Other} (ended : first state = .ok value next) :
    (first >>= rest) state = rest value next := by
  change EStateM.bind first rest state = rest value next
  rw [EStateM.bind, ended]

theorem bind_apply_of_error {first : EStateM Error State Other}
    {rest : Other → EStateM Error State Value} {state next : State}
    {error : Error} (ended : first state = .error error next) :
    (first >>= rest) state = .error error next := by
  change EStateM.bind first rest state = .error error next
  rw [EStateM.bind, ended]

@[simp]
theorem pure_apply (value : Value) (state : State) :
    (pure value : EStateM Error State Value) state = .ok value state :=
  rfl

@[simp]
theorem throw_apply (error : Error) (state : State) :
    (throw error : EStateM Error State Value) state = .error error state :=
  rfl

@[simp]
theorem query_apply (read : State → Value) (state : State) :
    (query read : EStateM Error State Value) state = .ok (read state) state :=
  rfl

theorem finalState_bind_of_ok {first : EStateM Error State Other}
    {rest : Other → EStateM Error State Value} {state next : State}
    {value : Other} (ended : first state = .ok value next) :
    finalState (first >>= rest) state = finalState (rest value) next := by
  unfold finalState
  rw [bind_apply_of_ok ended]

theorem finalState_bind_of_error {first : EStateM Error State Other}
    {rest : Other → EStateM Error State Value} {state next : State}
    {error : Error} (ended : first state = .error error next) :
    finalState (first >>= rest) state = next := by
  unfold finalState
  rw [bind_apply_of_error ended]

theorem finalState_bind_pure (program : EStateM Error State Other)
    (result : Other → Value) (state : State) :
    finalState (program >>= fun value => pure (result value)) state =
      finalState program state := by
  cases ended : program state with
  | ok value next =>
      rw [finalState_bind_of_ok ended]
      simp only [finalState, ended, pure_apply]
  | error error next =>
      rw [finalState_bind_of_error ended]
      simp only [finalState, ended]

theorem tryCatch_apply_of_ok {program : EStateM Error State Value}
    {handler : Error → EStateM Error State Value} {state next : State}
    {value : Value} (ended : program state = .ok value next) :
    tryCatch program handler state = .ok value next := by
  change EStateM.tryCatch program handler state = .ok value next
  rw [EStateM.tryCatch, ended]

theorem tryCatch_apply_of_error {program : EStateM Error State Value}
    {handler : Error → EStateM Error State Value} {state next : State}
    {error : Error} (ended : program state = .error error next) :
    tryCatch program handler state = handler error next := by
  change EStateM.tryCatch program handler state = handler error next
  rw [EStateM.tryCatch, ended]
  rfl

/-- A program whose error is caught as a value. -/
theorem attempt_apply {program : EStateM Error State PUnit} (state : State) :
    ∃ failure : Option Error,
      (tryCatch
          (do
            program
            pure none)
          fun error => pure (some error) :
        EStateM Error State (Option Error)) state =
        .ok failure (finalState program state) := by
  unfold finalState
  cases ended : program state with
  | ok value next =>
      exact ⟨none, tryCatch_apply_of_ok (bind_apply_of_ok ended)⟩
  | error error next =>
      exact ⟨some error, tryCatch_apply_of_error (bind_apply_of_error ended)⟩

theorem bind_eq_ok_iff {first : EStateM Error State Other}
    {rest : Other → EStateM Error State Value} {state final : State}
    {result : Value} :
    (first >>= rest) state = .ok result final ↔
      ∃ value next, first state = .ok value next ∧
        rest value next = .ok result final := by
  cases ended : first state with
  | ok value next => simp [bind_apply_of_ok ended]
  | error error next => simp [bind_apply_of_error ended]

theorem except_bind_eq_ok_iff {first : Except Error Other}
    {rest : Other → Except Error Value} {result : Value} :
    (first >>= rest) = .ok result ↔
      ∃ value, first = .ok value ∧ rest value = .ok result := by
  cases first <;> simp [bind, Except.bind]

/-- Where checking a list fails, checking one of its items fails so. -/
theorem exists_of_mapM_eq_error {Item Result : Type}
    {check : Item → Except Error Result} {items : List Item} {error : Error}
    (refused : items.mapM check = .error error) :
    ∃ item ∈ items, check item = .error error := by
  induction items with
  | nil => cases refused
  | cons item rest induction =>
      rw [List.mapM_cons] at refused
      cases first : check item with
      | error other =>
          rw [first] at refused
          cases refused
          exact ⟨item, List.mem_cons_self, first⟩
      | ok result =>
          cases others : rest.mapM check with
          | error other =>
              rw [first, others] at refused
              cases refused
              obtain ⟨later, member, failed⟩ := induction others
              exact ⟨later, List.mem_cons_of_mem item member, failed⟩
          | ok results =>
              rw [first, others] at refused
              cases refused

theorem exists_of_forall₂_right {First Second : Type}
    {related : First → Second → Prop} {firsts : List First}
    {seconds : List Second} (all : List.Forall₂ related firsts seconds)
    {second : Second} (member : second ∈ seconds) :
    ∃ first ∈ firsts, related first second := by
  induction all with
  | nil => cases member
  | cons here rest induction =>
      rcases List.mem_cons.mp member with rfl | later
      · exact ⟨_, List.mem_cons_self, here⟩
      · obtain ⟨first, inRest, holds⟩ := induction later
        exact ⟨first, List.mem_cons_of_mem _ inRest, holds⟩

theorem mapM_eq_some_iff {First Result : Type} {f : First → Option Result}
    {items : List First} {kept : List Result} :
    items.mapM f = some kept ↔
      List.Forall₂ (fun item result => f item = some result) items kept := by
  induction items generalizing kept with
  | nil => simp [eq_comm]
  | cons item items induction =>
      rw [List.mapM_cons, Option.bind_eq_bind, Option.bind_eq_some_iff]
      constructor
      · rintro ⟨first, isFirst, rest⟩
        obtain ⟨others, isOthers, same⟩ := Option.bind_eq_some_iff.mp rest
        cases same
        exact .cons isFirst (induction.mp isOthers)
      · intro all
        cases all with
        | cons isFirst rest =>
            refine ⟨_, isFirst, ?_⟩
            rw [induction.mpr rest]
            rfl

theorem mapM_eq_ok_iff {First Result Failure : Type}
    {f : First → Except Failure Result} {items : List First}
    {kept : List Result} :
    items.mapM f = .ok kept ↔
      List.Forall₂ (fun item result => f item = .ok result) items kept := by
  induction items generalizing kept with
  | nil => simp [pure, Except.pure, eq_comm]
  | cons item items induction =>
      rw [List.mapM_cons, except_bind_eq_ok_iff]
      constructor
      · rintro ⟨first, isFirst, rest⟩
        obtain ⟨others, areOthers, same⟩ :=
          except_bind_eq_ok_iff.mp rest
        cases same
        exact .cons isFirst (induction.mp areOthers)
      · intro all
        cases all with
        | cons isFirst rest =>
            exact ⟨_, isFirst, except_bind_eq_ok_iff.mpr
              ⟨_, induction.mpr rest, rfl⟩⟩

@[simp]
theorem transaction_eq_ok_iff {program : EStateM Error State Value}
    {state final : State} {result : Value} :
    transaction program state = .ok result final ↔
      program state = .ok result final := by
  unfold transaction
  cases program state <;> simp

theorem eq_of_transaction_eq_error {program : EStateM Error State Value}
    {state final : State} {error : Error}
    (thrown : transaction program state = .error error final) :
    final = state := by
  unfold transaction at thrown
  cases ended : program state <;> simp [ended] at thrown
  exact thrown.2.symm

@[simp]
theorem ensure_eq_ok_iff {condition : Prop} [Decidable condition]
    {error : Error} {state final : State} {result : PUnit} :
    ensure condition error state = .ok result final ↔
      condition ∧ final = state := by
  unfold ensure
  split_ifs with holds <;> simp [holds, eq_comm]

theorem ensure_apply_of_holds {condition : Prop} [Decidable condition]
    {error : Error} (holds : condition) (state : State) :
    (ensure condition error : EStateM Error State PUnit) state =
      .ok ⟨⟩ state :=
  ensure_eq_ok_iff.mpr ⟨holds, rfl⟩

theorem eq_of_keeps {program : EStateM Error State Value}
    {state final : State} {value : Value}
    (keeps : Keeps (· = state) program)
    (ended : program state = .ok value final) : final = state := by
  have kept := keeps.run state rfl
  rw [ended] at kept
  exact kept

theorem when_eq_ok_iff {condition : Prop} [Decidable condition]
    {program : EStateM Error State PUnit} {state final : State}
    {result : PUnit} :
    when condition program state = .ok result final ↔
      if condition then program state = .ok result final
      else final = state := by
  unfold when
  split_ifs with holds <;> simp [eq_comm]

end Run

section Triple

variable {before : State → Prop} {after : Value → State → Prop}
variable {failed : Error → State → Prop}

theorem Triple.weaken
    {program : EStateM Error State Value}
    {before' : State → Prop} {after' : Value → State → Prop}
    {failed' : Error → State → Prop}
    (triple : Triple before program after failed)
    (pre : ∀ state, before' state → before state)
    (post : ∀ value state, after value state → after' value state)
    (fail : ∀ error state, failed error state → failed' error state) :
    Triple before' program after' failed' := by
  constructor
  intro state start
  have result := triple.run state (pre state start)
  cases ended : program state with
  | ok value next =>
      rw [ended] at result
      exact post value next result
  | error error next =>
      rw [ended] at result
      exact fail error next result

theorem Triple.anyFailure {program : EStateM Error State Value}
    (triple : Triple before program after failed) :
    Triple before program after fun _ _ => True :=
  Triple.weaken triple (fun _ start => start) (fun _ _ ended => ended)
    fun _ _ _ => trivial

theorem Triple.of_ok {program : EStateM Error State Value}
    (returns : ∀ state value next, before state →
      program state = .ok value next → after value next) :
    Triple before program after fun _ _ => True := by
  constructor
  intro state start
  cases ended : program state with
  | ok value next => exact returns state value next start ended
  | error error next => trivial

theorem Triple.assume {program : EStateM Error State Value} {fact : Prop}
    (triple : fact → Triple before program after failed) :
    Triple (fun state => fact ∧ before state) program after failed :=
  ⟨fun state start => (triple start.1).run state start.2⟩

theorem Triple.pure (value : Value)
    (start : ∀ state, before state → after value state) :
    Triple before (pure value : EStateM Error State Value) after failed :=
  ⟨start⟩

theorem Triple.throw (error : Error)
    (start : ∀ state, before state → failed error state) :
    Triple before (throw error : EStateM Error State Value) after failed :=
  ⟨start⟩

theorem Triple.query {Result : Type} {read : State → Result}
    {after : Result → State → Prop}
    (start : ∀ state, before state → after (read state) state) :
    Triple before (query read : EStateM Error State Result) after failed :=
  ⟨start⟩

theorem Triple.query_eq (read : State → Value) :
    Triple before (Program.query read : EStateM Error State Value)
      (fun value state => read state = value ∧ before state) failed :=
  ⟨fun _ start => ⟨rfl, start⟩⟩

theorem Triple.bind
    {first : EStateM Error State Other}
    {rest : Other → EStateM Error State Value}
    {middle : Other → State → Prop}
    (firstTriple : Triple before first middle failed)
    (restTriple : ∀ value, Triple (middle value) (rest value) after failed) :
    Triple before (first >>= rest) after failed := by
  constructor
  intro state start
  have result := firstTriple.run state start
  cases ended : first state with
  | ok value next =>
      rw [ended] at result
      rw [bind_apply_of_ok ended]
      exact (restTriple value).run next result
  | error error next =>
      rw [ended] at result
      rw [bind_apply_of_error ended]
      exact result

theorem Triple.ite {condition : Prop} [Decidable condition]
    {left right : EStateM Error State Value}
    (onTrue : condition → Triple before left after failed)
    (onFalse : ¬condition → Triple before right after failed) :
    Triple before (if condition then left else right) after failed := by
  split_ifs with holds
  · exact onTrue holds
  · exact onFalse holds

theorem Triple.ensure {condition : Prop} [Decidable condition] {error : Error}
    {after : PUnit → State → Prop}
    (onTrue : condition → ∀ state, before state → after ⟨⟩ state)
    (onFalse : ¬condition → ∀ state, before state → failed error state) :
    Triple before (ensure condition error : EStateM Error State PUnit) after
      failed :=
  Triple.ite (fun holds => Triple.pure _ (onTrue holds))
    (fun fails => Triple.throw _ (onFalse fails))

/-- Past an `ensure` its condition holds. -/
theorem Triple.ensured {condition : Prop} [Decidable condition]
    {error : Error}
    (fails : ∀ state, before state → failed error state) :
    Triple before
      (Program.ensure condition error : EStateM Error State PUnit)
      (fun _ state => condition ∧ before state) failed :=
  Triple.ensure (fun holds _ start => ⟨holds, start⟩) fun _ => fails

theorem Triple.tryCatch
    {program : EStateM Error State Value}
    {handler : Error → EStateM Error State Value}
    {thrown : Error → State → Prop}
    (programTriple : Triple before program after thrown)
    (handlerTriple : ∀ error,
      Triple (thrown error) (handler error) after failed) :
    Triple before (tryCatch program handler) after failed := by
  constructor
  intro state start
  have result := programTriple.run state start
  change match EStateM.tryCatch program handler state with
    | .ok value next => after value next
    | .error error next => failed error next
  unfold EStateM.tryCatch
  cases ended : program state with
  | ok value next =>
      rw [ended] at result
      exact result
  | error error next =>
      rw [ended] at result
      exact (handlerTriple error).run next result

theorem Triple.optional {Item : Type} {found : Option Item}
    {body : Item → EStateM Error State PUnit} {after : State → Prop}
    (present : ∀ item, found = some item →
      Triple before (body item) (fun _ => after) failed)
    (absent : found = none → ∀ state, before state → after state) :
    Triple before (found.toList.forM body) (fun _ => after) failed := by
  cases found with
  | none => exact Triple.pure _ (absent rfl)
  | some item =>
      apply Triple.bind (present item rfl)
      intro _
      exact Triple.pure _ fun _ ended => ended

theorem Triple.forM {Item : Type} {items : List Item}
    {body : Item → EStateM Error State PUnit}
    (steps : ∀ item ∈ items,
      Triple before (body item) (fun _ => before) failed) :
    Triple before (items.forM body) (fun _ => before) failed := by
  induction items with
  | nil => exact Triple.pure _ fun _ start => start
  | cons item rest induction =>
      apply Triple.bind (steps item List.mem_cons_self)
      intro _
      apply induction
      intro later member
      exact steps later (List.mem_cons_of_mem item member)

theorem Triple.mapM {Item Result : Type} {items : List Item}
    {body : Item → EStateM Error State Result}
    (steps : ∀ item ∈ items,
      Triple before (body item) (fun _ => before) failed) :
    Triple before (items.mapM body) (fun _ => before) failed := by
  induction items with
  | nil =>
      rw [List.mapM_nil]
      exact Triple.pure _ fun _ start => start
  | cons item rest induction =>
      rw [List.mapM_cons]
      apply Triple.bind (steps item List.mem_cons_self)
      intro result
      apply Triple.bind
      · apply induction
        intro later member
        exact steps later (List.mem_cons_of_mem item member)
      · intro results
        exact Triple.pure _ fun _ start => start

/-- A loop whose body changes a ghost value step by step. -/
theorem Triple.forM_foldl {Item Ghost : Type} {items : List Item}
    {body : Item → EStateM Error State PUnit} {change : Ghost → Item → Ghost}
    {holds : Ghost → State → Prop}
    (steps : ∀ item ∈ items, ∀ ghost, Triple (holds ghost) (body item)
      (fun _ => holds (change ghost item)) failed)
    (ghost : Ghost) :
    Triple (holds ghost) (items.forM body)
      (fun _ => holds (items.foldl change ghost)) failed := by
  induction items generalizing ghost with
  | nil => exact Triple.pure _ fun _ start => start
  | cons item rest induction =>
      apply Triple.bind (steps item List.mem_cons_self ghost)
      intro _
      apply induction
      intro later member
      exact steps later (List.mem_cons_of_mem item member)

/-- A transaction that throws leaves the state as it was. -/
theorem Triple.transaction
    {program : EStateM Error State Value}
    (inside : Triple before program after fun _ _ => True)
    (rolledBack : ∀ error state, before state → failed error state) :
    Triple before (transaction program) after failed := by
  constructor
  intro state start
  have result := inside.run state start
  unfold Program.transaction
  cases ended : program state with
  | ok value next =>
      rw [ended] at result
      exact result
  | error error next => exact rolledBack error state start

theorem Triple.and
    {program : EStateM Error State Value}
    {before' : State → Prop} {after' : Value → State → Prop}
    {failed' : Error → State → Prop}
    (left : Triple before program after failed)
    (right : Triple before' program after' failed') :
    Triple (fun state => before state ∧ before' state) program
      (fun value state => after value state ∧ after' value state)
      (fun error state => failed error state ∧ failed' error state) := by
  constructor
  intro state start
  have leftResult := left.run state start.1
  have rightResult := right.run state start.2
  cases ended : program state <;> rw [ended] at leftResult rightResult <;>
    exact ⟨leftResult, rightResult⟩

end Triple

/-- Where a program that returns leads to `after` and one that throws undoes its
writes, it ends in `after` if doing nothing does. -/
theorem Triple.finalState {program : EStateM Error State Value}
    {before after : State → Prop} {state : State}
    (triple : Triple before program (fun _ => after) (fun _ => before))
    (unchanged : ∀ state, before state → after state) (start : before state) :
    after (Program.finalState program state) := by
  have result := triple.run state start
  unfold Program.finalState
  cases ended : program state with
  | ok value next =>
      rw [ended] at result
      exact result
  | error error next =>
      rw [ended] at result
      exact unchanged next result

section Keeps

variable {invariant : State → Prop}

theorem Keeps.pure (value : Value) :
    Keeps invariant (pure value : EStateM Error State Value) :=
  ⟨fun _ start => start⟩

theorem Keeps.throw (error : Error) :
    Keeps invariant (throw error : EStateM Error State Value) :=
  ⟨fun _ start => start⟩

theorem Keeps.query (read : State → Value) :
    Keeps invariant (query read : EStateM Error State Value) :=
  ⟨fun _ start => start⟩

theorem Keeps.assume {fact : Prop} {program : EStateM Error State Value}
    (keeps : fact → Keeps invariant program) :
    Keeps (fun state => fact ∧ invariant state) program := by
  apply Triple.assume
  intro holds
  exact Triple.weaken (keeps holds) (fun _ start => start)
    (fun _ _ ended => ⟨holds, ended⟩) fun _ _ ended => ⟨holds, ended⟩

theorem Keeps.exists {Ghost : Type} {family : Ghost → State → Prop}
    {program : EStateM Error State Value}
    (keeps : ∀ ghost, Keeps (family ghost) program) :
    Keeps (fun state => ∃ ghost, family ghost state) program := by
  constructor
  rintro state ⟨ghost, start⟩
  have result := (keeps ghost).run state start
  cases ended : program state with
  | ok value next =>
      rw [ended] at result
      exact ⟨ghost, result⟩
  | error error next =>
      rw [ended] at result
      exact ⟨ghost, result⟩

theorem Keeps.bind
    {first : EStateM Error State Other}
    {rest : Other → EStateM Error State Value}
    (firstKeeps : Keeps invariant first)
    (restKeeps : ∀ value, Keeps invariant (rest value)) :
    Keeps invariant (first >>= rest) :=
  Triple.bind firstKeeps restKeeps

theorem Keeps.ite {condition : Prop} [Decidable condition]
    {left right : EStateM Error State Value}
    (onTrue : condition → Keeps invariant left)
    (onFalse : ¬condition → Keeps invariant right) :
    Keeps invariant (if condition then left else right) :=
  Triple.ite onTrue onFalse

theorem Keeps.ensure (condition : Prop) [Decidable condition]
    (error : Error) :
    Keeps invariant (ensure condition error : EStateM Error State PUnit) :=
  Keeps.ite (fun _ => Keeps.pure _) (fun _ => Keeps.throw _)

theorem Keeps.when {condition : Prop} [Decidable condition]
    {program : EStateM Error State PUnit}
    (programKeeps : condition → Keeps invariant program) :
    Keeps invariant (when condition program) :=
  Keeps.ite programKeeps (fun _ => Keeps.pure _)

theorem Keeps.transaction
    {program : EStateM Error State Value}
    (inside : Keeps invariant program) :
    Keeps invariant (transaction program) :=
  Triple.transaction (Triple.anyFailure inside) fun _ _ start => start

theorem Keeps.tryCatch
    {program : EStateM Error State Value}
    {handler : Error → EStateM Error State Value}
    (programKeeps : Keeps invariant program)
    (handlerKeeps : ∀ error, Keeps invariant (handler error)) :
    Keeps invariant (tryCatch program handler) :=
  Triple.tryCatch programKeeps handlerKeeps

theorem Keeps.recover {program : EStateM Error State Value}
    (keeps : Keeps invariant program) (value : Value) :
    Triple invariant (MonadExcept.tryCatch program fun _ => Pure.pure value)
      (fun _ => invariant) fun _ _ => False :=
  Triple.tryCatch keeps fun _ => Triple.pure value fun _ start => start

theorem Keeps.forM {Item : Type} {items : List Item}
    {body : Item → EStateM Error State PUnit}
    (bodyKeeps : ∀ item ∈ items, Keeps invariant (body item)) :
    Keeps invariant (items.forM body) :=
  Triple.forM bodyKeeps

theorem Keeps.mapM {Item Result : Type} {items : List Item}
    {body : Item → EStateM Error State Result}
    (bodyKeeps : ∀ item ∈ items, Keeps invariant (body item)) :
    Keeps invariant (items.mapM body) :=
  Triple.mapM bodyKeeps

theorem Keeps.finalState
    {program : EStateM Error State Value}
    (keeps : Keeps invariant program) {state : State}
    (start : invariant state) :
    invariant (finalState program state) := by
  have result := keeps.run state start
  unfold Program.finalState
  cases ended : program state <;> rw [ended] at result <;> exact result

end Keeps

/-- Every error that the program throws is of a kind. -/
def Throws (kind : Error → Prop) (program : EStateM Error State Value) :
    Prop :=
  Triple (fun _ => True) program (fun _ _ => True) (fun error _ => kind error)

section Throws

variable {kind : Error → Prop}

theorem Throws.ofKind {program : EStateM Error State Value}
    (throws : Throws kind program) {state final : State} {error : Error}
    (ended : program state = .error error final) : kind error := by
  have result := throws.run state trivial
  rw [ended] at result
  exact result

theorem Throws.pure (value : Value) :
    Throws kind (pure value : EStateM Error State Value) :=
  ⟨fun _ _ => trivial⟩

theorem Throws.throw {error : Error} (ofKind : kind error) :
    Throws kind (throw error : EStateM Error State Value) :=
  ⟨fun _ _ => ofKind⟩

theorem Throws.query (read : State → Value) :
    Throws kind (query read : EStateM Error State Value) :=
  ⟨fun _ _ => trivial⟩

theorem Throws.bind
    {first : EStateM Error State Other}
    {rest : Other → EStateM Error State Value}
    (firstThrows : Throws kind first)
    (restThrows : ∀ value, Throws kind (rest value)) :
    Throws kind (first >>= rest) :=
  Triple.bind firstThrows restThrows

theorem Throws.ensure {condition : Prop} [Decidable condition] {error : Error}
    (ofKind : kind error) :
    Throws kind (ensure condition error : EStateM Error State PUnit) :=
  Triple.ensure (fun _ _ _ => trivial) (fun _ _ _ => ofKind)

theorem Throws.when {condition : Prop} [Decidable condition]
    {program : EStateM Error State PUnit}
    (programThrows : Throws kind program) :
    Throws kind (when condition program) :=
  Triple.ite (fun _ => programThrows) (fun _ => Throws.pure _)

theorem Throws.transaction {program : EStateM Error State Value}
    (inside : Throws kind program) :
    Throws kind (transaction program) := by
  constructor
  intro state _
  unfold Program.transaction
  cases ended : program state with
  | ok value next => trivial
  | error error next => exact inside.ofKind ended

theorem Throws.tryCatch
    {program : EStateM Error State Value}
    {handler : Error → EStateM Error State Value}
    (handlerThrows : ∀ error, Throws kind (handler error)) :
    Throws kind (tryCatch program handler) := by
  have anything : Triple (fun _ => True) program (fun _ _ => True)
      (fun _ _ => True) := by
    constructor
    intro state _
    cases program state <;> trivial
  exact Triple.tryCatch anything handlerThrows

theorem Throws.forM {Item : Type} {items : List Item}
    {body : Item → EStateM Error State PUnit}
    (bodyThrows : ∀ item, Throws kind (body item)) :
    Throws kind (items.forM body) := by
  induction items with
  | nil => exact Throws.pure _
  | cons item rest induction =>
      exact Throws.bind (bodyThrows item) fun _ => induction

end Throws

end Program
