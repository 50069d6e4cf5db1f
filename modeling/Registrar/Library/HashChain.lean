import Mathlib.Data.List.Basic
import Mathlib.Data.List.Perm.Basic
import Mathlib.Data.List.Count

/-!
# Hash chains

A record of a hash chain stores a digest of its own contents and the digest
stored by the record before it.  A walk carries the hash that the next record
must point at and the hashes of the records found intact so far; it gives each
record a verdict that depends on nothing else.
-/

namespace HashChain

variable {Record Hash : Type*}

/-- What a chain reads of a record: the hash it stores for itself, the hash it
stores for its predecessor, and the digest of its current contents. -/
structure Scheme (Record Hash : Type*) where
  entry : Record → Option Hash
  previous : Record → Option Hash
  digest : Record → Hash

/-- What a walk remembers of the records it has passed. -/
structure Progress (Hash : Type*) where
  expected : Option Hash
  seen : List Hash

/-- The finding for one record. -/
inductive Verdict where
  | unverified
  | clean
  | fork
  | linkMismatch
  | entryMismatch
  | linkAndEntryMismatch
  deriving DecidableEq, Repr

/-- A verdict that a walk reports as a break. -/
def Verdict.IsBreak (verdict : Verdict) : Prop :=
  verdict ≠ .unverified ∧ verdict ≠ .clean

instance (verdict : Verdict) : Decidable verdict.IsBreak :=
  inferInstanceAs (Decidable (_ ∧ _))

/-- A break that is not a mere ordering fork. -/
def Verdict.IsTamper (verdict : Verdict) : Prop :=
  verdict.IsBreak ∧ verdict ≠ .fork

instance (verdict : Verdict) : Decidable verdict.IsTamper :=
  inferInstanceAs (Decidable (_ ∧ _))

def Progress.start : Progress Hash := { expected := none, seen := [] }

/-- What holds at every position of a list holds at one of its records and at
the positions before and behind it. -/
theorem forall_split_iff
    {before after : List Record} {middle : Record}
    {property : List Record → Record → Prop} :
    (∀ front row back,
        before ++ middle :: after = front ++ row :: back →
          property front row) ↔
      (∀ front row back, before = front ++ row :: back →
          property front row) ∧
        property before middle ∧
          ∀ between row rest, after = between ++ row :: rest →
            property (before ++ middle :: between) row := by
  constructor
  · intro all
    refine ⟨?_, all before middle after rfl, ?_⟩
    · rintro front row back rfl
      exact all front row (back ++ middle :: after) (by simp)
    · rintro between row rest rfl
      exact all (before ++ middle :: between) row rest (by simp)
  · rintro ⟨inBefore, atMiddle, inAfter⟩ front row back same
    rcases List.append_eq_append_iff.mp same with
      ⟨gap, rfl, gapEq⟩ | ⟨gap, rfl, gapEq⟩
    · cases gap with
      | nil =>
          obtain ⟨rfl, rfl⟩ := List.cons.inj gapEq
          simpa using atMiddle
      | cons head between =>
          obtain ⟨rfl, rfl⟩ := List.cons.inj gapEq
          exact inAfter between row back rfl
    · cases gap with
      | nil =>
          obtain ⟨rfl, rfl⟩ := List.cons.inj gapEq
          simpa using atMiddle
      | cons head between =>
          obtain ⟨rfl, rfl⟩ := List.cons.inj gapEq
          exact inBefore front row between rfl

namespace Scheme

variable (scheme : Scheme Record Hash)

/-- A record with neither hash predates the chain and is passed over. -/
def Chained (record : Record) : Prop :=
  ¬(scheme.entry record = none ∧ scheme.previous record = none)

def Intact (record : Record) : Prop :=
  scheme.entry record = some (scheme.digest record)

/-- A record placed where its predecessor hash is the expected one. -/
def Fits (expected : Option Hash) (record : Record) : Prop :=
  scheme.previous record = expected ∧ scheme.Intact record

instance (record : Record) : Decidable (scheme.Chained record) :=
  inferInstanceAs (Decidable (¬(_ ∧ _)))

/-- The hash that the record after `records` must point at. -/
def tip (expected : Option Hash) (records : List Record) : Option Hash :=
  records.foldl
    (fun current record =>
      if scheme.Chained record then scheme.entry record else current)
    expected

@[simp]
theorem tip_nil (expected : Option Hash) :
    scheme.tip expected [] = expected := rfl

@[simp]
theorem tip_append (expected : Option Hash) (front back : List Record) :
    scheme.tip expected (front ++ back) =
      scheme.tip (scheme.tip expected front) back := by
  simp [tip]

theorem tip_cons (expected : Option Hash) (record : Record)
    (rest : List Record) :
    scheme.tip expected (record :: rest) =
      scheme.tip
        (if scheme.Chained record then scheme.entry record else expected)
        rest := rfl

theorem tip_congr {record record' : Record}
    (entry : scheme.entry record = scheme.entry record')
    (previous : scheme.previous record = scheme.previous record')
    (expected : Option Hash) (before after : List Record) :
    scheme.tip expected (before ++ record :: after) =
      scheme.tip expected (before ++ record' :: after) := by
  have chained : scheme.Chained record ↔ scheme.Chained record' := by
    rw [Chained, Chained, entry, previous]
  simp only [tip_append, tip_cons, chained, entry]

section Decidability

variable [DecidableEq Hash]

instance (record : Record) : Decidable (scheme.Intact record) :=
  inferInstanceAs (Decidable (_ = _))

instance (expected : Option Hash) (record : Record) :
    Decidable (scheme.Fits expected record) :=
  inferInstanceAs (Decidable (_ ∧ _))

end Decidability

/-- `Linked expected records`: every chained record is intact and points at
the chained record before it, the first one at `expected`. -/
inductive Linked : Option Hash → List Record → Prop where
  | nil {expected : Option Hash} : Linked expected []
  | skip {expected : Option Hash} {record : Record} {rest : List Record} :
      ¬scheme.Chained record →
      Linked expected rest →
      Linked expected (record :: rest)
  | link {expected : Option Hash} {record : Record} {rest : List Record} :
      scheme.Chained record →
      scheme.Fits expected record →
      Linked (scheme.entry record) rest →
      Linked expected (record :: rest)

section Walk

variable [DecidableEq Hash]

def advance (progress : Progress Hash) (record : Record) : Progress Hash :=
  if scheme.Chained record then
    { expected := scheme.entry record
      seen :=
        if scheme.Intact record then
          scheme.digest record :: progress.seen
        else progress.seen }
  else progress

def verdict (progress : Progress Hash) (record : Record) : Verdict :=
  if ¬scheme.Chained record then .unverified
  else if scheme.Fits progress.expected record then .clean
  else if scheme.Intact record ∧
      ∃ hash ∈ progress.seen, scheme.previous record = some hash then .fork
  else if scheme.Intact record then .linkMismatch
  else if scheme.previous record = progress.expected then .entryMismatch
  else .linkAndEntryMismatch

/-- Every record with its verdict, in walking order. -/
def verdicts (progress : Progress Hash) :
    List Record → List (Record × Verdict)
  | [] => []
  | record :: rest =>
      (record, scheme.verdict progress record) ::
        verdicts (scheme.advance progress record) rest

@[simp]
theorem verdicts_append (progress : Progress Hash)
    (front back : List Record) :
    scheme.verdicts progress (front ++ back) =
      scheme.verdicts progress front ++
        scheme.verdicts (front.foldl scheme.advance progress) back := by
  induction front generalizing progress with
  | nil => rfl
  | cons record rest induction =>
      simp [verdicts, induction]

theorem foldl_advance_expected (progress : Progress Hash)
    (records : List Record) :
    (records.foldl scheme.advance progress).expected =
      scheme.tip progress.expected records := by
  induction records generalizing progress with
  | nil => rfl
  | cons record rest induction =>
      rw [List.foldl_cons, induction, tip_cons]
      by_cases chained : scheme.Chained record <;> simp [advance, chained]

theorem verdict_isBreak_iff (progress : Progress Hash) (record : Record) :
    (scheme.verdict progress record).IsBreak ↔
      scheme.Chained record ∧ ¬scheme.Fits progress.expected record := by
  unfold verdict
  split_ifs <;> simp_all [Verdict.IsBreak]

theorem verdict_eq_clean_iff (progress : Progress Hash) (record : Record) :
    scheme.verdict progress record = .clean ↔
      scheme.Chained record ∧ scheme.Fits progress.expected record := by
  unfold verdict
  split_ifs <;> simp_all

/-- A walk reports no break exactly on a linked list of records. -/
theorem linked_iff_no_break (progress : Progress Hash)
    (records : List Record) :
    scheme.Linked progress.expected records ↔
      ∀ finding ∈ scheme.verdicts progress records, ¬finding.2.IsBreak := by
  induction records generalizing progress with
  | nil => simp [verdicts, Linked.nil]
  | cons record rest induction =>
      have later := induction (scheme.advance progress record)
      simp only [verdicts, List.forall_mem_cons, verdict_isBreak_iff, ← later]
      by_cases chained : scheme.Chained record
      · simp only [advance, chained, if_true, true_and, not_not]
        constructor
        · intro linked
          cases linked with
          | skip unchained _ => exact absurd chained unchained
          | link _ fits rest => exact ⟨fits, rest⟩
        · rintro ⟨fits, linked⟩
          exact .link chained fits linked
      · simp only [advance, chained, if_false, false_and, not_false_iff,
          true_and]
        constructor
        · intro linked
          cases linked with
          | skip _ rest => exact rest
          | link isChained _ _ => exact absurd isChained chained
        · exact .skip chained

/-! ## Findings by position -/

/-- The verdict on a record that stands behind `before`. -/
def verdictAfter (before : List Record) (record : Record) : Verdict :=
  scheme.verdict (before.foldl scheme.advance .start) record

theorem mem_verdicts_iff {records : List Record}
    {finding : Record × Verdict} :
    finding ∈ scheme.verdicts .start records ↔
      ∃ before after, records = before ++ finding.1 :: after ∧
        scheme.verdictAfter before finding.1 = finding.2 := by
  constructor
  · intro member
    obtain ⟨front, back, split⟩ := List.append_of_mem member
    have lengths : ∀ (progress : Progress Hash) (listed : List Record),
        (scheme.verdicts progress listed).map Prod.fst = listed := by
      intro progress listed
      induction listed generalizing progress with
      | nil => rfl
      | cons record rest induction => simp [verdicts, induction]
    have records_eq := lengths .start records
    rw [split, List.map_append, List.map_cons] at records_eq
    refine ⟨front.map Prod.fst, back.map Prod.fst, records_eq.symm, ?_⟩
    rw [← records_eq, verdicts_append, verdicts] at split
    have aligned := (List.append_inj split (by
      have length := congrArg List.length (lengths .start (front.map Prod.fst))
      simpa using length)).2
    exact congrArg Prod.snd (List.cons.inj aligned).1
  · rintro ⟨before, after, rfl, found⟩
    rw [verdicts_append, verdicts]
    refine List.mem_append_right _ (List.mem_cons.mpr (.inl ?_))
    exact Prod.ext rfl found.symm

/-- The record points at the chained record right before it. -/
def Points (before : List Record) (record : Record) : Prop :=
  scheme.previous record = scheme.tip none before

/-- The record points at some intact record before it. -/
def Anchored (before : List Record) (record : Record) : Prop :=
  ∃ earlier ∈ before,
    scheme.Intact earlier ∧ scheme.previous record = scheme.entry earlier

omit [DecidableEq Hash] in
theorem chained_of_intact {record : Record}
    (intact : scheme.Intact record) : scheme.Chained record := by
  rintro ⟨absent, -⟩
  rw [intact] at absent
  cases absent

omit [DecidableEq Hash] in
theorem anchored_append_cons_iff {before after : List Record}
    {middle record : Record} :
    scheme.Anchored (before ++ middle :: after) record ↔
      scheme.Anchored before record ∨
        (scheme.Intact middle ∧
          scheme.previous record = scheme.entry middle) ∨
        scheme.Anchored after record := by
  simp only [Anchored, List.mem_append, List.mem_cons, or_and_right,
    exists_or, exists_eq_left]

theorem mem_seen_foldl_advance (progress : Progress Hash)
    (records : List Record) (hash : Hash) :
    hash ∈ (records.foldl scheme.advance progress).seen ↔
      hash ∈ progress.seen ∨
        ∃ record ∈ records,
          scheme.Intact record ∧ scheme.entry record = some hash := by
  induction records generalizing progress with
  | nil => simp
  | cons record rest induction =>
      rw [List.foldl_cons, induction, List.exists_mem_cons_iff, ← or_assoc]
      refine or_congr_left ?_
      by_cases intact : scheme.Intact record
      · have stored : scheme.entry record = some (scheme.digest record) :=
          intact
        simp only [advance, scheme.chained_of_intact intact, intact, if_true,
          List.mem_cons, stored, Option.some.injEq, true_and]
        tauto
      · have same : (scheme.advance progress record).seen = progress.seen := by
          by_cases chained : scheme.Chained record <;>
            simp [advance, chained, intact]
        simp [same, intact]

theorem anchored_iff {before : List Record} {record : Record} :
    scheme.Anchored before record ↔
      ∃ hash ∈ (before.foldl scheme.advance .start).seen,
        scheme.previous record = some hash := by
  simp only [mem_seen_foldl_advance, Progress.start, List.not_mem_nil,
    false_or]
  constructor
  · rintro ⟨earlier, member, intact, points⟩
    have stored : scheme.entry earlier = some (scheme.digest earlier) := intact
    exact ⟨_, ⟨earlier, member, intact, stored⟩, points.trans stored⟩
  · rintro ⟨hash, ⟨earlier, member, intact, stored⟩, points⟩
    exact ⟨earlier, member, intact, points.trans stored.symm⟩

open Classical in
/-- The verdict in terms of where the record points and what it contains. -/
theorem verdictAfter_eq (before : List Record) (record : Record) :
    scheme.verdictAfter before record =
      if ¬scheme.Chained record then .unverified
      else if scheme.Intact record then
        if scheme.Points before record then .clean
        else if scheme.Anchored before record then .fork
        else .linkMismatch
      else if scheme.Points before record then .entryMismatch
      else .linkAndEntryMismatch := by
  have expected : (before.foldl scheme.advance .start).expected =
      scheme.tip none before := scheme.foldl_advance_expected .start before
  simp only [verdictAfter, verdict, Fits, Points, anchored_iff, expected]
  split_ifs <;> simp_all

open Classical in
/-- A verdict depends on the record only through these four facts. -/
theorem verdictAfter_congr {before before' : List Record}
    {record record' : Record}
    (chained : scheme.Chained record ↔ scheme.Chained record')
    (intact : scheme.Intact record ↔ scheme.Intact record')
    (points : scheme.Points before record ↔ scheme.Points before' record')
    (anchored : scheme.Intact record → ¬scheme.Points before record →
      (scheme.Anchored before record ↔ scheme.Anchored before' record')) :
    scheme.verdictAfter before record = scheme.verdictAfter before' record' := by
  rw [verdictAfter_eq, verdictAfter_eq]
  by_cases isIntact : scheme.Intact record
  · have isIntact' := intact.mp isIntact
    by_cases isPointing : scheme.Points before record
    · have isPointing' := points.mp isPointing
      simp [chained, isIntact, isIntact', isPointing, isPointing']
    · have notPointing' : ¬scheme.Points before' record' :=
        fun found => isPointing (points.mpr found)
      have same := anchored isIntact isPointing
      simp [chained, isIntact, isIntact', isPointing, notPointing', same]
  · have notIntact' : ¬scheme.Intact record' :=
      fun found => isIntact (intact.mpr found)
    simp [chained, isIntact, notIntact', points]

theorem verdictAfter_eq_fork_iff {before : List Record} {record : Record} :
    scheme.verdictAfter before record = .fork ↔
      scheme.Intact record ∧ ¬scheme.Points before record ∧
        scheme.Anchored before record := by
  have chained : scheme.Intact record → scheme.Chained record :=
    scheme.chained_of_intact
  rw [verdictAfter_eq]
  split_ifs <;> simp_all

theorem verdictAfter_eq_clean_iff {before : List Record} {record : Record} :
    scheme.verdictAfter before record = .clean ↔
      scheme.Intact record ∧ scheme.Points before record := by
  have chained : scheme.Intact record → scheme.Chained record :=
    scheme.chained_of_intact
  rw [verdictAfter_eq]
  split_ifs <;> simp_all

theorem verdictAfter_eq_linkMismatch_iff
    {before : List Record} {record : Record} :
    scheme.verdictAfter before record = .linkMismatch ↔
      scheme.Intact record ∧ ¬scheme.Points before record ∧
        ¬scheme.Anchored before record := by
  have chained : scheme.Intact record → scheme.Chained record :=
    scheme.chained_of_intact
  rw [verdictAfter_eq]
  split_ifs <;> simp_all

theorem verdictAfter_eq_entryMismatch_iff
    {before : List Record} {record : Record} :
    scheme.verdictAfter before record = .entryMismatch ↔
      scheme.Chained record ∧ ¬scheme.Intact record ∧
        scheme.Points before record := by
  rw [verdictAfter_eq]
  split_ifs <;> simp_all

theorem verdictAfter_eq_linkAndEntryMismatch_iff
    {before : List Record} {record : Record} :
    scheme.verdictAfter before record = .linkAndEntryMismatch ↔
      scheme.Chained record ∧ ¬scheme.Intact record ∧
        ¬scheme.Points before record := by
  rw [verdictAfter_eq]
  split_ifs <;> simp_all

/-- Replacing an earlier record by one that stores the same hashes can change
the verdict on a later record only if that record, intact and out of place,
points at the replaced one, which has become intact or stopped being so. -/
theorem verdictAfter_replace {before between : List Record}
    {record record' later : Record}
    (entry : scheme.entry record = scheme.entry record')
    (previous : scheme.previous record = scheme.previous record')
    (unaffected : scheme.Intact later →
      ¬scheme.Points (before ++ record :: between) later →
      scheme.previous later = scheme.entry record →
      (scheme.Intact record ↔ scheme.Intact record')) :
    scheme.verdictAfter (before ++ record :: between) later =
      scheme.verdictAfter (before ++ record' :: between) later := by
  refine scheme.verdictAfter_congr Iff.rfl Iff.rfl ?_ ?_
  · rw [Points, Points, scheme.tip_congr entry previous]
  · intro intact misplaced
    rw [anchored_append_cons_iff, anchored_append_cons_iff, ← entry]
    by_cases points : scheme.previous later = scheme.entry record
    · simp only [points, unaffected intact misplaced points]
    · simp only [points, and_false]

theorem verdictAfter_isBreak_iff {before : List Record} {record : Record} :
    (scheme.verdictAfter before record).IsBreak ↔
      scheme.Chained record ∧
        ¬(scheme.Points before record ∧ scheme.Intact record) := by
  rw [verdictAfter_eq]
  split_ifs <;> simp_all [Verdict.IsBreak]

variable {scheme} in
/-- Without breaks the clean records are the chained ones. -/
theorem countP_clean_eq {progress : Progress Hash} {records : List Record}
    (sound : ∀ finding ∈ scheme.verdicts progress records,
      ¬finding.2.IsBreak) :
    (scheme.verdicts progress records).countP
        (fun finding => finding.2 = .clean) =
      records.countP (scheme.Chained ·) := by
  induction records generalizing progress with
  | nil => rfl
  | cons record rest induction =>
      rw [verdicts, List.forall_mem_cons] at sound
      obtain ⟨first, later⟩ := sound
      rw [verdict_isBreak_iff, not_and, not_not] at first
      rw [verdicts, List.countP_cons, List.countP_cons, induction later]
      simp only [decide_eq_true_eq, verdict_eq_clean_iff]
      by_cases chained : scheme.Chained record
      · simp [chained, first chained]
      · simp [chained]

end Walk

variable {scheme}

/-- Appending a record that fits the tip keeps the chain linked. -/
theorem Linked.append_singleton
    {expected : Option Hash} {records : List Record} {record : Record}
    (linked : scheme.Linked expected records)
    (chained : scheme.Chained record)
    (fits : scheme.Fits (scheme.tip expected records) record) :
    scheme.Linked expected (records ++ [record]) := by
  induction linked with
  | nil => exact .link chained fits .nil
  | skip unchained _ induction =>
      rw [tip_cons, if_neg unchained] at fits
      exact .skip unchained (induction fits)
  | link isChained isFit _ induction =>
      rw [tip_cons, if_pos isChained] at fits
      exact .link isChained isFit (induction fits)

/-- In a linked list the tip is the hash of the last record that stores one,
or the expected hash when no record does. -/
theorem Linked.tip_eq
    {expected : Option Hash} {records : List Record}
    (linked : scheme.Linked expected records) :
    scheme.tip expected records =
      ((records.filterMap scheme.entry).getLast?).or expected := by
  induction linked with
  | nil => rfl
  | @skip expected record rest unchained _ induction =>
      have unhashed : scheme.entry record = none := by
        simp only [Chained, not_not] at unchained
        exact unchained.1
      rw [tip_cons, if_neg unchained, induction,
        List.filterMap_cons_none unhashed]
  | @link expected record rest chained fits _ induction =>
      have hashed := fits.2
      rw [tip_cons, if_pos chained, induction,
        List.filterMap_cons_some hashed, hashed]
      cases rest.filterMap scheme.entry with
      | nil => rfl
      | cons hash later =>
          rw [List.getLast?_cons_cons, List.getLast?_cons, Option.some_or,
            Option.some_or]

/-- The hashes that the records of a linked list point at are stored by
earlier records, except for the first. -/
theorem Linked.previous_mem
    {expected : Option Hash} {records : List Record}
    (linked : scheme.Linked expected records)
    (chained : ∀ record ∈ records, scheme.Chained record)
    {record : Record} (member : record ∈ records) :
    scheme.previous record = expected ∨
      ∃ earlier ∈ records,
        scheme.previous record = scheme.entry earlier := by
  induction linked with
  | nil => simp at member
  | skip unchained _ _ =>
      exact absurd (chained _ List.mem_cons_self) unchained
  | @link expected head rest _ fits _ induction =>
      rcases List.mem_cons.mp member with rfl | later
      · exact .inl fits.1
      · right
        have restChained := fun record (inside : record ∈ rest) =>
          chained record (List.mem_cons_of_mem head inside)
        rcases induction restChained later with
          first | ⟨earlier, inside, same⟩
        · exact ⟨head, List.mem_cons_self, first⟩
        · exact ⟨earlier, List.mem_cons_of_mem head inside, same⟩

/-- Chained records of a linked list carry their own digests. -/
theorem Linked.intact
    {expected : Option Hash} {records : List Record}
    (linked : scheme.Linked expected records) {record : Record}
    (member : record ∈ records) (isChained : scheme.Chained record) :
    scheme.Intact record := by
  induction linked with
  | nil => simp at member
  | skip unchained _ induction =>
      rcases List.mem_cons.mp member with rfl | later
      · exact absurd isChained unchained
      · exact induction later
  | link _ fits _ induction =>
      rcases List.mem_cons.mp member with rfl | later
      · exact fits.2
      · exact induction later

/-- Records with distinct hashes are linked in at most one order. -/
theorem Linked.unique
    {expected : Option Hash} {records others : List Record}
    (linked : scheme.Linked expected records)
    (otherLinked : scheme.Linked expected others)
    (chained : ∀ record ∈ records, scheme.Chained record)
    (distinct : records.Pairwise fun left right =>
      scheme.entry left ≠ scheme.entry right)
    (fresh : ∀ record ∈ records, scheme.entry record ≠ expected)
    (permutation : records.Perm others) :
    records = others := by
  induction linked generalizing others with
  | nil => exact (List.nil_perm.mp permutation).symm
  | skip unchained _ _ =>
      exact absurd (chained _ List.mem_cons_self) unchained
  | @link expected record rest isChained fits restLinked induction =>
      cases otherLinked with
      | nil =>
          exact absurd permutation.symm (List.not_perm_nil_cons record rest)
      | skip unchained _ =>
          have member := permutation.mem_iff.mpr List.mem_cons_self
          exact absurd (chained _ member) unchained
      | @link _ other othersRest _ otherFits othersLinked =>
          have restChained := fun record' (inside : record' ∈ rest) =>
            chained record' (List.mem_cons_of_mem record inside)
          have same : other = record := by
            have member : other ∈ record :: rest :=
              permutation.mem_iff.mpr List.mem_cons_self
            rcases List.mem_cons.mp member with same | later
            · exact same
            · -- a record other than the first points at a hash in the list
              rcases restLinked.previous_mem restChained later with
                first | ⟨earlier, inside, points⟩
              · exact absurd (first.symm.trans otherFits.1)
                  (fresh record List.mem_cons_self)
              · exact absurd (points.symm.trans otherFits.1)
                  (fresh earlier (List.mem_cons_of_mem record inside))
          subst same
          have headDistinct := (List.pairwise_cons.mp distinct).1
          rw [induction othersLinked restChained distinct.of_cons
            (fun record' inside => (headDistinct record' inside).symm)
            (List.perm_cons _ |>.mp permutation)]

end Scheme

end HashChain
