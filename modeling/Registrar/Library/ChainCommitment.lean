import Registrar.Library.HashChain
import Mathlib.Data.List.Induction

/-!
# What a chain commits to

Where records with one digest agree, the hash of a record of a linked chain
settles every record before it, and a rewritten record is noticed at its own
position or right behind it.
-/

namespace HashChain.Scheme

variable {Record Hash : Type*} {scheme : Scheme Record Hash}

theorem linked_cons_iff {expected : Option Hash} {record : Record}
    {rest : List Record} :
    scheme.Linked expected (record :: rest) ↔
      (¬scheme.Chained record ∧ scheme.Linked expected rest) ∨
        (scheme.Chained record ∧ scheme.Fits expected record ∧
          scheme.Linked (scheme.entry record) rest) := by
  constructor
  · intro linked
    cases linked with
    | skip unchained later => exact .inl ⟨unchained, later⟩
    | link chained fits later => exact .inr ⟨chained, fits, later⟩
  · intro parts
    rcases parts with ⟨unchained, later⟩ | ⟨chained, fits, later⟩
    · exact .skip unchained later
    · exact .link chained fits later

theorem linked_append_iff {expected : Option Hash}
    {front back : List Record} :
    scheme.Linked expected (front ++ back) ↔
      scheme.Linked expected front ∧
        scheme.Linked (scheme.tip expected front) back := by
  induction front generalizing expected with
  | nil =>
      constructor
      · intro linked
        exact ⟨.nil, linked⟩
      · intro parts
        exact parts.2
  | cons head rest induction =>
      rw [List.cons_append, linked_cons_iff, linked_cons_iff, tip_cons]
      by_cases chained : scheme.Chained head
      · simp [chained, induction, and_assoc]
      · simp [chained, induction]

theorem Linked.filter_chained {expected : Option Hash}
    {records : List Record} (linked : scheme.Linked expected records) :
    scheme.Linked expected
      (records.filter fun record => scheme.Chained record) := by
  induction linked with
  | nil => exact .nil
  | skip unchained _ induction =>
      rw [List.filter_cons_of_neg (by simpa using unchained)]
      exact induction
  | link chained fits _ induction =>
      rw [List.filter_cons_of_pos (by simpa using chained)]
      exact .link chained fits induction

theorem Linked.behind {expected : Option Hash} {before after : List Record}
    {record next : Record}
    (linked : scheme.Linked expected (before ++ record :: next :: after))
    (chained : scheme.Chained record) (nextChained : scheme.Chained next) :
    scheme.previous next = scheme.entry record ∧ scheme.Intact next := by
  have rest := (linked_append_iff.mp linked).2
  rcases linked_cons_iff.mp rest with ⟨unchained, -⟩ | ⟨-, -, later⟩
  · exact absurd chained unchained
  rcases linked_cons_iff.mp later with ⟨unchained, -⟩ | ⟨-, fits, -⟩
  · exact absurd nextChained unchained
  · exact fits

theorem Linked.hashed {expected : Option Hash} {records : List Record}
    (linked : scheme.Linked expected records) {record : Record}
    (member : record ∈ records) (chained : scheme.Chained record) :
    scheme.entry record ≠ none := by
  have intact : scheme.entry record = some (scheme.digest record) :=
    linked.intact member chained
  rw [intact]
  exact Option.some_ne_none _

section Unchecked

variable [Inhabited Hash]

/-- The scheme that takes a record at its word: the hash that it stores counts
as the digest of its contents. -/
def unchecked (scheme : Scheme Record Hash) : Scheme Record Hash where
  entry := scheme.entry
  previous := scheme.previous
  digest record := (scheme.entry record).getD default

theorem unchecked_intact_iff {record : Record} :
    scheme.unchecked.Intact record ↔ scheme.entry record ≠ none := by
  unfold Intact unchecked
  cases stored : scheme.entry record <;> simp [stored]

/-- A chain is linked when its hashes are and each is the one of its record. -/
theorem linked_iff_unchecked {expected : Option Hash}
    {records : List Record} :
    scheme.Linked expected records ↔
      scheme.unchecked.Linked expected records ∧
        ∀ record ∈ records, scheme.Chained record → scheme.Intact record := by
  constructor
  · intro linked
    refine ⟨?_, fun record member => linked.intact member⟩
    induction linked with
    | nil => exact .nil
    | skip unchained _ induction => exact .skip unchained induction
    | link chained fits _ induction =>
        have hashed : scheme.entry _ = some _ := fits.2
        refine .link chained ⟨fits.1, unchecked_intact_iff.mpr ?_⟩ induction
        rw [hashed]
        exact Option.some_ne_none _
  · intro parts
    obtain ⟨joined, intact⟩ := parts
    induction joined with
    | nil => exact .nil
    | skip unchained _ induction =>
        exact .skip unchained (induction fun record member =>
          intact record (List.mem_cons_of_mem _ member))
    | link chained fits _ induction =>
        refine .link chained ⟨fits.1, intact _ List.mem_cons_self chained⟩ ?_
        exact induction fun record member =>
          intact record (List.mem_cons_of_mem _ member)

end Unchecked

section Commitment

variable {Same : Record → Record → Prop}

/-- Two chains of one length that end in the same hash agree record by
record. -/
theorem forall₂_of_sameHead
    {fronts others : List Record} {last other : Record}
    (commits : ∀ left ∈ fronts ++ [last], ∀ right ∈ others ++ [other],
      scheme.entry left = scheme.entry right →
        Same left right ∧ scheme.previous left = scheme.previous right)
    (linked : scheme.Linked none (fronts ++ [last]))
    (otherLinked : scheme.Linked none (others ++ [other]))
    (chained : ∀ record ∈ fronts ++ [last], scheme.Chained record)
    (otherChained : ∀ record ∈ others ++ [other], scheme.Chained record)
    (sameLength : fronts.length = others.length)
    (sameHead : scheme.entry last = scheme.entry other) :
    List.Forall₂ Same (fronts ++ [last]) (others ++ [other]) := by
  induction fronts using List.reverseRecOn generalizing others last other with
  | nil =>
      obtain rfl := List.length_eq_zero_iff.mp sameLength.symm
      exact .cons (commits last (by simp) other (by simp) sameHead).1 .nil
  | append_singleton front before induction =>
      obtain ⟨same, samePrevious⟩ :=
        commits last (by simp) other (by simp) sameHead
      rcases List.eq_nil_or_concat others with
        isEmpty | ⟨otherFront, otherBefore, isAppend⟩
      · simp [isEmpty] at sameLength
      · rw [List.concat_eq_append] at isAppend
        subst isAppend
        have earlierChained : ∀ record ∈ front ++ [before],
            scheme.Chained record :=
          fun record member => chained record (List.mem_append_left _ member)
        have otherEarlierChained : ∀ record ∈ otherFront ++ [otherBefore],
            scheme.Chained record :=
          fun record member =>
            otherChained record (List.mem_append_left _ member)
        have points : scheme.previous last = scheme.entry before := by
          rw [List.append_assoc] at linked
          exact (linked.behind (earlierChained before (by simp))
            (chained last (by simp))).1
        have otherPoints :
            scheme.previous other = scheme.entry otherBefore := by
          rw [List.append_assoc] at otherLinked
          exact (otherLinked.behind (otherEarlierChained otherBefore (by simp))
            (otherChained other (by simp))).1
        apply List.rel_append
        · apply induction
          · intro left member right otherMember
            exact commits left (List.mem_append_left _ member) right
              (List.mem_append_left _ otherMember)
          · exact (linked_append_iff.mp linked).1
          · exact (linked_append_iff.mp otherLinked).1
          · exact earlierChained
          · exact otherEarlierChained
          · simpa using sameLength
          · rw [← points, samePrevious, otherPoints]
        · exact .cons same .nil

/-- Two chains that store the same hash at one position agree up to it. -/
theorem forall₂_take_of_sameEntry
    {records others : List Record} {last other : Record} {position : Nat}
    (commits : ∀ left ∈ records, ∀ right ∈ others,
      scheme.entry left = scheme.entry right →
        Same left right ∧ scheme.previous left = scheme.previous right)
    (linked : scheme.Linked none records)
    (otherLinked : scheme.Linked none others)
    (chained : ∀ record ∈ records, scheme.Chained record)
    (otherChained : ∀ record ∈ others, scheme.Chained record)
    (isLast : records[position]? = some last)
    (isOther : others[position]? = some other)
    (sameHead : scheme.entry last = scheme.entry other) :
    List.Forall₂ Same (records.take (position + 1))
      (others.take (position + 1)) := by
  have split : records = records.take (position + 1) ++
      records.drop (position + 1) := (List.take_append_drop _ _).symm
  have otherSplit : others = others.take (position + 1) ++
      others.drop (position + 1) := (List.take_append_drop _ _).symm
  have front : records.take (position + 1) =
      records.take position ++ [last] := by
    rw [List.take_add_one, isLast]
    rfl
  have otherFront : others.take (position + 1) =
      others.take position ++ [other] := by
    rw [List.take_add_one, isOther]
    rfl
  rw [split] at linked
  rw [otherSplit] at otherLinked
  have frontLinked := (linked_append_iff.mp linked).1
  have otherFrontLinked := (linked_append_iff.mp otherLinked).1
  obtain ⟨bound, -⟩ := List.getElem?_eq_some_iff.mp isLast
  obtain ⟨otherBound, -⟩ := List.getElem?_eq_some_iff.mp isOther
  rw [front] at frontLinked ⊢
  rw [otherFront] at otherFrontLinked ⊢
  have inside : ∀ record ∈ records.take position ++ [last],
      record ∈ records := by
    rw [← front]
    exact fun record member => List.mem_of_mem_take member
  have otherInside : ∀ record ∈ others.take position ++ [other],
      record ∈ others := by
    rw [← otherFront]
    exact fun record member => List.mem_of_mem_take member
  apply forall₂_of_sameHead
  · intro left member right otherMember
    exact commits left (inside left member) right
      (otherInside right otherMember)
  · exact frontLinked
  · exact otherFrontLinked
  · exact fun record member => chained record (inside record member)
  · exact fun record member => otherChained record (otherInside record member)
  · rw [List.length_take, List.length_take]
    omega
  · exact sameHead

end Commitment

section Rewrite

variable [DecidableEq Hash]

/-- Nothing stands behind the rewritten record, and it is passed over or
carries its own digest and points at some intact record before it, or where it
should. -/
def Unnoticed (scheme : Scheme Record Hash) (before : List Record)
    (rewritten : Record) (after : List Record) : Prop :=
  after = [] ∧
    (¬scheme.Chained rewritten ∨
      scheme.Intact rewritten ∧
        (scheme.Points before rewritten ∨ scheme.Anchored before rewritten))

theorem isTamper_iff {before : List Record} {record : Record} :
    (scheme.verdictAfter before record).IsTamper ↔
      scheme.Chained record ∧
        (scheme.Intact record →
          ¬scheme.Points before record ∧ ¬scheme.Anchored before record) := by
  unfold Verdict.IsTamper
  rw [verdictAfter_isBreak_iff, ne_eq, verdictAfter_eq_fork_iff]
  constructor
  · intro tamper
    obtain ⟨⟨chained, misfit⟩, notFork⟩ := tamper
    refine ⟨chained, fun intact => ?_⟩
    have unpointed : ¬scheme.Points before record :=
      fun points => misfit ⟨points, intact⟩
    exact ⟨unpointed, fun anchored => notFork ⟨intact, unpointed, anchored⟩⟩
  · intro parts
    obtain ⟨chained, apart⟩ := parts
    exact ⟨⟨chained, fun fits => (apart fits.2).1 fits.1⟩,
      fun fork => (apart fork.1).2 fork.2.2⟩

theorem Linked.not_isTamper {before after : List Record} {record : Record}
    (linked : scheme.Linked none (before ++ record :: after)) :
    ¬(scheme.verdictAfter before record).IsTamper := by
  intro tamper
  obtain ⟨chained, apart⟩ := isTamper_iff.mp tamper
  rcases linked_cons_iff.mp (linked_append_iff.mp linked).2 with
    ⟨unchained, -⟩ | ⟨-, fits, -⟩
  · exact unchained chained
  · exact (apart fits.2).1 fits.1

variable {before after : List Record} {original rewritten : Record}

/-- An unnoticed record behind linked ones gives no finding of tampering. -/
theorem Linked.not_isTamper_of_unnoticed
    (linked : scheme.Linked none before)
    (quiet : scheme.Unnoticed before rewritten after)
    {front back : List Record} {record : Record}
    (split : before ++ rewritten :: after = front ++ record :: back) :
    ¬(scheme.verdictAfter front record).IsTamper := by
  obtain ⟨rfl, quiet⟩ := quiet
  refine (@forall_split_iff Record before [] rewritten fun front record =>
    ¬(scheme.verdictAfter front record).IsTamper).mpr ⟨?_, ?_, ?_⟩
      front record back split
  · intro front record back split
    rw [split] at linked
    exact linked.not_isTamper
  · intro tamper
    obtain ⟨isChained, apart⟩ := isTamper_iff.mp tamper
    rcases quiet with unchained | ⟨intact, points | anchored⟩
    · exact unchained isChained
    · exact (apart intact).1 points
    · exact (apart intact).2 anchored
  · intro between record rest split
    simp at split

/-- A record that does not carry its digest is reported wherever it stands. -/
theorem exists_isTamper_of_broken {records : List Record} {record : Record}
    (member : record ∈ records) (chained : scheme.Chained record)
    (broken : ¬scheme.Intact record) :
    ∃ front record back, records = front ++ record :: back ∧
      (scheme.verdictAfter front record).IsTamper := by
  obtain ⟨front, back, split⟩ := List.append_of_mem member
  refine ⟨front, record, back, split, isTamper_iff.mpr ⟨chained, ?_⟩⟩
  exact fun intact => absurd intact broken

variable [Inhabited Hash]

/-- The record behind a rewritten one points at a hash that is gone. -/
theorem Linked.tamper_behind {next : Record}
    (joined : scheme.unchecked.Linked none
      (before ++ original :: next :: after))
    (chained : scheme.Chained original) (nextChained : scheme.Chained next)
    (distinct : ∀ record ∈ before,
      scheme.entry record ≠ scheme.entry original)
    (different : scheme.entry rewritten ≠ scheme.entry original) :
    (scheme.verdictAfter (before ++ [rewritten]) next).IsTamper := by
  have points : scheme.previous next = scheme.entry original :=
    (joined.behind chained nextChained).1
  have hashed : scheme.entry original ≠ none :=
    joined.hashed (by simp) chained
  have beforeTip :
      scheme.tip none before ≠ scheme.entry original := by
    have beforeJoined := (linked_append_iff.mp joined).1
    have isLast : scheme.tip none before =
        ((before.filterMap scheme.entry).getLast?).or none :=
      beforeJoined.tip_eq
    rw [isLast, Option.or_none]
    intro same
    obtain ⟨hash, isHash⟩ := Option.ne_none_iff_exists'.mp hashed
    rw [isHash] at same
    obtain ⟨record, member, entry⟩ :=
      List.mem_filterMap.mp (List.mem_of_getLast? same)
    exact distinct record member (entry.trans isHash.symm)
  rw [isTamper_iff]
  refine ⟨nextChained, fun _ => ⟨?_, ?_⟩⟩
  · unfold Points
    rw [points, tip_append, tip_cons, tip_nil]
    split_ifs
    · exact different.symm
    · exact beforeTip.symm
  · intro anchored
    obtain ⟨earlier, member, -, same⟩ := anchored
    rw [points] at same
    rcases List.mem_append.mp member with stored | isRewritten
    · exact distinct earlier stored same.symm
    · rw [List.mem_singleton.mp isRewritten] at same
      exact different same.symm

/-- A rewritten record that is noticed is reported, or the one behind it is. -/
theorem Linked.exists_isTamper_of_noticed
    (joined : scheme.unchecked.Linked none (before ++ original :: after))
    (chained : ∀ record ∈ before ++ original :: after, scheme.Chained record)
    (distinct : ∀ record ∈ before,
      scheme.entry record ≠ scheme.entry original)
    (changed : scheme.entry rewritten ≠ scheme.entry original ∨
      ¬scheme.Intact rewritten)
    (noticed : ¬scheme.Unnoticed before rewritten after) :
    ∃ front record back,
      before ++ rewritten :: after = front ++ record :: back ∧
        (scheme.verdictAfter front record).IsTamper := by
  by_cases quiet : ¬scheme.Chained rewritten ∨
      scheme.Intact rewritten ∧
        (scheme.Points before rewritten ∨ scheme.Anchored before rewritten)
  · cases after with
    | nil => exact absurd ⟨rfl, quiet⟩ noticed
    | cons next rest =>
        have originalChained := chained original (by simp)
        have hashed : scheme.entry original ≠ none :=
          joined.hashed (by simp) originalChained
        have different :
            scheme.entry rewritten ≠ scheme.entry original := by
          rcases changed with different | broken
          · exact different
          · rcases quiet with unchained | ⟨intact, -⟩
            · rw [(not_not.mp unchained).1]
              exact hashed.symm
            · exact absurd intact broken
        refine ⟨before ++ [rewritten], next, rest, by simp, ?_⟩
        exact Linked.tamper_behind joined originalChained
          (chained next (by simp)) distinct different
  · refine ⟨before, rewritten, after, rfl, isTamper_iff.mpr ⟨?_, ?_⟩⟩
    · exact not_not.mp fun unchained => quiet (.inl unchained)
    · intro intact
      exact ⟨fun points => quiet (.inr ⟨intact, .inl points⟩),
        fun anchored => quiet (.inr ⟨intact, .inr anchored⟩)⟩

/-- A rewritten record of linked hashes is noticed exactly when it is not
`Unnoticed` or some other record does not carry its own digest. -/
theorem Linked.exists_isTamper_iff
    (joined : scheme.unchecked.Linked none (before ++ original :: after))
    (chained : ∀ record ∈ before ++ original :: after, scheme.Chained record)
    (distinct : ∀ record ∈ before,
      scheme.entry record ≠ scheme.entry original)
    (changed : scheme.entry rewritten ≠ scheme.entry original ∨
      ¬scheme.Intact rewritten) :
    (∃ front record back,
        before ++ rewritten :: after = front ++ record :: back ∧
          (scheme.verdictAfter front record).IsTamper) ↔
      (∃ record ∈ before ++ after, ¬scheme.Intact record) ∨
        ¬scheme.Unnoticed before rewritten after := by
  constructor
  · intro noticed
    by_contra quietly
    rw [not_or, not_not] at quietly
    obtain ⟨othersIntact, quiet⟩ := quietly
    have beforeLinked : scheme.Linked none before := by
      apply linked_iff_unchecked.mpr
      refine ⟨(linked_append_iff.mp joined).1, fun record member _ => ?_⟩
      by_contra broken
      exact othersIntact ⟨record, List.mem_append_left _ member, broken⟩
    obtain ⟨front, record, back, split, tamper⟩ := noticed
    exact beforeLinked.not_isTamper_of_unnoticed quiet split tamper
  · intro parts
    rcases parts with ⟨record, member, broken⟩ | noticed
    · have stands {middle : Record} :
          record ∈ before ++ middle :: after := by
        rcases List.mem_append.mp member with earlier | later
        · exact List.mem_append_left _ earlier
        · exact List.mem_append_right _ (List.mem_cons_of_mem _ later)
      exact exists_isTamper_of_broken stands (chained record stands) broken
    · exact Linked.exists_isTamper_of_noticed joined chained distinct changed
        noticed

end Rewrite

end HashChain.Scheme
