import SparseTables.Proofs.Integers
import SparseTables.Proofs.Session.Errands

/-
  This file shows that a scalar has one identity: scalars get
  the same one if and only if they are equal, and the scalar
  of an identity is the one that it was given to.  So integers
  that become scalars can be told apart by identities.

  The equality of scalars, of cached scalars and of rows of
  the store are one: normal forms are the same.  Whatever
  happens in between, the row of a value stays where it is
  until the dictionaries are emptied.  Its identity is not
  given to another scalar even then.

  Main declarations:
    * `Contents.Keyed.same_id_iff`
    * `Session.Tidy.interns`
    * `Session.Tidy.interns_apart`
    * `Session.Tidy.shows`
    * `Session.scalars_have_one_identity`
    * `Session.exact_integers_stay_apart`
-/

namespace SparseTables

/- Values have the same identity if they are equal. -/
theorem Contents.Keyed.same_id_iff
    {contents : Contents}
    (hKeyed : contents.Keyed)
    {id other : Int}
    {a b : Scalar}
    (hRow : ⟨id, a.normalized⟩ ∈ contents.values.rows)
    (hOther : ⟨other, b.normalized⟩ ∈ contents.values.rows) :
    id = other ↔ a.same b := by
  rw [Scalar.same_iff_normalized]
  constructor
  · rintro rfl
    have hSame := hKeyed.values.eq_of_id hRow hOther rfl
    exact congrArg Value.content hSame
  · intro hSame
    have hRows := List.inj_on_of_nodup_map
      hKeyed.valueContents hRow hOther hSame
    exact congrArg Value.id hRows

namespace Session

namespace Tidy

variable {shared : Shared}

/- A scalar gets an identity, and its row is there then. -/
theorem interns
    (hTidy : Tidy shared)
    (policy : Policy)
    {content : Scalar}
    (hStorable : content.isStorable) :
    ∃ id after,
      (Values.resolve policy content .create).advance
          shared = (.finished (.ok (some id)), after) ∧
        Tidy after ∧
        ⟨id, content.normalized⟩ ∈
          after.store.engine.contents.values.rows ∧
        ∀ row ∈ shared.store.engine.contents.values.rows,
          row ∈ after.store.engine.contents.values.rows := by
  have hCheck : Check.storable content = .ok () :=
    if_pos hStorable
  rcases Values.comesTo_resolve hTidy.keyed policy hCheck
    .create with ⟨_, after, hComes, hFound⟩
  rcases hFound.exists_row with ⟨⟨id, _⟩, hGiven, rfl⟩
  rcases hFound.keyed.valueOf?_eq_some_iff.1 hGiven with
    ⟨hRow, rfl⟩
  rcases hComes shared.caches hTidy.mirrors with
    ⟨kept, hEnds, hKept⟩
  have hBound := (Values.sure_resolve policy content
    .create).bound
  have hKeyed := hBound.keeps
    (fun asked _ => asked.keeps_keyed) hEnds hTidy.keyed
  have hRetains := hBound.keeps
    (fun asked hLeaves => hLeaves.keeps_retained _) hEnds
    (.refl _)
  rcases hTidy.advance hEnds hKeyed hKept with
    ⟨last, hLast, rfl, hAfter⟩
  exact ⟨id, last, hLast, hAfter, hRow, hRetains.values⟩

/-
  Scalars that are not equal get different identities,
  whatever happens in between.
-/
theorem interns_apart
    (hTidy : Tidy shared)
    (policy policy' : Policy)
    {a b : Scalar}
    (hStorable : a.isStorable)
    (hStorable' : b.isStorable)
    (hDiffer : a.same b = false)
    (between : List Happening) :
    ∃ id other first second,
      (Values.resolve policy a .create).advance shared =
        (.finished (.ok (some id)), first) ∧
      (Values.resolve policy' b .create).advance
          (Session.happen first between) =
        (.finished (.ok (some other)), second) ∧
      id ≠ other := by
  rcases hTidy.interns policy hStorable with
    ⟨id, first, hFirst, hAfter, hRow, -⟩
  have hMiddle := (hAfter.happen between).1
  rcases hMiddle.interns policy' hStorable' with
    ⟨other, second, hSecond, -, hOther, -⟩
  refine ⟨id, other, first, second, hFirst, hSecond, ?_⟩
  rintro rfl
  have hLast := hMiddle.ages_take (.errand
    { (default : Policies) with values := policy' }
    (.resolveValue b .create))
  simp only [Happening.take, Errand.program, hSecond] at hLast
  have hGiven : id ≤ first.store.engine.contents.values.last :=
    hAfter.keyed.values.bounded _ hRow
  -- The identity was given out, so the row is from then.
  have hOld := ((hAfter.ages_happen between).trans
    hLast).values.rows _ hOther hGiven
  rw [List.map_id'] at hOld
  rw [(hAfter.keyed.same_id_iff hRow hOld).1 rfl] at hDiffer
  cases hDiffer

/- An identity shows the scalar that it was given to. -/
theorem shows
    (hTidy : Tidy shared)
    {id : Int}
    {content : Scalar}
    (hRow : ⟨id, content.normalized⟩ ∈
      shared.store.engine.contents.values.rows) :
    ∃ found after,
      (Values.byId id).advance shared =
          (.finished (.ok (some found)), after) ∧
        found.same content := by
  have hFind : shared.store.engine.contents.value? id =
      some ⟨id, content.normalized⟩ :=
    hTidy.keyed.values.find?_eq_some_iff.2 ⟨hRow, rfl⟩
  rcases Values.ends_byId hTidy.keyed id hTidy.mirrors with
    ⟨found, kept, hEnds, hKept, hFound⟩
  rw [hFind] at hFound
  rcases hTidy.advance hEnds hTidy.keyed hKept with
    ⟨after, hAfter, -, -⟩
  cases found with
  | none => cases hFound
  | some found =>
      exact ⟨found, after, hAfter,
        Scalar.same_iff_normalized.2 (Option.some.inj hFound)⟩

end Tidy

/-
  Two scalars are interned, neither of them NaN, and then the
  first one is shown.  Before, in between and afterwards
  anything happens, but nothing fails, and the dictionaries
  are not emptied once the first scalar has its identity.
  The identities are the same if and only if the scalars are
  equal, and what is shown is equal to the first scalar.
-/
theorem scalars_have_one_identity
    {shared : Shared}
    (hReachable : Reachable shared)
    {a b : Scalar}
    (hStorable : a.isStorable)
    (hStorable' : b.isStorable)
    (policy policy' : Policy)
    (before : List Happening)
    {between afterwards : List Happening}
    (hBetween : ∀ happening ∈ between,
      ¬happening.IsFullReset)
    (hAfterwards : ∀ happening ∈ afterwards,
      ¬happening.IsFullReset) :
    ∃ id other found first second last,
      (Values.resolve policy a .create).advance
          (happen (calm shared) before) =
        (.finished (.ok (some id)), first) ∧
      (Values.resolve policy' b .create).advance
          (happen first between) =
        (.finished (.ok (some other)), second) ∧
      (Values.byId id).advance
          (happen second afterwards) =
        (.finished (.ok (some found)), last) ∧
      (id = other ↔ a.same b) ∧
      found.same a := by
  have hStart := hReachable.tidy.happen before
  rcases hStart.1.interns policy hStorable with
    ⟨id, first, hFirst, hTidy, hRow, -⟩
  have hMiddle := hTidy.happen between
  rcases hMiddle.1.interns policy' hStorable' with
    ⟨other, second, hSecond, hTidy', hOther, hKept⟩
  have hHere := hKept _ (hMiddle.2 hBetween _ hRow)
  have hEnd := hTidy'.happen afterwards
  rcases hEnd.1.shows (hEnd.2 hAfterwards _ hHere) with
    ⟨found, last, hLast, hFound⟩
  exact ⟨id, other, found, first, second, last, hFirst,
    hSecond, hLast, hTidy'.keyed.same_id_iff hHere hOther,
    hFound⟩

/- An item is defined under a key. -/
def defineUnder (key : Scalar) : List Happening :=
  [.errand default (.call (.define ⟨"t", key, []⟩))]

/- A table is dropped, and a new session takes over. -/
def dropAndRenew : List Happening :=
  [.errand default (.call (.dropTable "t")), .renew]

/-
  The two zeros share an identity, and the number 42 and the
  text do not, also if a table is dropped in between that has
  the first one as a key.
-/
theorem zeros_have_one_identity :
    (∃ id found first second last,
      (Values.resolve default (.number .zero)
          .create).advance (happen (calm Moment.new.shared)
            (defineUnder (.number .zero))) =
        (.finished (.ok (some id)), first) ∧
      (Values.resolve default (.number Number.zero.neg)
          .create).advance (happen first dropAndRenew) =
        (.finished (.ok (some id)), second) ∧
      (Values.byId id).advance (happen second []) =
        (.finished (.ok (some found)), last) ∧
      found.same (.number .zero)) ∧
    ∃ id other first second,
      (Values.resolve default (.ofInt 42) .create).advance
          (happen (calm Moment.new.shared)
            (defineUnder (.ofInt 42))) =
        (.finished (.ok (some id)), first) ∧
      (Values.resolve default (.text "42") .create).advance
          (happen first dropAndRenew) =
        (.finished (.ok (some other)), second) ∧
      id ≠ other := by
  have hPartial : ∀ happening ∈ dropAndRenew,
      ¬happening.IsFullReset := by
    simp [dropAndRenew, Happening.IsFullReset,
      Errand.IsFullReset]
  constructor
  · rcases scalars_have_one_identity .refl
      (show (Scalar.number .zero).isStorable by decide)
      (show (Scalar.number Number.zero.neg).isStorable by
        decide) default default _ hPartial
      (List.forall_mem_nil _) with
      ⟨id, other, found, first, second, last, hFirst,
        hSecond, hLast, hSame, hFound⟩
    have hId : id = other := hSame.2 (by decide)
    subst hId
    exact ⟨id, found, first, second, last, hFirst, hSecond,
      hLast, hFound⟩
  · rcases scalars_have_one_identity .refl
      (show (Scalar.ofInt 42).isStorable by decide)
      (show (Scalar.text "42").isStorable by decide)
      default default _ hPartial
      (List.forall_mem_nil _) with
      ⟨id, other, -, first, second, -, hFirst, hSecond, -,
        hSame, -⟩
    exact ⟨id, other, first, second, hFirst, hSecond,
      fun hId => absurd (hSame.1 hId) (by decide)⟩

/-
  An integer of 64 bits becomes a scalar if and only if some
  number has its value, that is, if its odd part has no more
  than 53 bits, and it is refused otherwise.  The scalar is
  the number with that value.  Were that number made an
  integer of 64 bits again to see if it was rounded, one more
  integer would pass, the greatest one.

  Different integers become scalars that are not equal.  They
  are interned one after the other.  Before and in between
  anything happens, but nothing fails.  The identities differ
  then, even if the dictionaries are emptied in between.
-/
theorem exact_integers_stay_apart
    {i : Int}
    (hSigned : Bounds.isSigned64 i) :
    ((∃ content, Check.exact i = .ok content) ↔
      ∃ x : Number, x.isFinite ∧ x.value = (i : ℚ)) ∧
    ((∃ x : Number, x.isFinite ∧ x.value = (i : ℚ)) ↔
      i = 0 ∨ Number.oddPart i < 2 ^ 53) ∧
    ((∀ content, Check.exact i ≠ .ok content) →
      Check.exact i = .error (.validation (.inexact i))) ∧
    ((∃ content, Check.exact i = .ok content) ↔
      (Number.ofInt i).toInt64 = i ∧
        i ≠ Number.mostInt64) ∧
    ∀ content, Check.exact i = .ok content →
      (∃ x : Number, content = .number x ∧ x.isFinite ∧
        x.value = (i : ℚ)) ∧
      ∀ (j : Int) (other : Scalar),
        Bounds.isSigned64 j →
        Check.exact j = .ok other →
        i ≠ j →
          content.same other = false ∧
          ∀ shared, Reachable shared →
            ∀ (policy policy' : Policy)
              (before between : List Happening),
              ∃ id later first second,
                (Values.resolve policy content
                    .create).advance
                  (happen (calm shared) before) =
                    (.finished (.ok (some id)), first) ∧
                (Values.resolve policy' other
                    .create).advance
                  (happen first between) =
                    (.finished (.ok (some later)),
                      second) ∧
                id ≠ later := by
  have hSize := Number.natAbs_lt_of_isSigned64 hSigned
  refine ⟨Check.exists_exact_eq_ok_iff.trans
      (Number.value_ofInt_eq_iff hSize), ?_, fun hNone => ?_,
    Check.exists_exact_eq_ok_iff.trans
      (Number.value_ofInt_eq_iff_toInt64 hSigned),
    fun content hContent => ⟨?_, ?_⟩⟩
  · rw [Number.exists_value_iff hSize]
    refine ⟨.inr, ?_⟩
    rintro (rfl | hOdd)
    · rw [Number.oddPart_zero]
      omega
    · exact hOdd
  · rw [Check.exact_eq, if_neg fun hValue =>
      (Check.exists_exact_eq_ok_iff.2 hValue).elim hNone]
  · rcases Check.exact_eq_ok_iff.1 hContent with ⟨hValue, rfl⟩
    exact ⟨_, rfl, Number.isFinite_ofInt hSize, hValue⟩
  · intro j other hSigned' hOther hDiffer
    have hSame : content.same other = false :=
      Bool.eq_false_iff.2 fun hSame => hDiffer
        ((Check.same_iff_of_exact hContent hOther).1 hSame)
    refine ⟨hSame, fun shared hReachable policy policy' before
      between => ?_⟩
    have hTidy := (hReachable.tidy.happen before).1
    exact hTidy.interns_apart policy policy'
      (Check.isStorable_of_exact hSigned hContent)
      (Check.isStorable_of_exact hSigned' hOther) hSame between

/- All dictionaries are emptied. -/
def emptyAll : List Happening :=
  [.errand default (.call (.reset true))]

/-
  The first even integers beyond 53 bits have different
  identities, also if the dictionaries are emptied in
  between.  The odd one between them is refused, the least
  integer of 64 bits passes, and the greatest does not.
-/
theorem exact_integers_stay_apart_beyond_53_bits :
    (∃ id later first second,
      (Values.resolve default (.ofInt 9007199254740992)
          .create).advance
        (happen (calm Moment.new.shared) []) =
          (.finished (.ok (some id)), first) ∧
      (Values.resolve default (.ofInt 9007199254740994)
          .create).advance (happen first emptyAll) =
          (.finished (.ok (some later)), second) ∧
      id ≠ later) ∧
    Check.exact 9007199254740993 =
      .error (.validation (.inexact 9007199254740993)) ∧
    (∃ content,
      Check.exact (-9223372036854775808) = .ok content) ∧
    ∀ content, Check.exact 9223372036854775807 ≠ .ok content := by
  rcases exact_integers_stay_apart
    (show Bounds.isSigned64 9007199254740992 by decide) with
    ⟨-, -, -, -, hApart⟩
  rcases hApart (.ofInt 9007199254740992)
    (by decide +kernel) with ⟨-, hOthers⟩
  rcases hOthers 9007199254740994 (.ofInt 9007199254740994)
    (by decide) (by decide +kernel) (by decide) with
    ⟨-, hIdentities⟩
  rcases exact_integers_stay_apart
    (show Bounds.isSigned64 9007199254740993 by decide) with
    ⟨-, -, hRefused, -, -⟩
  rcases exact_integers_stay_apart
    (show Bounds.isSigned64 (-9223372036854775808) by
      decide) with ⟨-, -, -, hLeast, -⟩
  rcases exact_integers_stay_apart
    (show Bounds.isSigned64 9223372036854775807 by
      decide) with ⟨-, -, -, hMost, -⟩
  have hOdd : ∀ content,
      Check.exact 9007199254740993 ≠ .ok content := by
    intro content hContent
    have hNone : Check.exact 9007199254740993 =
        .error (.validation (.inexact 9007199254740993)) := by
      decide +kernel
    rw [hNone] at hContent
    cases hContent
  exact ⟨hIdentities _ .refl default default [] emptyAll,
    hRefused hOdd,
    hLeast.2 ⟨by decide +kernel, by decide⟩,
    fun content hContent => (hMost.1 ⟨content, hContent⟩).2 rfl⟩

end Session

end SparseTables
