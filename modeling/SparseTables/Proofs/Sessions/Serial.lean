import SparseTables.Proofs.Session.Committing
import SparseTables.Proofs.Sessions.Forum

/-
  This file states that sessions can define items at the same
  time as if they did so one after another.

  The requests whose changes were committed give the items
  their attributes, in the order of the commits.  The others
  have failed, and no item has attributes of them.

  Main declarations:
    * `Session.Errand.define?`
    * `Session.defining`
    * `Session.Forum.made`
    * `Session.Forum.Recorded`
    * `Session.Forum.Serial`
    * `Session.Forum.definitions_serialize`
-/

namespace SparseTables

open Program

namespace Session

------------------------------------------------------------
-- Definitions
------------------------------------------------------------

/- The request to define an item, if it is one. -/
def Errand.define? : Errand → Option Define
  | call (.define request) => some request
  | _ => none

/- Errands that define items, with two attempts at least. -/
def defining : Terms where
  concord := soundConcord
  takes policies errand := errand.define?.isSome ∧
    2 ≤ policies.rows.attempts ∧ 2 ≤ policies.values.attempts
  pledge errand := definePledge errand.define?
  good _ outcome committed _ :=
    committed ↔ ∃ given, outcome = .ok given
  good_later _ hGood := hGood
  amid := by
    rintro policies errand contents
      ⟨hDefines, hRows, hValues⟩ hReady hSound
    cases errand with
    | call made =>
        cases made with
        | define request =>
            exact settles_define hRows hValues hSound hReady
        | _ => cases hDefines
    | _ => cases hDefines

namespace Forum

------------------------------------------------------------
-- What was committed
------------------------------------------------------------

/- The requests that were committed, in that order. -/
def made (forum : Forum) : List Define :=
  forum.log.filterMap fun index =>
    forum.errands[index]?.bind Errand.define?

/-
  The attributes of all items are what the requests that were
  committed have made of them, one after another, and only
  these requests have given an item a new slot.
-/
structure Recorded (first : Contents) (forum : Forum) :
    Prop where
  known : ∀ index ∈ forum.log, index < forum.errands.length
  metadata : ∀ table key,
    forum.committed.metadataIn table key =
      Define.applyAll forum.made table key
        (first.metadataIn table key)
  slots : ∀ slot ∈ forum.committed.slots,
    slot ∈ first.slots ∨ ∃ request ∈ forum.made,
      forum.committed.IsItemFor request slot.itemId

/- New jobs have not committed anything. -/
theorem Recorded.made_eq
    {first : Contents}
    {before after : Forum}
    (hRecorded : before.Recorded first)
    {new : List Errand}
    (hErrands : after.errands = before.errands ++ new)
    (hLog : after.log = before.log) :
    after.made = before.made := by
  unfold Forum.made
  rw [hLog]
  refine List.filterMap_congr fun index hIndex => ?_
  rw [hErrands, List.getElem?_append_left
    (hRecorded.known index hIndex)]

/- Nothing else was committed than before. -/
theorem Recorded.extends
    {first : Contents}
    {before after : Forum}
    (hRecorded : before.Recorded first)
    {new : List Errand}
    (hErrands : after.errands = before.errands ++ new)
    (hExtends : before.committed.Extends after.committed)
    (hLog : after.log = before.log) :
    after.Recorded first where
  known index hIndex := by
    rw [hLog] at hIndex
    have hOld := hRecorded.known index hIndex
    rw [hErrands, List.length_append]
    omega
  metadata table key := by
    rw [hExtends.metadata, hRecorded.made_eq hErrands hLog]
    exact hRecorded.metadata table key
  slots slot hSlot := by
    rw [hExtends.slots] at hSlot
    rw [hRecorded.made_eq hErrands hLog]
    refine (hRecorded.slots slot hSlot).imp_right ?_
    rintro ⟨request, hRequest, hItem⟩
    exact ⟨request, hRequest, hExtends.widens.isItemFor hItem⟩

/- A move commits one request at most. -/
theorem Recorded.moved
    {first : Contents}
    {before after : Forum}
    (hRecorded : before.Recorded first)
    (hMoved : before.Moved defining after) :
    after.Recorded first := by
  cases hMoved with
  | rests hErrands hSame hLog =>
      exact hRecorded.extends
        (by rw [hErrands, List.append_nil])
        (hSame ▸ .refl _) hLog
  | starts errand hErrands hSame hLog =>
      exact hRecorded.extends hErrands (hSame ▸ .refl _) hLog
  | adds hErrand hErrands hAdds hLog =>
      exact hRecorded.extends
        (by rw [hErrands, List.append_nil]) hAdds hLog
  | @commits index errand hErrand hErrands hCommits hLog =>
      rcases hCommits with ⟨request, hRequest, hApplies⟩
      have hMade : after.made = before.made ++ [request] := by
        simp [made, hLog, hErrands, hErrand, hRequest]
      constructor
      · intro other hOther
        rw [hErrands]
        rw [hLog] at hOther
        rcases List.mem_append.1 hOther with hOld | hNew
        · exact hRecorded.known other hOld
        · rw [List.mem_singleton.1 hNew]
          exact (List.getElem?_eq_some_iff.1 hErrand).1
      · intro table key
        rw [hApplies.metadata, hMade,
          Define.applyAll_concat, hRecorded.metadata]
      · intro slot hSlot
        rw [hMade]
        rcases hApplies.slots slot hSlot with hOld | hItem
        · refine (hRecorded.slots slot hOld).imp_right ?_
          rintro ⟨other, hOther, hItem⟩
          exact ⟨other, List.mem_append_left _ hOther,
            hApplies.widens.isItemFor hItem⟩
        · exact Or.inr ⟨request,
            List.mem_append_right _ (.head _), hItem⟩

------------------------------------------------------------
-- One after another
------------------------------------------------------------

/-
  Jobs have defined items as if one had done so after the
  other.  Some time ago there were earlier contents.
-/
structure Serial
    (first earlier : Contents)
    (forum : Forum) : Prop where
  /- Attributes are what was committed, in that order. -/
  metadata : ∀ table key,
    forum.committed.metadataIn table key =
      Define.applyAll forum.made table key
        (first.metadataIn table key)
  /- New slots belong to items of what was committed. -/
  slots : ∀ slot ∈ forum.committed.slots,
    slot ∈ first.slots ∨ ∃ request ∈ forum.made, ∃ item,
      forum.committed.itemIn? request.table request.key =
        some item ∧ item.id = slot.itemId
  /- No job commits twice, -/
  once : forum.log.Nodup
  /- and who is over has committed or failed. -/
  settled : ∀ index session errand outcome,
    forum.jobs[index]? =
        some ⟨session, errand, .done outcome⟩ →
      (index ∈ forum.log ↔ ∃ given, outcome = .ok given)
  /- Slots refer to attributes and to values of their kinds, -/
  sound : forum.committed.Sound
  /- and an attribute is of the kind that it has ever been. -/
  kinds : ∀ slot ∈ forum.committed.slots,
    ∀ attr_ ∈ earlier.attributes.rows,
      attr_.id = slot.attributeId →
        ∃ value ∈ forum.committed.values.rows,
          value.id = slot.valueId ∧
            value.content.isNumeric = attr_.numeric

/-
  Sessions define items at the same time, each job with two
  attempts at least, and any call of the store may fail.  No
  job is stuck, and the store is free when all are over.
-/
theorem definitions_serialize
    {circle : Circle}
    (hStarts : circle.Starts defining.concord)
    {moves more : List Move}
    (hDefines : ∀ move ∈ moves ++ more, defining.Admits move)
    {earlier forum : Forum}
    (hEarlier : (Forum.of circle).follow moves = some earlier)
    (hFollow : earlier.follow more = some forum) :
    forum.Serial circle.contents earlier.committed ∧
      (forum.isOver →
        forum.circle.contents = forum.committed) ∧
      (forum.isOver = false →
        ∃ index next, forum.step? index = some next) := by
  have hFirst : (Forum.of circle).Along defining 0
      (.apart false circle.contents) :=
    .of_starts hStarts
  rcases hFirst.follow
    (fun move hMove =>
      hDefines move (List.mem_append_left _ hMove))
    hEarlier with ⟨⟨_, _, hMiddle⟩, hMoves⟩
  rcases hMiddle.follow
    (fun move hMove =>
      hDefines move (List.mem_append_right _ hMove))
    hFollow with ⟨⟨holder, standing, hAlong⟩, hMore⟩
  have hStart : (Forum.of circle).Recorded
      circle.contents := by
    refine ⟨by simp [Forum.of], fun table key => ?_,
      fun slot hSlot => ?_⟩
    · rw [hFirst.committed]
      rfl
    · rw [hFirst.committed] at hSlot
      exact Or.inl hSlot
  have hRecorded : forum.Recorded circle.contents :=
    (hMoves.trans hMore).rec hStart
      fun _ hMoved hRecorded => hRecorded.moved hMoved
  have hNow : forum.committed.Sound :=
    hAlong.committed ▸ hAlong.such
  refine ⟨?_, hAlong.contents_of_isOver, hAlong.exists_step⟩
  exact
    { metadata := hRecorded.metadata
      slots := by
        intro slot hSlot
        refine (hRecorded.slots slot hSlot).imp_right ?_
        rintro ⟨request, hRequest, hItem⟩
        exact ⟨request, hRequest,
          hNow.isItemFor_iff.1 hItem⟩
      once := hAlong.once
      settled := fun index session errand outcome hJob =>
        decide_eq_true_iff.symm.trans (hAlong.good hJob)
      sound := hNow
      kinds := by
        intro slot hSlot attr_ hAttr hId
        have hStill := (widens_of_moves
          hMore).retains.attributes attr_ hAttr
        rcases hNow.slotsFit slot hSlot with
          ⟨own, hOwn, value, hValue, hOwnId, hValueId, hKind,
            -⟩
        cases hNow.attributes.eq_of_id hOwn hStill
          (hOwnId.trans hId.symm)
        exact ⟨value, hValue, hValueId, hKind⟩ }

/- Set one attribute of one item. -/
def setting (name : String) (content : Scalar) : Errand :=
  .call (.define ⟨"t", .text "k", [(name, some content)]⟩)

/-
  Four jobs define an item.  The second one is of another
  mind than the first about the kind of an attribute.
-/
def crowding : List Move :=
  [.start 0 default (setting "a" (.number .zero)),
    .start 1 default (setting "a" (.text "x")),
    .start 0 default (setting "b" (.text "y")),
    .start 1 default (setting "b" (.text "z"))] ++
  ((List.replicate 14 [0, 1, 2, 3]).flatten ++
    (List.replicate 4 [0, 2, 3]).flatten ++ [0, 2] ++
    List.replicate 5 0 ++ List.replicate 6 2 ++
    List.replicate 8 3).map Move.step

/- The second commit will fail. -/
def failing : Faults :=
  Faults.none.plan
    ⟨some .commit, "", 1, 1, false, .store .noTransaction⟩

/- Two jobs commit, and the other two leave no slot. -/
theorem definitions_serialize_crowd :
    ∃ forum,
      (Forum.of (Circle.of
        (withFaults Moment.new.shared failing).store)).follow
          crowding = some forum ∧
      (forum.isOver ∧ forum.log = [0, 3] ∧
        forum.circle.contents.slots.filterMap
            forum.circle.contents.named? =
          [("a", .number .zero), ("b", .text "z")]) ∧
      forum.Serial .empty forum.committed := by
  have hRun :
      ((Forum.of (Circle.of
        (withFaults Moment.new.shared failing).store)).follow
          crowding).map (fun forum => decide (forum.isOver ∧
            forum.log = [0, 3] ∧
            forum.circle.contents.slots.filterMap
                forum.circle.contents.named? =
              [("a", .number .zero), ("b", .text "z")])) =
        some true := by
    decide +kernel
  rcases Option.map_eq_some_iff.1 hRun with
    ⟨forum, hFollow, hFacts⟩
  have hTwice : 2 ≤ (default : Policies).rows.attempts ∧
      2 ≤ (default : Policies).values.attempts := by decide
  have hDefines : ∀ move ∈ crowding ++ [],
      defining.Admits move := by
    rw [List.append_nil]
    refine List.forall_mem_append.2
      ⟨?_, List.forall_mem_map.2 fun _ _ => trivial⟩
    simp [setting, Terms.Admits, defining, Errand.define?,
      hTwice]
  exact ⟨forum, hFollow, of_decide_eq_true hFacts,
    (definitions_serialize
      (.of_reachable .refl id (by
        simp [failing, Faults.plan, Faults.none, Faults.Within,
          PlannedFault.Within, defining, soundConcord]))
      hDefines hFollow rfl).1⟩

end Forum

end Session

end SparseTables
