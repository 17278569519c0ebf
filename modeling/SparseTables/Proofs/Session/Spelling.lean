import Mathlib.Tactic.SplitIfs
import SparseTables.Proofs.Query.Statements
import SparseTables.Proofs.Query.Writing
import SparseTables.Proofs.Session.Scoping

/-
  This file states what callers can rely on about the
  operators in the statements that their queries become.

  An operator is accepted in every letter case, and written
  with the one word that the engine has for it.  The Kelvin
  sign is accepted for the letter that it looks like, but it
  is written as it is, and the engine knows no such word.  A
  query that is read from a text has no such sign.

  Main declarations:
    * `Word.engineWord?`
    * `Predicate.subject`
    * `Scope.Renders.spells`
    * `Session.operators_are_written`
    * `Session.operators_not_always_written`
-/

namespace SparseTables

------------------------------------------------------------
-- Letter case
------------------------------------------------------------

namespace Word

/- The character that only looks like a small letter. -/
def kelvin : Char :=
  '\u212A'

/- The words of the engine for the operators. -/
def engineWords : List (String × String) :=
  [("=", "="), ("<>", "<>"), (">", ">"), (">=", ">="),
    ("<", "<"), ("<=", "<="), ("matches", "MATCH"),
    ("like", "LIKE")]

/- The word of the engine for an operator in any case. -/
def engineWord? (op : String) : Option String :=
  engineWords.lookup (lower op)

/- A small letter is 32 places behind its capital. -/
theorem toNat_add_place
    {c : Char}
    (hMost : c.val.toNat ≤ 90) :
    (c.val + ('a'.val - 'A'.val)).toNat =
      c.val.toNat + 32 := by
  rw [UInt32.toNat_add]
  change (c.val.toNat + 32) % 2 ^ 32 = _
  omega

/- Small letters have the capitals that they come from. -/
theorem toUpper_toLower (c : Char) :
    c.toLower.toUpper = c.toUpper := by
  unfold Char.toLower
  split
  · rename_i hCapital
    have hLeast : 65 ≤ c.val.toNat := hCapital.1
    have hMost : c.val.toNat ≤ 90 := hCapital.2
    have hSum := toNat_add_place hMost
    have hFirst : 97 ≤
        (c.val + ('a'.val - 'A'.val)).toNat := by omega
    have hLast :
        (c.val + ('a'.val - 'A'.val)).toNat ≤ 122 := by omega
    unfold Char.toUpper
    rw [dif_pos ⟨hFirst, hLast⟩, dif_neg]
    · refine Char.ext ?_
      change c.val + ('a'.val - 'A'.val) +
        ('A'.val - 'a'.val) = c.val
      rw [UInt32.add_assoc]
      exact UInt32.add_zero _
    · intro hSmall
      have hAbove : 97 ≤ c.val.toNat := hSmall.1
      omega
  · rfl

/- Without the sign, small forms are small letters. -/
theorem lower_eq_of_plain
    {text : String}
    (hPlain : kelvin ∉ text.toList) :
    lower text = text.map Char.toLower := by
  rw [lower, ← String.toList_inj, String.toList_map,
    String.toList_map]
  refine List.map_congr_left fun c hMem => ?_
  have hOther : c ≠ '\u212A' := by
    rintro rfl
    exact hPlain hMem
  simp [small, hOther]

/- Without the sign, the capitals do not tell letter cases. -/
theorem upper_lower
    {text : String}
    (hPlain : kelvin ∉ text.toList) :
    upper (lower text) = upper text := by
  rw [lower_eq_of_plain hPlain, upper, upper,
    ← String.toList_inj]
  simp only [String.toList_map, List.map_map]
  exact List.map_congr_left fun c _ => toUpper_toLower c

/- What is in small letters is without the sign. -/
theorem kelvin_not_mem_lower (text : String) :
    kelvin ∉ (lower text).toList := by
  rw [lower, String.toList_map, List.mem_map]
  rintro ⟨c, -, hSmall⟩
  unfold small at hSmall
  split at hSmall
  · revert hSmall
    decide
  · rename_i hOther
    unfold Char.toLower at hSmall
    split at hSmall
    · rename_i hCapital
      have hMost : c.val.toNat ≤ 90 := hCapital.2
      have hSum := toNat_add_place hMost
      have hSame : (c.val + ('a'.val - 'A'.val)).toNat =
          8490 :=
        congrArg (fun d : Char => d.val.toNat) hSmall
      omega
    · exact hOther (by simpa [kelvin] using hSmall)

theorem sameLetters_matches_iff (op : String) :
    sameLetters op "matches" = true ↔
      lower op = "matches" :=
  sameLetters_iff_lower_eq (by decide) (by decide) (by decide)
    op

/- Searches are spelled without the sign. -/
theorem kelvin_not_mem_of_matches
    {op : String}
    (hSearch : sameLetters op "matches" = true) :
    kelvin ∉ op.toList := by
  intro hSign
  have hLower : kelvin ∈ op.toList.map Char.toLower :=
    List.mem_map.2 ⟨kelvin, hSign, by decide⟩
  rw [sameLetters_iff.1 hSearch] at hLower
  revert hLower
  decide

/- The engine has a word for every operator. -/
theorem exists_engineWord
    {op : String}
    (hOperator : isOperator op = true) :
    ∃ word, engineWord? op = some word := by
  rw [isOperator, List.contains_iff_mem] at hOperator
  rw [← Option.isSome_iff_exists, engineWord?]
  generalize lower op = small at hOperator
  revert small
  decide

/- Without the sign, its word is that in capitals. -/
theorem engineWord?_eq_upper
    {op : String}
    (hOperator : isOperator op = true)
    (hPlain : kelvin ∉ op.toList)
    (hCompares : lower op ≠ "matches") :
    engineWord? op = some (upper op) := by
  rw [isOperator, List.contains_iff_mem] at hOperator
  rw [engineWord?, ← upper_lower hPlain]
  generalize lower op = small at hOperator hCompares
  revert small
  decide +kernel

/- With the sign, an operator is none of the engine's. -/
theorem ofText?_of_kelvin
    {op : String}
    (hSign : kelvin ∈ op.toList) :
    Operator.ofText? op = none := by
  have hUpper : kelvin ∈ (upper op).toList := by
    rw [upper, String.toList_map]
    exact List.mem_map.2 ⟨kelvin, hSign, by decide⟩
  unfold Operator.ofText?
  split <;> first
    | rfl
    | (rename_i hSame
       rw [hSame] at hUpper
       revert hUpper
       decide)

end Word

------------------------------------------------------------
-- Conditions
------------------------------------------------------------

namespace Predicate

/- What the operator of a condition stands behind. -/
def subject : Predicate → String
  | never => ""
  | compare left _ _ => left.render
  | .matches label _ => label ++ ".bvalues_fts"

/- A condition is written with an operator and a parameter. -/
def IsWritten
    (made : Predicate)
    (word param : String) : Prop :=
  made.render = made.subject ++ " " ++ word ++ " " ++ param

end Predicate

/-
  A criterion that is not written as false is written with
  the word of the engine, unless it has the Kelvin sign: then
  the engine does not know its operator.
-/
theorem Scope.Renders.spells
    {scope : Scope}
    {joins : List Join}
    {part : Criterion}
    {made : Predicate}
    (hRenders : scope.Renders joins part made)
    (hOperator : Word.isOperator part.op = true)
    (hMade : made ≠ .never) :
    ∃ word, Word.engineWord? part.op = some word ∧
      (Word.kelvin ∉ part.op.toList →
        made.IsWritten word part.param) ∧
      (Word.kelvin ∈ part.op.toList →
        ∃ left, made = .compare left part.op part.param ∧
          Operator.ofText? part.op = none) := by
  cases hRenders with
  | unsearchable => exact absurd rfl hMade
  | search hSearch hSource hJoin =>
      have hLower := (Word.sameLetters_matches_iff _).1 hSearch
      have hPlain := Word.kelvin_not_mem_of_matches hSearch
      have hText : ".bvalues_fts MATCH " =
          ".bvalues_fts" ++ " " ++ "MATCH" ++ " " := rfl
      refine ⟨"MATCH", ?_, fun _ => ?_,
        fun hSign => absurd hSign hPlain⟩
      · rw [Word.engineWord?, hLower]
        rfl
      · simp only [Predicate.IsWritten, Predicate.render,
          Predicate.subject, hText, String.append_assoc]
  | comparison hSearch =>
      rcases Word.exists_engineWord hOperator with
        ⟨word, hWord⟩
      unfold Scope.condition at hMade ⊢
      split at hMade
      · rename_i left hLeft
        refine ⟨word, hWord, fun hPlain => ?_,
          fun hSign => ⟨left, rfl,
            Word.ofText?_of_kelvin hSign⟩⟩
        have hCompares : Word.lower part.op ≠ "matches" := by
          intro hLower
          rw [(Word.sameLetters_matches_iff _).2 hLower]
            at hSearch
          cases hSearch
        rw [Word.engineWord?_eq_upper hOperator hPlain
          hCompares] at hWord
        cases hWord
        rfl
      · exact absurd rfl hMade

------------------------------------------------------------
-- Plans and texts
------------------------------------------------------------

/- A plan is refused for an operator that is none. -/
theorem Plan.exists_prepare_error
    {plan : Plan}
    {left : Expr}
    {op param : String}
    (hMade : .compare left op param ∈ plan.conditions)
    (hUnknown : Operator.ofText? op = none) :
    ∃ other, plan.prepare =
      .error (.store (.unknownOperator other)) := by
  have hOp : op ∈ plan.operators :=
    List.mem_filterMap.2 ⟨_, hMade, rfl⟩
  unfold prepare
  cases hFind : plan.operators.find? fun op =>
      (Operator.ofText? op).isNone with
  | some other => exact ⟨other, rfl⟩
  | none =>
      have hKnown := List.find?_eq_none.1 hFind op hOp
      simp [hUnknown] at hKnown

/- What is read from a text has its operators in small. -/
theorem Select.kelvin_not_mem_of_read
    {text : String}
    {query : Select}
    (hRead : read text = .ok query)
    {part : Criterion}
    (hPart : part ∈ query.criteria) :
    Word.kelvin ∉ part.op.toList := by
  by_cases hPhrase : ∃ phrase : QueryPhrase,
      phrase.SpelledBy ((Token.scan text).1.map Token.text)
  · rcases hPhrase with ⟨phrase, hSpelled⟩
    rcases (read_eq_ok_iff hSpelled).1 hRead with ⟨-, rfl⟩
    have hLowered : ∃ draft, part = Draft.lowered draft := by
      rw [criteria, QueryPhrase.query] at hPart
      cases hCriteria : phrase.criteria with
      | none => simp [hCriteria] at hPart
      | some given =>
          simp only [hCriteria, Option.elim_some,
            List.flatMap_cons, List.flatMap_nil,
            List.append_nil] at hPart
          rcases List.mem_map.1 hPart with ⟨draft, -, rfl⟩
          exact ⟨draft, rfl⟩
    rcases hLowered with ⟨draft, rfl⟩
    exact Word.kelvin_not_mem_lower draft.op
  · rcases read_of_not_spelled hPhrase with ⟨fault, hError⟩
    rw [hError] at hRead
    cases hRead

------------------------------------------------------------
-- Statements
------------------------------------------------------------

namespace Session

/-
  In the statement of a query, a criterion that is not
  written as false is written with the word of the engine
  for its operator, however this is spelled.  With the Kelvin
  sign it is not, and the statement is refused; no criterion
  that was read from a text has it.
-/
theorem operators_are_written
    {shared after : Shared}
    (policies : Policies)
    {query : Select}
    {plan : Plan}
    {params : Params}
    (hCompile : (compile policies query).advance shared =
      (.finished (.ok (plan, params)), after)) :
    List.Forall₂
      (fun part made => made ≠ .never →
        ∃ word, Word.engineWord? part.op = some word ∧
          (Word.kelvin ∉ part.op.toList →
            made.IsWritten word part.param) ∧
          (Word.kelvin ∈ part.op.toList →
            ∃ other, plan.prepare =
              .error (.store (.unknownOperator other))))
      query.criteria plan.conditions ∧
    ∀ text read, Select.read text = .ok read →
      read.groups = query.groups →
        ∀ part ∈ query.criteria,
          Word.kelvin ∉ part.op.toList := by
  rcases exists_build_of_compile (.of_advance hCompile) with
    ⟨hCheck, table, known, -, rfl⟩
  constructor
  · have hRenders :=
      @Plan.conditions_build_render query table known
    refine List.forall₂_iff_zip.2 ⟨hRenders.length_eq,
      fun {part made} hBoth hNever => ?_⟩
    have hPart := (List.of_mem_zip hBoth).1
    have hMade := (List.of_mem_zip hBoth).2
    have hOne := (List.forall₂_iff_zip.1 hRenders).2 hBoth
    rcases hOne.spells
      (Select.criteria_of_check hCheck hPart).1 hNever with
      ⟨word, hWord, hPlain, hSign⟩
    refine ⟨word, hWord, hPlain, fun hKelvin => ?_⟩
    rcases hSign hKelvin with ⟨left, rfl, hUnknown⟩
    exact Plan.exists_prepare_error hMade hUnknown
  · intro text read hRead hGroups part hPart
    refine Select.kelvin_not_mem_of_read hRead ?_
    rwa [Select.criteria, hGroups]

/- A query that compares an attribute with an operator. -/
def comparing (op : String) : Select where
  columns := ["a"]
  source := "t"
  groups := [⟨.all, [⟨"a", op, "@p"⟩]⟩]
  orders := []
  limit := 0
  params := .empty

/- An operator with a capital is written in capitals. -/
theorem operators_are_written_capital :
    ∃ plan params after,
      (compile default (comparing "Like")).advance
          (withTexts "a" "c") =
        (.finished (.ok (plan, params)), after) ∧
      ∃ made, plan.conditions = [made] ∧
        made.IsWritten "LIKE" "@p" := by
  have hRun : (compile default (comparing "Like")).advance
        (withTexts "a" "c") =
      (.finished (.ok
        ((withTexts "a" "c").contents.planOf
          (comparing "Like"), .empty)), _) :=
    Prod.ext (Progress.eq_of_result? (by decide +kernel)) rfl
  have hConditions :
      ((withTexts "a" "c").contents.planOf
        (comparing "Like")).conditions =
        [.compare (.value "iva" .text) "Like" "@p"] := by
    decide +kernel
  have hWritten := (operators_are_written default hRun).1
  rw [hConditions] at hWritten
  cases hWritten with
  | cons hFirst _ =>
      rcases hFirst (by decide) with ⟨word, hWord, hPlain, -⟩
      have hLike : Word.engineWord? "Like" = some "LIKE" := by
        decide +kernel
      rw [hLike] at hWord
      cases hWord
      exact ⟨_, _, _, hRun, _, hConditions,
        hPlain (by decide +kernel)⟩

/- The Kelvin sign passes the check and is written as it is. -/
theorem operators_not_always_written :
    ¬ ∀ (shared after : Shared) (policies : Policies)
        (query : Select) (plan : Plan) (params : Params),
      Reachable shared →
      (compile policies query).advance shared =
        (.finished (.ok (plan, params)), after) →
      List.Forall₂
        (fun part made => made ≠ .never →
          ∃ word, Word.engineWord? part.op = some word ∧
            made.IsWritten word part.param)
        query.criteria plan.conditions := by
  intro hAll
  have hRun : (compile default
      (comparing "li\u212Ae")).advance
        (withTexts "a" "c") =
      (.finished (.ok
        ((withTexts "a" "c").contents.planOf
          (comparing "li\u212Ae"), .empty)), _) :=
    Prod.ext (Progress.eq_of_result? (by decide +kernel)) rfl
  have hMade := hAll _ _ default _ _ _
    (reachable_withTexts "a" "c") hRun
  have hConditions :
      ((withTexts "a" "c").contents.planOf
        (comparing "li\u212Ae")).conditions =
        [.compare (.value "iva" .text) "li\u212Ae" "@p"] := by
    decide +kernel
  rw [hConditions] at hMade
  cases hMade with
  | cons hFirst _ =>
      rcases hFirst (by decide) with ⟨word, hWord, hText⟩
      have hLike : Word.engineWord? "li\u212Ae" =
          some "LIKE" := by
        decide +kernel
      rw [hLike] at hWord
      cases hWord
      revert hText
      unfold Predicate.IsWritten
      decide +kernel

end Session

end SparseTables
