import Mathlib.Data.List.Basic
import Mathlib.Data.List.Induction
import SparseTables.Plan.Aliases
import SparseTables.Word

/-
  This file shows which alias is handed out for a base, that
  it is handed out once, and when aliases differ by more than
  the case of their letters.

  The candidates for a base are all different, so among one
  more of them than there are aliases in use one is free.

  Aliases are compared as texts when they are handed out, but
  the store ignores letter case.  An alias is a base, or a
  base and a number.  Two of them can be the same but for
  letter case only if one base is the beginning of the other,
  but for letter case, with nothing but digits behind it.

  Main declarations:
    * `Word.isAlias`
    * `Aliases.free_not_mem`
    * `Aliases.Numbers`
    * `Aliases.seek`
    * `Aliases.claims_take_first_free`
    * `Aliases.Agree`
    * `Aliases.Numbers.eq_of_agree`
-/

namespace SparseTables

------------------------------------------------------------
-- Digits
------------------------------------------------------------

/- Digits have no letter case. -/
theorem toLower_of_isDigit
    {c : Char}
    (hDigit : c.isDigit = true) :
    c.toLower = c := by
  have hBelow : c.val.toNat ≤ 57 := by
    simp only [Char.isDigit, Bool.and_eq_true,
      decide_eq_true_eq] at hDigit
    exact hDigit.2
  unfold Char.toLower
  rw [dif_neg]
  intro hCapital
  have hAbove : 65 ≤ c.val.toNat := hCapital.1
  omega

theorem isDigit_of_toLower
    {c : Char}
    (hDigit : c.toLower.isDigit = true) :
    c.isDigit = true := by
  unfold Char.toLower at hDigit
  split at hDigit
  · rename_i hCapital
    have hMost : c.val.toNat ≤ 90 := hCapital.2
    have hLeast : 65 ≤ c.val.toNat := hCapital.1
    have hSum : (c.val + ('a'.val - 'A'.val)).toNat =
        c.val.toNat + 32 := by
      rw [UInt32.toNat_add]
      change (c.val.toNat + 32) % 2 ^ 32 = _
      omega
    simp only [Char.isDigit, Bool.and_eq_true,
      decide_eq_true_eq] at hDigit
    have hBelow : (c.val + ('a'.val - 'A'.val)).toNat ≤ 57 :=
      hDigit.2
    omega
  · exact hDigit

theorem isDigit_of_mem_toString
    {number : Nat}
    {c : Char}
    (hMem : c ∈ (toString number).toList) :
    c.isDigit = true := by
  rw [Nat.toString_eq_ofList_toDigits,
    String.toList_ofList] at hMem
  exact Nat.isDigit_of_mem_toDigits (by decide) (by decide)
    hMem

theorem toString_injective
    {left right : Nat}
    (hSame : toString left = toString right) :
    left = right := by
  rw [Nat.toString_eq_ofList_toDigits,
    Nat.toString_eq_ofList_toDigits,
    String.ofList_inj] at hSame
  simpa using congrArg (Nat.ofDigitChars 10 · 0) hSame

namespace Aliases

------------------------------------------------------------
-- Candidates
------------------------------------------------------------

/- No two candidates for a base are the same. -/
theorem candidate_injective (base : String) :
    Function.Injective (candidate base) := by
  have hLonger (number : Nat) :
      base ≠ base ++ toString (number + 2) := by
    intro hSame
    rw [Nat.toString_eq_ofList_toDigits] at hSame
    have hNone := String.append_right_inj base |>.1
      (String.append_empty.trans hSame)
    simp at hNone
  intro left right hSame
  match left, right with
  | 0, 0 => rfl
  | 0, right + 1 => exact absurd hSame (hLonger right)
  | left + 1, 0 => exact absurd hSame.symm (hLonger left)
  | left + 1, right + 1 =>
      have hNumbers := toString_injective
        (String.append_right_inj base |>.1 hSame)
      omega

/-
  The search ends at the first candidate that is not in use,
  and there are no more candidates before it than aliases.
-/
theorem freeFrom_spec
    (base : String)
    (number : Nat)
    {tries : Nat}
    {used : List String}
    (hTries : used.length ≤ tries) :
    ∃ found, number ≤ found ∧
      found ≤ number + used.length ∧
      freeFrom base tries number used =
        candidate base found ∧
      candidate base found ∉ used ∧
      ∀ earlier, number ≤ earlier → earlier < found →
        candidate base earlier ∈ used := by
  induction tries generalizing number used with
  | zero =>
      have hNone : used = [] := by
        simpa using hTries
      exact ⟨number, Nat.le_refl _, Nat.le_add_right _ _, rfl,
        by simp [hNone], by omega⟩
  | succ tries ih =>
      rw [freeFrom]
      by_cases hUsed :
          used.contains (candidate base number) = true
      · rw [if_pos hUsed]
        have hMem := List.contains_iff_mem.1 hUsed
        have hPos := List.length_pos_of_mem hMem
        have hLength := List.length_erase_of_mem hMem
        have hFewer :
            (used.erase (candidate base number)).length ≤
              tries := by
          omega
        rcases ih (number + 1) hFewer with
          ⟨found, hLater, hMost, hFound, hFree, hEarlier⟩
        refine ⟨found, by omega, by omega, hFound,
          fun hIn => ?_, fun earlier hLe hLess => ?_⟩
        · have hOther : candidate base found ≠
              candidate base number := by
            intro hSame
            have := candidate_injective base hSame
            omega
          exact hFree ((List.mem_erase_of_ne hOther).2 hIn)
        · rcases Nat.eq_or_lt_of_le hLe with rfl | hMore
          · exact hMem
          · exact List.mem_of_mem_erase
              (hEarlier earlier hMore hLess)
      · rw [if_neg hUsed]
        exact ⟨number, Nat.le_refl _, Nat.le_add_right _ _,
          rfl, fun hIn => hUsed (List.contains_iff_mem.2 hIn),
          by omega⟩

/- The free alias is the first candidate not in use. -/
theorem free_spec (aliases : Aliases) (base : String) :
    ∃ found ≤ aliases.used.length,
      aliases.free base = candidate base found ∧
      candidate base found ∉ aliases.used ∧
      ∀ earlier < found,
        candidate base earlier ∈ aliases.used := by
  rcases freeFrom_spec base 0
    (Nat.le_refl aliases.used.length) with
    ⟨found, -, hMost, hFound, hFree, hEarlier⟩
  exact ⟨found, by omega, hFound, hFree,
    fun earlier => hEarlier earlier (Nat.zero_le _)⟩

/- The free candidate is in fact free. -/
theorem free_not_mem (aliases : Aliases) (base : String) :
    aliases.free base ∉ aliases.used := by
  rcases aliases.free_spec base with ⟨_, -, hFound, hFree, -⟩
  rw [hFound]
  exact hFree

/- Is an alias a base, with a number behind it or not? -/
def Numbers (base label : String) : Prop :=
  ∃ number, label = candidate base number

theorem numbers_free (aliases : Aliases) (base : String) :
    Numbers base (aliases.free base) := by
  rcases aliases.free_spec base with ⟨found, -, hFound, -⟩
  exact ⟨found, hFound⟩

/- Nothing but digits comes behind a base. -/
theorem Numbers.exists_digits
    {base label : String}
    (hNumbers : Numbers base label) :
    ∃ digits : List Char,
      label.toList = base.toList ++ digits ∧
        ∀ c ∈ digits, c.isDigit = true := by
  rcases hNumbers with ⟨_ | number, rfl⟩
  · exact ⟨[], by simp, by simp⟩
  · exact ⟨(toString (number + 2)).toList,
      String.toList_append,
      fun c hMem => isDigit_of_mem_toString hMem⟩

end Aliases

------------------------------------------------------------
-- Shapes of aliases
------------------------------------------------------------

/- A letter, and letters and digits behind it. -/
def Word.isAlias (text : String) : Bool :=
  match text.toList with
  | [] => false
  | c :: rest => c.isAlpha && rest.all Char.isAlphanum

namespace Word

theorem isAlias_iff {text : String} :
    isAlias text = true ↔ ∃ c rest, text.toList = c :: rest ∧
      c.isAlpha = true ∧ ∀ d ∈ rest, d.isAlphanum = true := by
  unfold isAlias
  cases text.toList with
  | nil => simp
  | cons c rest => simp

theorem isAlphanum_of_isAlias
    {text : String}
    (hText : isAlias text = true)
    {c : Char}
    (hMem : c ∈ text.toList) :
    c.isAlphanum = true := by
  rcases isAlias_iff.1 hText with
    ⟨first, rest, hList, hFirst, hRest⟩
  rw [hList] at hMem
  rcases List.mem_cons.1 hMem with rfl | hMem
  · simp [Char.isAlphanum, hFirst]
  · exact hRest c hMem

/- Letters and digits may come behind an alias. -/
theorem isAlias_of_append
    {text longer : String}
    (hText : isAlias text = true)
    {behind : List Char}
    (hLonger : longer.toList = text.toList ++ behind)
    (hBehind : ∀ c ∈ behind, c.isAlphanum = true) :
    isAlias longer = true := by
  rcases isAlias_iff.1 hText with
    ⟨first, rest, hList, hFirst, hRest⟩
  refine isAlias_iff.2 ⟨first, rest ++ behind, ?_, hFirst, ?_⟩
  · rw [hLonger, hList, List.cons_append]
  · intro c hMem
    rcases List.mem_append.1 hMem with hMem | hMem
    · exact hRest c hMem
    · exact hBehind c hMem

/- A cleaned name is an alias, whatever the name is. -/
theorem isAlias_clean (name : String) :
    isAlias (clean name) = true := by
  have hKept : ∀ c ∈ name.toList.filter Char.isAlphanum,
      c.isAlphanum = true :=
    fun c hMem => (List.mem_filter.1 hMem).2
  rw [isAlias_iff, clean, String.toList_ofList, cleanList]
  cases hList : name.toList.filter Char.isAlphanum with
  | nil => exact ⟨'a', [], rfl, by decide, by simp⟩
  | cons first rest =>
      rw [hList] at hKept
      dsimp only
      split
      · rename_i hFirst
        exact ⟨first, rest, rfl, hFirst, fun c hMem =>
          hKept c (List.mem_cons_of_mem _ hMem)⟩
      · exact ⟨'a', first :: rest, rfl, by decide, hKept⟩

/- So it is behind the letters of a join. -/
theorem isAlias_append_clean
    {front : String}
    (hFront : isAlias front = true)
    (name : String) :
    isAlias (front ++ clean name) = true :=
  isAlias_of_append hFront String.toList_append
    fun _ hMem =>
      isAlphanum_of_isAlias (isAlias_clean name) hMem

end Word

/- With a number behind it, an alias is one still. -/
theorem Aliases.Numbers.isAlias
    {base label : String}
    (hNumbers : Aliases.Numbers base label)
    (hBase : Word.isAlias base = true) :
    Word.isAlias label = true := by
  rcases hNumbers.exists_digits with ⟨digits, hLabel, hDigits⟩
  exact Word.isAlias_of_append hBase hLabel fun c hMem => by
    simp [Char.isAlphanum, hDigits c hMem]

namespace Aliases

------------------------------------------------------------
-- Claims
------------------------------------------------------------

/- The aliases after all claims for bases, in their order. -/
def claimed (bases : List String) : Aliases :=
  bases.foldl
    (fun aliases base => (aliases.claim base).2) .empty

theorem claimed_concat (bases : List String) (base : String) :
    claimed (bases ++ [base]) =
      ((claimed bases).claim base).2 := by
  simp [claimed]

/- Every claim adds one alias behind the earlier ones. -/
theorem used_claimed_concat
    (bases : List String)
    (base : String) :
    (claimed (bases ++ [base])).used =
      (claimed bases).used ++ [(claimed bases).free base] := by
  rw [claimed_concat]
  rfl

theorem length_used_claimed (bases : List String) :
    (claimed bases).used.length = bases.length := by
  induction bases using List.reverseRecOn with
  | nil => rfl
  | append_singleton bases base ih =>
      rw [used_claimed_concat, List.length_append,
        List.length_append, ih]
      rfl

/-
  Try one candidate after another, from a number on, until
  one is not in use.  So many tries are made at most.
-/
def seek (used : List String) (base : String) :
    Nat → Nat → Option String
  | 0, _ => none
  | tries + 1, number =>
      if candidate base number ∈ used then
        seek used base tries (number + 1)
      else
        some (candidate base number)

/- The tries lead to the first free candidate, or run out. -/
theorem seek_eq
    {used : List String}
    {base : String}
    {found : Nat}
    (hFree : candidate base found ∉ used)
    (hEarlier : ∀ earlier < found,
      candidate base earlier ∈ used)
    {number : Nat}
    (hNumber : number ≤ found)
    (tries : Nat) :
    seek used base tries number =
      if found < number + tries then
        some (candidate base found)
      else none := by
  induction tries generalizing number with
  | zero =>
      rw [if_neg (by omega)]
      rfl
  | succ tries ih =>
      rw [seek]
      rcases Nat.eq_or_lt_of_le hNumber with rfl | hLess
      · rw [if_neg hFree, if_pos (by omega)]
      · rw [if_pos (hEarlier number hLess), ih hLess,
          Nat.succ_add, Nat.add_succ]

/-
  After claims for some bases, a claim for another one takes
  one more try than there are aliases in use, or fewer.  Its
  alias is the base, or the base and a number from 2 on, and
  is the first of these that is not in use; it is added to the
  aliases in use.  For a cleaned name, with the letters of a
  join before it or not, it is a letter with letters and
  digits behind it.
-/
theorem claims_take_first_free
    (bases : List String)
    (base : String) :
    ∃ label tries,
      (claimed bases).claim base =
        (label, claimed (bases ++ [base])) ∧
      (claimed (bases ++ [base])).used =
        (claimed bases).used ++ [label] ∧
      (claimed bases).used.length = bases.length ∧
      (∀ most, seek (claimed bases).used base most 0 =
        if tries ≤ most then some label else none) ∧
      tries ≤ (claimed bases).used.length + 1 ∧
      label ∉ (claimed bases).used ∧
      (tries = 1 ∧ label = base ∨
        2 ≤ tries ∧ label = base ++ toString tries ∧
          base ∈ (claimed bases).used ∧
          ∀ earlier, 2 ≤ earlier → earlier < tries →
            base ++ toString earlier ∈
              (claimed bases).used) ∧
      ∀ front ∈ ["", "iv", "fts"], ∀ name,
        base = front ++ Word.clean name →
          Word.isAlias label = true := by
  rcases (claimed bases).free_spec base with
    ⟨found, hMost, hFound, hFree, hEarlier⟩
  refine ⟨candidate base found, found + 1, ?_, ?_,
    length_used_claimed bases, fun most => ?_, by omega, hFree,
    ?_, fun front hFront name hBase => ?_⟩
  · rw [claimed_concat, ← hFound]
    rfl
  · rw [used_claimed_concat, hFound]
  · rw [seek_eq hFree hEarlier (Nat.zero_le _), Nat.zero_add]
    rfl
  · cases found with
    | zero => exact .inl ⟨rfl, rfl⟩
    | succ found =>
        refine .inr ⟨by omega, rfl, hEarlier 0 (by omega),
          fun earlier hLe hLess => ?_⟩
        obtain ⟨number, rfl⟩ := Nat.exists_eq_add_of_le' hLe
        exact hEarlier (number + 1) (by omega)
  · have hNumbers : Numbers base (candidate base found) :=
      ⟨found, rfl⟩
    refine hNumbers.isAlias ?_
    rw [hBase]
    simp only [List.mem_cons, List.not_mem_nil, or_false]
      at hFront
    rcases hFront with rfl | rfl | rfl
    · rw [String.empty_append]
      exact Word.isAlias_clean name
    · exact Word.isAlias_append_clean (by decide) name
    · exact Word.isAlias_append_clean (by decide) name

/- A base, its second and its third alias clash with bases. -/
example :
    (claimed ["foo", "foo", "foo2", "foo22", "foo", "foo2"]
      ).used =
      ["foo", "foo2", "foo22", "foo222", "foo3", "foo23"] := by
  decide

------------------------------------------------------------
-- Letter case
------------------------------------------------------------

/-
  Where one text begins another but for letter case, with
  only digits behind it, it begins it letter by letter.
-/
def Agree (short long : List Char) : Prop :=
  short.map Char.toLower <+: long.map Char.toLower →
    (∀ c ∈ long.drop short.length, c.isDigit = true) →
    short <+: long

instance (short long : List Char) :
    Decidable (Agree short long) :=
  decidable_of_iff
    (short.map Char.toLower <+: long.map Char.toLower →
      (long.drop short.length).all Char.isDigit = true →
      short <+: long)
    (by rw [Agree, List.all_eq_true])

theorem map_toLower_of_isDigit
    {digits : List Char}
    (hDigits : ∀ c ∈ digits, c.isDigit = true) :
    digits.map Char.toLower = digits := by
  rw [List.map_congr_left fun c hMem =>
    toLower_of_isDigit (hDigits c hMem), List.map_id']

/- A base that agrees with another begins it exactly. -/
theorem Agree.eq_append
    {short long digits : List Char}
    (hAgree : Agree short long)
    (hDigits : ∀ c ∈ digits, c.isDigit = true)
    (hSame : long.map Char.toLower =
      short.map Char.toLower ++ digits) :
    long = short ++ digits := by
  have hRest : (long.drop short.length).map Char.toLower =
      digits := by
    rw [List.map_drop, hSame]
    exact List.drop_left' (List.length_map _)
  have hBehind : ∀ c ∈ long.drop short.length,
      c.isDigit = true := by
    intro c hMem
    apply isDigit_of_toLower
    apply hDigits
    rw [← hRest]
    exact List.mem_map_of_mem hMem
  rcases hAgree ⟨digits, hSame.symm⟩ hBehind with
    ⟨rest, rfl⟩
  rw [List.drop_left] at hRest hBehind
  rw [map_toLower_of_isDigit hBehind] at hRest
  rw [hRest]

/-
  Aliases for bases that agree are the same if they are so
  but for letter case.
-/
theorem Numbers.eq_of_agree
    {first second left right : String}
    (hLeft : Numbers first left)
    (hRight : Numbers second right)
    (hForth : Agree first.toList second.toList)
    (hBack : Agree second.toList first.toList)
    (hSame : left.map Char.toLower =
      right.map Char.toLower) :
    left = right := by
  rcases hLeft.exists_digits with ⟨some, hFirst, hSome⟩
  rcases hRight.exists_digits with ⟨other, hSecond, hOther⟩
  have hLists := congrArg String.toList hSame
  rw [String.toList_map, String.toList_map, hFirst, hSecond,
    List.map_append, List.map_append,
    map_toLower_of_isDigit hSome,
    map_toLower_of_isDigit hOther,
    List.append_eq_append_iff] at hLists
  apply String.toList_inj.1
  rw [hFirst, hSecond]
  rcases hLists with ⟨digits, hLonger, rfl⟩ |
    ⟨digits, hLonger, rfl⟩
  · rw [hForth.eq_append (fun c hMem =>
      hSome c (List.mem_append_left _ hMem)) hLonger,
      List.append_assoc]
  · rw [hBack.eq_append (fun c hMem =>
      hOther c (List.mem_append_left _ hMem)) hLonger,
      List.append_assoc]

end Aliases

end SparseTables
