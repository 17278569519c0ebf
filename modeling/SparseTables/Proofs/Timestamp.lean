import Mathlib.Algebra.Group.Nat.Defs
import Mathlib.Data.List.TakeWhile
import SparseTables.Store.Clock
import SparseTables.Timestamp

/-
  This file shows that times are stored as they are written.

  A time of the calendar with a year of four digits is read
  back from its text.  The text spells no number, so a time
  column, which is for numbers, keeps it as a text.

  Main declarations:
    * `Cell.isNumeral`
    * `Timestamp.Proper`
    * `Timestamp.read_write`
    * `Timestamp.isNumeral_padded`
    * `Timestamp.ofNumeral_write`
    * `Clock.Tells`
    * `Cell.IsTime`
-/

namespace SparseTables

/- Does a text spell a number, with blanks around it? -/
def Cell.isNumeral (text : String) : Bool :=
  (Decimal.read (trimmed text)).isSome

namespace Timestamp

------------------------------------------------------------
-- Figures
------------------------------------------------------------

/- The characters of a number with zeros before it. -/
def figures (width n : Nat) : List Char :=
  List.replicate (width - (Nat.toDigits 10 n).length) '0' ++
    Nat.toDigits 10 n

theorem toList_padded (width n : Nat) :
    (padded width n).toList = figures width n :=
  String.toList_ofList

theorem isDigit_of_mem_figures
    {width n : Nat}
    {c : Char}
    (hMem : c ∈ figures width n) :
    c.isDigit = true := by
  rcases List.mem_append.1 hMem with hZero | hDigit
  · rw [List.eq_of_mem_replicate hZero]
    rfl
  · exact Nat.isDigit_of_mem_toDigits (by decide) (by decide)
      hDigit

/- A number is not written without a digit. -/
theorem exists_figures (width n : Nat) :
    ∃ c rest, figures width n = c :: rest ∧
      c.isDigit = true := by
  cases hFigures : figures width n with
  | nil => simp [figures] at hFigures
  | cons c rest =>
      have hMem : c ∈ figures width n := by simp [hFigures]
      exact ⟨c, rest, rfl, isDigit_of_mem_figures hMem⟩

theorem exists_last_figure (width n : Nat) :
    ∃ rest c, figures width n = rest ++ [c] ∧
      c.isDigit = true := by
  obtain ⟨first, more, hFigures, -⟩ := exists_figures width n
  have hSome : figures width n ≠ [] := by simp [hFigures]
  exact ⟨_, _, (List.dropLast_concat_getLast hSome).symm,
    isDigit_of_mem_figures (List.getLast_mem hSome)⟩

/- A digit is no sign. -/
theorem ne_sign_of_isDigit
    {c : Char}
    (hDigit : c.isDigit = true) :
    c ≠ '-' ∧ c ≠ '+' := by
  constructor <;>
    · rintro rfl
      cases hDigit

theorem skip_blank (cs : List Char) :
    skip (' ' :: cs) = skip cs :=
  rfl

/- A time of the calendar, with a year of four digits. -/
structure Proper (t : Timestamp) : Prop where
  year : 0 ≤ t.year ∧ t.year ≤ 9999
  month : 1 ≤ t.month ∧ t.month ≤ 12
  day : 1 ≤ t.day ∧ t.day ≤ daysIn t.year t.month
  hour : t.hour ≤ 23
  minute : t.minute ≤ 59
  second : t.second ≤ 59

variable {t : Timestamp}

theorem Proper.toList_write (hProper : t.Proper) :
    t.write.toList =
      figures 4 t.year.natAbs ++ '-' ::
        (figures 2 t.month ++ '-' ::
          (figures 2 t.day ++ ' ' ::
            (figures 2 t.hour ++ ':' ::
              (figures 2 t.minute ++ ':' ::
                figures 2 t.second)))) := by
  have hYear : writeYear t.year = padded 4 t.year.natAbs := by
    have hSign : ¬t.year < 0 :=
      Int.not_lt.2 hProper.year.1
    rw [writeYear, if_neg hSign, if_pos hProper.year.2]
  simp [write, hYear, toList_padded]

/- A text from a digit to a digit has no blanks to trim. -/
theorem trimmed_of_digits
    {text : String}
    (hFirst : ∃ c rest, text.toList = c :: rest ∧
      c.isDigit = true)
    (hLast : ∃ rest c, text.toList = rest ++ [c] ∧
      c.isDigit = true) :
    Cell.trimmed text = text.toList := by
  obtain ⟨first, behind, hFirst, hFirstDigit⟩ := hFirst
  obtain ⟨before, last, hLast, hLastDigit⟩ := hLast
  have hPadding {c : Char} (hDigit : c.isDigit = true) :
      Cell.isPadding c = false := by
    have hRange : 48 ≤ c.toNat ∧ c.toNat ≤ 57 := by
      simpa [Char.isDigit, UInt32.le_iff_toNat_le] using hDigit
    have hBlank : c ≠ ' ' := by
      rintro rfl
      exact absurd hRange (by decide)
    simp [Cell.isPadding, hBlank]
    omega
  have hFront : text.toList.dropWhile Cell.isPadding =
      text.toList := by
    rw [hFirst, List.dropWhile_cons_of_neg]
    simp [hPadding hFirstDigit]
  rw [Cell.trimmed, hFront, hLast, List.reverse_append,
    List.reverse_singleton, List.singleton_append,
    List.dropWhile_cons_of_neg
      (by simp [hPadding hLastDigit])]
  simp

theorem sign_figures (width n : Nat) (rest : List Char) :
    Decimal.sign (figures width n ++ rest) =
      (false, figures width n ++ rest) := by
  obtain ⟨c, more, hFigures, hDigit⟩ := exists_figures width n
  obtain ⟨hMinus, hPlus⟩ := ne_sign_of_isDigit hDigit
  rw [hFigures, List.cons_append]
  unfold Decimal.sign
  split
  · rename_i hSame
    exact absurd (List.cons.inj hSame).1 hMinus
  · rename_i hSame
    exact absurd (List.cons.inj hSame).1 hPlus
  · rfl

theorem span_figures
    (width n : Nat)
    {rest : List Char}
    (hRest : ∀ c ∈ rest.head?, c.isDigit = false) :
    Decimal.span (figures width n ++ rest) =
      (figures width n, rest) := by
  have hInside : ∀ c ∈ figures width n, c.isDigit = true :=
    fun c hMem => isDigit_of_mem_figures hMem
  rw [Decimal.span, List.takeWhile_append_of_pos hInside,
    List.dropWhile_append_of_pos hInside]
  cases rest with
  | nil => simp
  | cons c rest => simp [hRest c rfl]

/- Digits alone spell a number, such as a bare year does. -/
theorem isNumeral_padded (width n : Nat) :
    Cell.isNumeral (padded width n) = true := by
  have hTrimmed : Cell.trimmed (padded width n) =
      figures width n := by
    rw [← toList_padded]
    refine trimmed_of_digits ?_ ?_ <;> rw [toList_padded]
    · exact exists_figures width n
    · exact exists_last_figure width n
  obtain ⟨c, more, hFigures, -⟩ := exists_figures width n
  have hSome : (figures width n).isEmpty = false := by
    rw [hFigures]
    rfl
  have hSign := sign_figures width n []
  have hSpan := @span_figures width n [] (by simp)
  rw [List.append_nil] at hSign hSpan
  simp [Cell.isNumeral, hTrimmed, Decimal.read, hSign, hSpan,
    Decimal.fraction, Decimal.exponent?, hSome]

/- Behind its year, a time has a mark that no number has. -/
theorem decimal_of_figures
    (year : Nat)
    (rest : List Char) :
    Decimal.read (figures 4 year ++ '-' :: rest) = none := by
  have hSpan : Decimal.span (figures 4 year ++ '-' :: rest) =
      (figures 4 year, '-' :: rest) :=
    span_figures 4 year (by simp)
  simp [Decimal.read, sign_figures, hSpan, Decimal.fraction,
    Decimal.exponent?]

/- A time column keeps the text of a time. -/
theorem ofNumeral_write (hProper : t.Proper) :
    Cell.ofNumeral t.write = .text t.write := by
  obtain ⟨body, hText⟩ :
      ∃ body, t.write.toList =
        figures 4 t.year.natAbs ++ '-' ::
          (body ++ figures 2 t.second) := by
    refine ⟨figures 2 t.month ++ '-' ::
      (figures 2 t.day ++ ' ' ::
        (figures 2 t.hour ++ ':' ::
          (figures 2 t.minute ++ [':']))), ?_⟩
    simp [hProper.toList_write]
  obtain ⟨first, more, hFirst, hFirstDigit⟩ :=
    exists_figures 4 t.year.natAbs
  obtain ⟨fewer, last, hLast, hLastDigit⟩ :=
    exists_last_figure 2 t.second
  have hTrimmed : Cell.trimmed t.write = t.write.toList := by
    refine trimmed_of_digits
      ⟨first, more ++ '-' :: (body ++ figures 2 t.second), ?_,
        hFirstDigit⟩
      ⟨figures 4 t.year.natAbs ++ '-' :: (body ++ fewer), last,
        ?_, hLastDigit⟩
    · rw [hText, hFirst, List.cons_append]
    · rw [hText, hLast]
      simp
  rw [Cell.ofNumeral, hTrimmed, hText, decimal_of_figures]

end Timestamp

------------------------------------------------------------
-- Clocks that tell the time
------------------------------------------------------------

/- Does the clock tell a time of the calendar? -/
def Clock.Tells (clock : Clock) : Prop :=
  ∃ t : Timestamp, t.Proper ∧ clock.set = some t.write

/- Does a cell hold the text of such a time? -/
def Cell.IsTime (cell : Cell) : Prop :=
  ∃ t : Timestamp, t.Proper ∧ cell = .text t.write

/- What is stored for the current time is such a text. -/
theorem Clock.Tells.isTime_cell
    {clock : Clock}
    (hTells : clock.Tells) :
    clock.cell.IsTime := by
  obtain ⟨t, hProper, hSet⟩ := hTells
  refine ⟨t, hProper, ?_⟩
  rw [cell, hSet]
  exact Timestamp.ofNumeral_write hProper

/- The clock of a new store tells a time. -/
theorem Clock.tells_start : Clock.start.Tells := by
  refine ⟨⟨2024, 1, 1, 0, 0, 0⟩, ?_, by decide +kernel⟩
  constructor <;> decide +kernel

end SparseTables
