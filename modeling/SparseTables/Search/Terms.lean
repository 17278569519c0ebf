import SparseTables.Text.Folded
import SparseTables.Text.Separators

/-
  This file splits texts into search terms: the runs of
  characters that no separator parts, in small letters and
  without marks.

  Key definitions include:
    * `Terms.ofText`
-/

namespace SparseTables

namespace Terms

/- A mark belongs to a term but does not start one. -/
def continues (c : Char) : Bool :=
  !Separators.isSeparator c || Folded.isMark c

/- Put a finished term in front of the later ones. -/
def emit
    (current : Option (List Char))
    (later : List String) : List String :=
  match current with
  | none => later
  | some cs => String.ofList cs.reverse :: later

/-
  Collect terms; `current` holds the open term, its last
  character first.
-/
def collect (current : Option (List Char)) :
    List Char → List String
  | [] => emit current []
  | c :: rest =>
      match current with
      | none =>
          if Separators.isSeparator c then
            collect none rest
          else
            collect (some (Folded.fold c).toList) rest
      | some cs =>
          if continues c then
            collect (some ((Folded.fold c).toList ++ cs)) rest
          else
            emit current (collect none rest)

/- The terms of a text, in order. -/
def ofText (text : String) : List String :=
  collect none text.toList

end Terms

end SparseTables
