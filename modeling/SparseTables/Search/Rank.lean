import SparseTables.Search.Query

/-
  This file scores texts for a search.  A text scores for the
  phrases that it holds: more for a phrase that few texts
  hold, for one that it holds often, and when it is short.

  Key definitions include:
    * `Search.score`
-/

namespace SparseTables

namespace Search

/- How quickly repeated phrases stop to count. -/
def saturation : Float :=
  1.2

/- How much the length of a text counts. -/
def lengthWeight : Float :=
  0.75

/- The weight of a phrase that nearly all texts hold. -/
def leastWeight : Float :=
  0.000001

/- The weight of a phrase that so many of all texts hold. -/
def weight (all holding : Nat) : Float :=
  let n := Float.ofNat holding
  let found :=
    Float.log ((Float.ofNat all - n + 0.5) / (n + 0.5))
  if found > 0 then found else leastWeight

/- The mean number of terms in a text. -/
def meanLength (texts : List (List String)) : Float :=
  let total := texts.foldl (fun n terms => n + terms.length) 0
  Float.ofNat total / Float.ofNat texts.length

/- What one phrase adds to the score of a text. -/
def share
    (texts : List (List String))
    (terms : List String)
    (phrase : Phrase) : Float :=
  let holding := texts.countP fun other =>
    decide (0 < phrase.count other)
  let count := Float.ofNat (phrase.count terms)
  let length :=
    Float.ofNat terms.length / meanLength texts
  weight texts.length holding *
    (count * (saturation + 1) /
      (count + saturation *
        (1 - lengthWeight + lengthWeight * length)))

------------------------------------------------------------
-- What counts
------------------------------------------------------------

/- A text among all texts in the order of the store. -/
structure Place where
  texts : List (List String)
  index : Nat

namespace Place

/- The terms of the text. -/
def terms (place : Place) : List String :=
  place.texts[place.index]?.getD []

/- The first text from some index on that a search concerns. -/
def next?
    (place : Place)
    (mark : Nat)
    (search : Search) : Option Nat :=
  ((place.texts.drop mark).findIdx? search.concerns).map
    fun n => mark + n

/- Does a search concern no text at all? -/
def isIdle (place : Place) (search : Search) : Bool :=
  !place.texts.any search.concerns

/- Does a search hold of the text at an index? -/
def holdsAt
    (place : Place)
    (index : Nat)
    (search : Search) : Bool :=
  search.holds (place.texts[index]?.getD [])

end Place

/-
  The phrases that count for a text.

  A part of a search stands at the first text from a mark on
  that it concerns, and counts if that is the text.  All
  parts are marked with the text, but for those inside `AND`
  and `NOT`, which stand where the whole stands, and for what
  `NOT` keeps out of nothing, which is never moved on from
  the first text.  The flag says that the search is one of
  alternatives.
-/
def counting (place : Place) :
    Bool → Nat → Search → List Phrase
  | _, mark, phrase p =>
      if place.next? mark (.phrase p) = some place.index then
        [p]
      else
        []
  | _, mark, both left right =>
      match place.next? mark (both left right) with
      | none => []
      | some n =>
          if place.holdsAt n (both left right) then
            left.counting place false n ++
              right.counting place false n
          else
            []
  | alternative, mark, either left right =>
      if !alternative && place.isIdle (either left right) then
        []
      else
        left.counting place true mark ++
          right.counting place true mark
  | _, mark, without left right =>
      if place.isIdle left then
        left.counting place false place.texts.length ++
          right.counting place false 0
      else
        match place.next? mark (without left right) with
        | none => left.counting place false place.texts.length
        | some n =>
            left.counting place false n ++
              right.counting place false n

/- The score of a text among all texts. -/
def score (search : Search) (place : Place) : Float :=
  (search.counting place false place.index).foldl
    (fun sum phrase =>
      sum + share place.texts place.terms phrase) 0

end Search

end SparseTables
