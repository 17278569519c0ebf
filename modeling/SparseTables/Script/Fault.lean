import SparseTables.Store.Engine

/-
  This file defines failures that are planned for calls of
  the store.

  A planned failure lets some calls pass and fails the next
  ones.  A call can fail before it has an effect, or after
  it: then only its answer is lost.

  Key definitions include:
    * `PlannedFault`
    * `Faults`
    * `Faults.meet`
-/

namespace SparseTables

/- A planned failure of calls. -/
structure PlannedFault where
  /- The kind of calls; none stands for every kind. -/
  kind : Option Request.Kind
  /- A part of the statement's text. -/
  text : String
  /- How many calls still pass. -/
  skip : Nat
  /- How many calls still fail. -/
  times : Nat
  /- Do the calls have their effect? -/
  late : Bool
  error : Error

namespace PlannedFault

/- Does a text contain another one? -/
def contains (part : List Char) : List Char → Bool
  | [] => part.isEmpty
  | c :: rest =>
      part.isPrefixOf (c :: rest) || contains part rest

/- Is a call one of those that the failure is planned for? -/
def fits
    (fault : PlannedFault)
    (kind : Request.Kind)
    (text : String) : Bool :=
  decide (0 < fault.times) &&
    fault.kind.all (fun wanted => wanted = kind) &&
    contains fault.text.toList text.toList

end PlannedFault

/- How a call fails. -/
structure Failure where
  late : Bool
  error : Error

/- Planned failures, and how many calls have failed. -/
structure Faults where
  planned : List PlannedFault
  fired : Nat

namespace Faults

def none : Faults :=
  ⟨[], 0⟩

instance : Inhabited Faults :=
  ⟨none⟩

/- Plan a failure behind those that are planned. -/
def plan (faults : Faults) (fault : PlannedFault) : Faults :=
  { faults with planned := faults.planned ++ [fault] }

/- Give up what is planned. -/
def clear (faults : Faults) : Faults :=
  { faults with planned := [] }

/-
  The failure of a call: only the first planned failure that
  fits it counts.
-/
def meetFirst
    (kind : Request.Kind)
    (text : String) :
    List PlannedFault → Option Failure × List PlannedFault
  | [] => (.none, [])
  | fault :: rest =>
      if fault.fits kind text then
        if 0 < fault.skip then
          (.none, { fault with skip := fault.skip - 1 } :: rest)
        else
          (some ⟨fault.late, fault.error⟩,
            { fault with times := fault.times - 1 } :: rest)
      else
        let (failure, rest) := meetFirst kind text rest
        (failure, fault :: rest)

/- Decide whether a call fails. -/
def meet
    (faults : Faults)
    (kind : Request.Kind)
    (text : String) : Option Failure × Faults :=
  let (failure, planned) := meetFirst kind text faults.planned
  (failure,
    { planned
      fired :=
        if failure.isSome then faults.fired + 1
        else faults.fired })

end Faults

end SparseTables
