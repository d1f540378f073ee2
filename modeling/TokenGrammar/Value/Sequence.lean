import TokenGrammar.Fault

/-!
This module contains the access to the items of a sequence by place: one item, or the items of a slice.
Places below zero count from the end.
-/

namespace TokenGrammar
namespace Value

/--
The item at a place.
-/
def itemAt (items : List Value) (index : Int) : Except Fault Value :=
  let place := if index < 0 then index + items.length else index
  if place < 0 then .error .indexOutOfRange
  else match items[place.toNat]? with
    | some value => .ok value
    | none => .error .indexOutOfRange

/--
A slice: where it starts, where it stops, and how far apart its places are. What is left out is chosen
so that the slice reaches to the ends.
-/
structure Slice where
  start : Option Int
  stop : Option Int
  step : Option Int

/--
A bound of a slice of a sequence with `length` items. A bound beyond the ends is moved to the nearest
place from `first` to `last`.
-/
def Slice.bound (length first last : Int) (bound : Int) : Int :=
  max first (min last (if bound < 0 then bound + length else bound))

/--
The places of a slice that goes up or down from `place` in steps until it passes `stop`, at most
`count` of them.
-/
def Slice.places (stop step place : Int) : (count : Nat) → List Int
  | 0 => []
  | count + 1 =>
    if (0 < step && place < stop) || (step < 0 && stop < place) then
      place :: Slice.places stop step (place + step) count
    else []

/--
The items of a slice.
-/
def sliceOf (items : List Value) (slice : Slice) : Except Fault (List Value) :=
  let step := slice.step.getD 1
  if step == 0 then .error .zeroStep
  else
    let length : Int := items.length
    let (first, last) := if step < 0 then (-1, length - 1) else (0, length)
    let start := slice.start.elim (if step < 0 then last else first) (Slice.bound length first last)
    let stop := slice.stop.elim (if step < 0 then first else last) (Slice.bound length first last)
    .ok ((Slice.places stop step start items.length).filterMap fun place => items[place.toNat]?)

end Value
end TokenGrammar
