import HostTimeline.StableSort

/-!
Numbers the analysis computes with.  Everything between decoding a document and
printing a table is written over `Scalar`, so that one definition runs in
binary64 and can also be read over the rationals, where sums telescope.
-/

namespace HostTimeline

/-- Arithmetic and order of a kind of numbers.  `≤`, `<` and `==` compare by
value and may leave numbers incomparable; `precedes` is the total order that
sorting uses. -/
class Scalar (α : Type) extends Add α, Sub α, Mul α, Div α, LE α, LT α, BEq α where
  ofInt : Int → α
  /-- Leaves every number unchanged when added to it, its sign included. -/
  neutral : α
  precedes : α → α → Bool
  /-- The nearest integer, halves away from zero. -/
  round : α → α
  [decidableLE : DecidableLE α]
  [decidableLT : DecidableLT α]

namespace Scalar

variable {α : Type} [Scalar α]

instance : DecidableLE α := decidableLE

instance : DecidableLT α := decidableLT

def zero : α := ofInt 0

/-- Sums from left to right. -/
def sum (values : List α) : α :=
  values.foldl (· + ·) neutral

/-- The largest of the values and zero; of numbers that compare equal the last one
counts.  Incomparable values are passed over. -/
def maxWithZero (values : List α) : α :=
  values.foldl (fun greatest value => if greatest ≤ value then value else greatest) zero

def sort (values : List α) : List α :=
  stableSort precedes values

/-- Sorts by a key; elements with the same key keep their order. -/
def sortOn {β : Type} (key : β → α) (items : List β) : List β :=
  stableSort (fun left right => precedes (key left) (key right)) items

end Scalar

/-- The nearest integer, halves away from zero. -/
def roundRational (value : Rat) : Rat :=
  if 0 ≤ value then (value + 1 / 2).floor else -((-value + 1 / 2).floor : Int)

instance : Scalar Rat where
  ofInt := Rat.ofInt
  neutral := 0
  precedes left right := decide (left ≤ right)
  round := roundRational

end HostTimeline
