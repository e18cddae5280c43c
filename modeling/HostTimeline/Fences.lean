import HostTimeline.Scalar

/-!
Rejection of outliers by the interquartile range.  A host whose clock is off can
report times far away from everyone else's; `withoutOutliers` drops the values
that lie more than one and a half interquartile ranges outside the quartiles.
-/

namespace HostTimeline

/-- The least and the greatest value that is no outlier. -/
structure Fences (α : Type) where
  lower : α
  upper : α
deriving Repr

namespace Fences

variable {α : Type} [Scalar α]

/-- The value at a position, or the last one for a position past the end. -/
def atOrLast (values : List α) (position : Nat) : α :=
  values.getD (min position (values.length - 1)) Scalar.zero

def midpoint (left right : α) : α :=
  (left + right) / Scalar.ofInt 2

/-- The two quartiles of ascending values.  With a length divisible by four each is
the midpoint of the values after a quarter's end, otherwise the value one past it;
the third quarter's end is rounded up. -/
def quartiles (sorted : List α) : α × α :=
  let count := sorted.length
  if count % 4 = 0 then
    (midpoint (atOrLast sorted (count / 4)) (atOrLast sorted (count / 4 + 1)),
      midpoint (atOrLast sorted (count * 3 / 4)) (atOrLast sorted (count * 3 / 4 + 1)))
  else
    (atOrLast sorted (count / 4 + 1), atOrLast sorted ((count * 3 + 3) / 4 + 1))

/-- Fences one and a half interquartile ranges outside the quartiles. -/
def ofQuartiles (first third : α) : Fences α :=
  let reach := (third - first) * (Scalar.ofInt 3 / Scalar.ofInt 2)
  { lower := first - reach, upper := third + reach }

def ofValues (values : List α) : Fences α :=
  let (first, third) := quartiles (Scalar.sort values)
  ofQuartiles first third

def admits (fences : Fences α) (value : α) : Bool :=
  decide (fences.lower ≤ value) && decide (value ≤ fences.upper)

end Fences

variable {α : Type} [Scalar α]

/-- The values within the fences, in their order.  Fewer than four values have no
outliers. -/
def withoutOutliers (values : List α) : List α :=
  if values.length < 4 then
    values
  else
    values.filter (Fences.ofValues values).admits

end HostTimeline
