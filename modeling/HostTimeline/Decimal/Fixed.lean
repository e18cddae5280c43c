import HostTimeline.Decimal.Shortest

/-!
Amounts as tables show them: integers in full, other numbers with two decimals.
-/

namespace HostTimeline.Binary64

/-- An integral number without decimals, any other with two.  The exact value is
rounded, halves to the even neighbour; a negative number keeps its sign when it
rounds to zero. -/
def amountChars (x : Float) : List Char :=
  match parts x with
  | .notANumber => ['N', 'a', 'N']
  | .infinite negative => infinityText negative
  | .finite negative significand exponent =>
      Decimal.sign negative ++
        match integer? x with
        | some value => Decimal.digitsOf value.natAbs
        | none =>
            Decimal.withPlaces (roundQuotient (100 * significand) (fractionUnit exponent)) 2

def amountText (x : Float) : String :=
  String.ofList (amountChars x)

end HostTimeline.Binary64
