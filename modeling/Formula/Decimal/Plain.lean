import Formula.Decimal.Shortest

/-!
# Formula.Decimal.Plain

The text of a double wherever the library writes one: the fewest digits that
read back, in positional notation whatever the size of the number.  A whole
number has no point, zero keeps its sign, and the values that are no numbers
have the texts of `PlainFormat`.
-/

namespace Formula

/-- The words for the doubles that no digits can write. -/
structure PlainFormat where
  nan : String
  infinity : String
  minus : String

/-- The words this library uses. -/
def plainFormat : PlainFormat := ⟨"NaN", "inf", "-"⟩

namespace Double

/-- A sign before a text. -/
def signed (negative : Bool) (text : List Char) : List Char :=
  if negative then plainFormat.minus.toList ++ text else text

/-- The text of a double. -/
def plain : Double → List Char
  | nan => plainFormat.nan.toList
  | infinite negative => signed negative plainFormat.infinity.toList
  | finite negative b => signed negative b.shortest.plain

end Double

/-- The text of a machine number: `3`, `-0`, `0.0000001`, `inf`. -/
def plainText (x : Float) : String :=
  String.ofList (Double.ofFloat x).plain

end Formula
