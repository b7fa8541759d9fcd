/-!
# Formula.Lexeme.Error

What can be wrong with a piece of a text, and where.  Places are counted in
bytes from the beginning of the normal form of the text.
-/

namespace Formula

/-- Why a piece of a text is no token. -/
inductive LexError
  | trailingDecimalPoint (literal : String) (position : Nat)
  | duplicateDecimalPoint (literal : String) (position : Nat)
  | illegalCharacter (character : Char) (position : Nat)
  | unknownIdentifier (name : String) (position : Nat)
  | variablesNotAllowed (name : String) (position : Nat)
  | indexInScalarMode (position : Nat)
  | scalarInVectorMode (position : Nat)
  | indexOutOfRange (index : String) (dimension : Nat) (position : Nat)
  | invalidIndex (index : String) (position : Nat)
  | unclosedIndex (position : Nat)
  deriving DecidableEq, Repr

namespace LexError

/-- The place of the error. -/
def position : LexError → Nat
  | trailingDecimalPoint _ position | duplicateDecimalPoint _ position
  | illegalCharacter _ position | unknownIdentifier _ position
  | variablesNotAllowed _ position | indexInScalarMode position
  | scalarInVectorMode position | indexOutOfRange _ _ position
  | invalidIndex _ position | unclosedIndex position => position

/-- The error in words. -/
def message : LexError → String
  | trailingDecimalPoint literal position =>
    s!"malformed number '{literal}' at position {position}: trailing decimal point"
  | duplicateDecimalPoint literal position =>
    s!"malformed number '{literal}' at position {position}: more than one decimal point"
  | illegalCharacter character position =>
    s!"illegal character '{character}' at position {position}"
  | unknownIdentifier name position =>
    s!"'{name}' at position {position} is not a valid variable or function name"
  | variablesNotAllowed name position =>
    s!"variable '{name}' at position {position} is not allowed in a constant expression"
  | indexInScalarMode position =>
    s!"indexed variable at position {position} used, but only the scalar variable x is allowed"
  | scalarInVectorMode position =>
    s!"scalar variable at position {position} used, but indexed variables x[i] are expected"
  | indexOutOfRange index dimension position =>
    s!"variable index {index} at position {position} is out of range 0..{dimension}"
  | invalidIndex index position =>
    s!"variable index '{index}' at position {position} is not a non-negative integer literal"
  | unclosedIndex position =>
    s!"variable index at position {position} is missing its closing ']'"

end LexError

end Formula
