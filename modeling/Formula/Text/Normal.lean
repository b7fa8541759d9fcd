import Formula.Text.CaseMap
import Formula.Text.Properties

/-!
# Formula.Text.Normal

The normal form of a text, in which spacing and letter case are gone.  Formulas
are read in normal form, and places in a formula are places in it.

* `lowerCase` — the lower case of a text by the Unicode rules that hold in
  every language;
* `normalise` — the lower case of what is left without blanks;
* `byteLength` — how places are counted.

Nearly every character has the lower case of `simpleLower`; there are two
exceptions:

* a capital I with a dot above becomes two characters, so that the dot is not
  lost;
* a capital sigma becomes the final form of the letter at the end of a word.
-/

namespace Formula.Text

/-! ## Lower case -/

/-- Whether a letter follows, when the characters that may stand inside a word
are passed over. -/
def meetsCased (cs : List Char) : Bool :=
  (cs.find? (! isCaseIgnorable ·)).any isCased

/-- The lower case of one character among its neighbours.  `before` is the text
before it, nearest character first, and `after` is the text that follows. -/
def lowerChar (before : List Char) (c : Char) (after : List Char) : List Char :=
  if c = 'Σ' then
    if meetsCased before && !meetsCased after then ['ς'] else ['σ']
  else if c = 'İ' then ['i', '\u0307']
  else [simpleLower c]

/-- The lower case of a text that follows the text `before`. -/
def lowerFrom (before : List Char) : List Char → List Char
  | [] => []
  | c :: after => lowerChar before c after ++ lowerFrom (c :: before) after

/-- The lower case of a text. -/
def lowerCase (cs : List Char) : List Char := lowerFrom [] cs

@[simp] theorem lowerCase_nil : lowerCase [] = [] := rfl

/-! ## The normal form -/

/-- The text without its blanks, in lower case. -/
def normalise (cs : List Char) : List Char :=
  lowerCase (cs.filter (! isBlank ·))

@[simp] theorem normalise_nil : normalise [] = [] := rfl

/-- The number of bytes of a text in UTF-8. -/
def byteLength : List Char → Nat
  | [] => 0
  | c :: cs => c.utf8Size + byteLength cs

@[simp] theorem byteLength_nil : byteLength [] = 0 := rfl

@[simp] theorem byteLength_cons (c : Char) (cs : List Char) :
    byteLength (c :: cs) = c.utf8Size + byteLength cs := rfl

@[simp] theorem byteLength_append (s t : List Char) :
    byteLength (s ++ t) = byteLength s + byteLength t := by
  induction s with
  | nil => simp
  | cons c s ih => simp [ih, Nat.add_assoc]

end Formula.Text
