import Formula.Text.Normal

/-!
# Formula.Lexeme.Basic

The pieces of a text that are read as one: words with or without a subscript,
numerals, symbols, and any other character alone.  Each piece is as long as it
can be, and no text is refused:

* `text_cut` — a piece and what follows it are the text they were cut from;
* `join_split` — the pieces of a text, one after the other, are the text.
-/

namespace Formula

/-! ## Pieces -/

/-- The bracketed part of an indexed name. -/
structure Subscript where
  index : List Char
  closed : Bool
  deriving DecidableEq, Repr

/-- The characters that stand for operators and for grouping. -/
inductive Symbol
  | plus | minus | star | slash | caret | leftParen | rightParen | comma
  deriving DecidableEq, Repr

/-- A piece of a text. -/
inductive Lexeme
  | word (name : List Char) (subscript? : Option Subscript)
  | numeral (literal : List Char)
  | symbol (s : Symbol)
  | unknown (c : Char)
  deriving DecidableEq, Repr

/-- The text of a subscript. -/
def Subscript.text (s : Subscript) : List Char :=
  '[' :: (s.index ++ if s.closed then [']'] else [])

namespace Symbol

/-- The character of a symbol. -/
def char : Symbol → Char
  | plus => '+'
  | minus => '-'
  | star => '*'
  | slash => '/'
  | caret => '^'
  | leftParen => '('
  | rightParen => ')'
  | comma => ','

/-- Every symbol. -/
def all : List Symbol :=
  [plus, minus, star, slash, caret, leftParen, rightParen, comma]

/-- The symbol that a character stands for. -/
def ofChar? (c : Char) : Option Symbol := all.find? (·.char = c)

@[simp] theorem ofChar?_char (s : Symbol) : ofChar? s.char = some s := by
  cases s <;> decide

theorem char_of_ofChar? {c : Char} {s : Symbol} (h : ofChar? c = some s) : s.char = c := by
  simpa using List.find?_some h

end Symbol

/-- The text of a piece. -/
def Lexeme.text : Lexeme → List Char
  | word name subscript? => name ++ subscript?.elim [] Subscript.text
  | numeral literal => literal
  | symbol s => [s.char]
  | unknown c => [c]

/-! ## Cutting a text -/

/-- Whether a character may stand in a numeral after its first digit.  Points
are counted when the numeral is read. -/
def isNumeralChar (c : Char) : Bool := c.isDigit || c == '.'

/-- The subscript that a text begins with, and what follows it. -/
def Subscript.cut : List Char → Option Subscript × List Char
  | '[' :: cs =>
    match cs.dropWhile (· ≠ ']') with
    | _ :: rest => (some ⟨cs.takeWhile (· ≠ ']'), true⟩, rest)
    | [] => (some ⟨cs, false⟩, [])
  | cs => (none, cs)

namespace Lexeme

/-- The piece that a text beginning with `c` begins with, and what follows
it. -/
def cut (c : Char) (cs : List Char) : Lexeme × List Char :=
  if c.isAlpha then
    let after := Subscript.cut (cs.dropWhile Char.isAlpha)
    (word (c :: cs.takeWhile Char.isAlpha) after.1, after.2)
  else if c.isDigit then
    (numeral (c :: cs.takeWhile isNumeralChar), cs.dropWhile isNumeralChar)
  else
    match Symbol.ofChar? c with
    | some s => (symbol s, cs)
    | none => (unknown c, cs)

end Lexeme

/-- A subscript and what follows it are the text they were cut from. -/
theorem Subscript.text_cut (cs : List Char) :
    ((cut cs).1.elim [] Subscript.text) ++ (cut cs).2 = cs := by
  unfold cut
  split
  · rename_i cs
    split
    · rename_i c rest h
      have hc : c = ']' := by
        have := List.head?_dropWhile_not (· ≠ ']') cs
        rw [h] at this
        simpa using this
      have := List.takeWhile_append_dropWhile (p := (· ≠ ']')) (l := cs)
      rw [h, hc] at this
      simp only [Option.elim, text, List.cons_append, if_true, List.append_assoc, List.nil_append]
      rw [this]
    · simp [text]
  · simp

namespace Lexeme

/-- A piece and what follows it are the text they were cut from. -/
theorem text_cut (c : Char) (cs : List Char) : (cut c cs).1.text ++ (cut c cs).2 = c :: cs := by
  unfold cut
  split
  · simp only [text, List.append_assoc, List.cons_append, Subscript.text_cut,
      List.takeWhile_append_dropWhile]
  · split
    · simp [text]
    · split
      · rename_i s h
        simp [text, Symbol.char_of_ofChar? h]
      · simp [text]

/-- No piece is empty. -/
theorem text_cut_ne_nil (c : Char) (cs : List Char) : (cut c cs).1.text ≠ [] := by
  unfold cut
  split
  · simp [text]
  · split
    · simp [text]
    · split <;> simp [text]

/-- What follows a piece is shorter than the text. -/
theorem length_cut_le (c : Char) (cs : List Char) : (cut c cs).2.length ≤ cs.length := by
  have h := congrArg List.length (text_cut c cs)
  have := List.length_pos_iff.2 (text_cut_ne_nil c cs)
  simp only [List.length_append, List.length_cons] at h
  omega

/-- The pieces of a text. -/
def split : List Char → List Lexeme
  | [] => []
  | c :: cs => (cut c cs).1 :: split (cut c cs).2
termination_by cs => cs.length
decreasing_by
  have := length_cut_le c cs
  simp only [List.length_cons]
  omega

/-- The text that pieces make up. -/
def join (pieces : List Lexeme) : List Char := pieces.flatMap text

@[simp] theorem split_nil : split [] = [] := by simp [split]

theorem split_cons (c : Char) (cs : List Char) :
    split (c :: cs) = (cut c cs).1 :: split (cut c cs).2 := by
  rw [split]

/-- The pieces of a text make up the text. -/
theorem join_split (cs : List Char) : join (split cs) = cs := by
  fun_induction split cs with
  | case1 => rfl
  | case2 c cs ih =>
    simp only [join, List.flatMap_cons] at ih ⊢
    rw [ih, text_cut]

end Lexeme

end Formula
