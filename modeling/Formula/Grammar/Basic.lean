import Formula.Expr

/-!
# Formula.Grammar.Basic

The grammar of formulas.  A `Phrase` is a derivation: how a formula is made up
of sums, terms, factors and primaries, over whatever stands for its operands.

```
Sum     ::= Term | Sum (+|-) Term
Term    ::= Factor | Term (*|/) Factor
Factor  ::= Primary | Primary ^ Factor | (+|-) Factor
Primary ::= operand | ( Sum ) | function Primary | function ( Sum , … , Sum )
```

* `Phrase.tokens` — the formula as it is written;
* `Phrase.postOrder` — the same tokens in reverse Polish order;
* `Phrase.expr?` — the expression it means, if no call has several arguments.
-/

namespace Formula

/-- The four levels of a formula, and lists of two or more arguments. -/
inductive Level
  | sum | term | factor | primary | arguments
  deriving DecidableEq, Repr

/-- The operators that join terms. -/
inductive SumOp
  | add | sub
  deriving DecidableEq, Repr

/-- The operators that join factors. -/
inductive ProductOp
  | mul | div
  deriving DecidableEq, Repr

/-- The operator between two terms. -/
def SumOp.op : SumOp → BinOp
  | add => .add
  | sub => .sub

/-- The operator between two factors. -/
def ProductOp.op : ProductOp → BinOp
  | mul => .mul
  | div => .div

/-- A derivation of a formula whose operands are of type `α`. -/
inductive Phrase (α : Type) : Level → Type
  | operand (a : α) : Phrase α .primary
  | group (body : Phrase α .sum) : Phrase α .primary
  | apply (f : Func) (argument : Phrase α .primary) : Phrase α .primary
  | call (f : Func) (arguments : Phrase α .arguments) : Phrase α .primary
  | pair (first last : Phrase α .sum) : Phrase α .arguments
  | cons (first : Phrase α .sum) (rest : Phrase α .arguments) : Phrase α .arguments
  | ofPrimary (p : Phrase α .primary) : Phrase α .factor
  | power (base : Phrase α .primary) (exponent : Phrase α .factor) : Phrase α .factor
  | sign (s : Sign) (body : Phrase α .factor) : Phrase α .factor
  | ofFactor (p : Phrase α .factor) : Phrase α .term
  | product (lhs : Phrase α .term) (op : ProductOp) (rhs : Phrase α .factor) : Phrase α .term
  | ofTerm (p : Phrase α .term) : Phrase α .sum
  | sum (lhs : Phrase α .sum) (op : SumOp) (rhs : Phrase α .term) : Phrase α .sum

/-- An operand among tokens. -/
inductive Operand
  | number (value : Float)
  | var (index : Nat)
  deriving DecidableEq

/-- The token of an operand. -/
def Operand.token : Operand → Token
  | number value => .number value
  | var index => .var index

/-- The expression of an operand. -/
def Operand.expr : Operand → Expr
  | number value => .number value
  | var index => .var index

namespace Phrase

/-- The same derivation over other operands. -/
def map (g : α → β) : Phrase α l → Phrase β l
  | operand a => operand (g a)
  | group body => group (body.map g)
  | apply f argument => apply f (argument.map g)
  | call f arguments => call f (arguments.map g)
  | pair first last => pair (first.map g) (last.map g)
  | cons first rest => cons (first.map g) (rest.map g)
  | ofPrimary p => ofPrimary (p.map g)
  | power base exponent => power (base.map g) (exponent.map g)
  | sign s body => sign s (body.map g)
  | ofFactor p => ofFactor (p.map g)
  | product lhs op rhs => product (lhs.map g) op (rhs.map g)
  | ofTerm p => ofTerm (p.map g)
  | sum lhs op rhs => sum (lhs.map g) op (rhs.map g)

/-- The tokens of a formula as it is written. -/
def tokens : Phrase Operand l → List Token
  | operand a => [a.token]
  | group body => .leftParen :: (body.tokens ++ [.rightParen])
  | apply f argument => .func f :: argument.tokens
  | call f arguments => .func f :: .leftParen :: (arguments.tokens ++ [.rightParen])
  | pair first last => first.tokens ++ .comma :: last.tokens
  | cons first rest => first.tokens ++ .comma :: rest.tokens
  | ofPrimary p => p.tokens
  | power base exponent => base.tokens ++ .binary .pow :: exponent.tokens
  | sign s body => .sign s :: body.tokens
  | ofFactor p => p.tokens
  | product lhs op rhs => lhs.tokens ++ .binary op.op :: rhs.tokens
  | ofTerm p => p.tokens
  | sum lhs op rhs => lhs.tokens ++ .binary op.op :: rhs.tokens

/-- The tokens of a formula in reverse Polish order.  The commas of a call stay
between its arguments. -/
def postOrder : Phrase Operand l → List Token
  | operand a => [a.token]
  | group body => body.postOrder
  | apply f argument => argument.postOrder ++ [.func f]
  | call f arguments => arguments.postOrder ++ [.func f]
  | pair first last => first.postOrder ++ .comma :: last.postOrder
  | cons first rest => first.postOrder ++ .comma :: rest.postOrder
  | ofPrimary p => p.postOrder
  | power base exponent => base.postOrder ++ (exponent.postOrder ++ [.binary .pow])
  | sign s body => body.postOrder ++ [.sign s]
  | ofFactor p => p.postOrder
  | product lhs op rhs => lhs.postOrder ++ (rhs.postOrder ++ [.binary op.op])
  | ofTerm p => p.postOrder
  | sum lhs op rhs => lhs.postOrder ++ (rhs.postOrder ++ [.binary op.op])

/-- The expression that a formula means.  A call of several arguments, like a
list of arguments by itself, means none. -/
def expr? : Phrase Operand l → Option Expr
  | operand a => some a.expr
  | group body => body.expr?
  | apply f argument => return .apply f (← argument.expr?)
  | call _ _ | pair _ _ | cons _ _ => none
  | ofPrimary p => p.expr?
  | power base exponent => return .binary .pow (← base.expr?) (← exponent.expr?)
  | sign s body => return .sign s (← body.expr?)
  | ofFactor p => p.expr?
  | product lhs op rhs => return .binary op.op (← lhs.expr?) (← rhs.expr?)
  | ofTerm p => p.expr?
  | sum lhs op rhs => return .binary op.op (← lhs.expr?) (← rhs.expr?)

/-- An expression of one part is there when its part is. -/
theorem one_eq_some_iff {x : Option Expr} {f : Expr → Expr} {t : Expr} :
    (do return f (← x)) = some t ↔ ∃ u, x = some u ∧ f u = t := by
  cases x <;> simp

/-- An expression of two parts is there when both parts are. -/
theorem two_eq_some_iff {x y : Option Expr} {f : Expr → Expr → Expr} {t : Expr} :
    (do return f (← x) (← y)) = some t ↔ ∃ u v, x = some u ∧ y = some v ∧ f u v = t := by
  cases x <;> cases y <;> simp

/-- The order of a formula is the order of the expression it means. -/
theorem postOrder_of_expr? {p : Phrase Operand l} {t : Expr} (h : p.expr? = some t) :
    p.postOrder = t.postOrder := by
  induction p generalizing t with
  | operand a =>
    cases h
    cases a <;> rfl
  | group _ ih => exact ih h
  | apply f _ ih =>
    obtain ⟨u, hu, rfl⟩ := one_eq_some_iff.1 h
    simp [postOrder, Expr.postOrder, ih hu]
  | call | pair | cons => cases h
  | ofPrimary _ ih | ofFactor _ ih | ofTerm _ ih => exact ih h
  | sign _ _ ih =>
    obtain ⟨u, hu, rfl⟩ := one_eq_some_iff.1 h
    simp [postOrder, Expr.postOrder, ih hu]
  | power _ _ ihl ihr | product _ _ _ ihl ihr | sum _ _ _ ihl ihr =>
    obtain ⟨u, v, hu, hv, rfl⟩ := two_eq_some_iff.1 h
    simp [postOrder, Expr.postOrder, ihl hu, ihr hv]

end Phrase

end Formula
