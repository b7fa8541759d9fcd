import Formula.Compiled
import Formula.Proofs.Machine
import Formula.Proofs.Ordering
import Formula.Proofs.Written

/-!
# Formula.Proofs.Pipeline

From the text of a formula to its value.  Reading, ordering and working out
compose: a text that writes a formula of the grammar compiles to the order of
the expression that the formula means, and has the outcome of that expression
(`compile_of_writes`).
-/

namespace Formula

/-- A formula in which every call has one argument means an expression,
whatever its operands stand for. -/
theorem exists_expr?_of_called {p : Phrase α l} (h : p.Called) (hl : l ≠ .arguments)
    (g : α → Operand) : ∃ t, (p.map g).expr? = some t := by
  induction p using Phrase.Called.induct with
  | case1 a => exact ⟨(g a).expr, rfl⟩
  | case2 body ih => exact ih h (by decide)
  | case3 f body ih =>
    obtain ⟨t, ht⟩ := ih h (by decide)
    exact ⟨.apply f t, Phrase.one_eq_some_iff.2 ⟨t, ht, rfl⟩⟩
  | case4 f argument hne =>
    cases argument with
    | group body => exact absurd rfl (hne body)
    | _ => cases h
  | case5 f arguments => cases h
  | case6 first last | case7 first others => exact absurd rfl hl
  | case8 p ih | case11 p ih | case13 p ih => exact ih h (by decide)
  | case10 s body ih =>
    obtain ⟨t, ht⟩ := ih h (by decide)
    exact ⟨.sign s t, Phrase.one_eq_some_iff.2 ⟨t, ht, rfl⟩⟩
  | case9 base exponent ihl ihr =>
    obtain ⟨t, ht⟩ := ihl h.1 (by decide)
    obtain ⟨u, hu⟩ := ihr h.2 (by decide)
    exact ⟨.binary .pow t u, Phrase.two_eq_some_iff.2 ⟨t, u, ht, hu, rfl⟩⟩
  | case12 lhs op rhs ihl ihr | case14 lhs op rhs ihl ihr =>
    obtain ⟨t, ht⟩ := ihl h.1 (by decide)
    obtain ⟨u, hu⟩ := ihr h.2 (by decide)
    exact ⟨.binary op.op t u, Phrase.two_eq_some_iff.2 ⟨t, u, ht, hu, rfl⟩⟩

/-- A formula goes out in the order of the expression it means. -/
theorem toRpn_of_expr? {p : Phrase Operand .sum} {t : Expr} (h : p.expr? = some t) :
    toRpn p.tokens = .ok t.postOrder := by
  rw [← Phrase.postOrder_of_expr? h]
  exact Rpn.toRpn_eq_ok_iff.2 (Rpn.exists_run_tokens p)

/-- **A text means what it writes.**  Whatever text writes a formula of the
grammar, with operands that are legal in the mode, one argument to each call,
blanks anywhere and letters in either case: it compiles, and for every
evaluator and all values of the variables its outcome, be it a value or an
error, is that of the expression. -/
theorem compile_of_writes {mode : VarMode} {p : Phrase Atom .sum} {text : String}
    (hcalled : p.Called) (hlegal : p.All (Atom.Legal mode)) (hwrites : Writes text p.chars) :
    ∃ c t, compile mode text = .ok c ∧ (p.map Atom.operand).expr? = some t ∧
      ∀ (e : Evaluator) (values : Array Float), c.evaluateWith e values = t.eval e values := by
  obtain ⟨t, ht⟩ := exists_expr?_of_called hcalled (by decide) Atom.operand
  refine ⟨⟨t.postOrder, mode⟩, t, ?_, ht, ?_⟩
  · have htokens := tokenize_of_writes hcalled hlegal hwrites
    exact compile_eq_ok_iff.2 ⟨_, _, htokens, toRpn_of_expr? ht, rfl⟩
  · intro e values
    exact Evaluator.evaluate_postOrder e values t

/-- The formula `-3^-2 * sin(x + pi)`. -/
def signedPowerTimesSine : Phrase Atom .sum :=
  .ofTerm (.product
    (.ofFactor (.sign .neg (.power (.operand (.numeral ['3']))
      (.sign .neg (.ofPrimary (.operand (.numeral ['2'])))))))
    .mul
    (.ofPrimary (.apply .sin (.group (.sum
      (.ofTerm (.ofFactor (.ofPrimary (.operand .scalar))))
      .add
      (.ofFactor (.ofPrimary (.operand .pi))))))))

/-- Signs, a power, a call, blanks and capitals in one text. -/
theorem compile_of_writes_signedPowerTimesSine :
    signedPowerTimesSine.Called ∧ signedPowerTimesSine.All (Atom.Legal .scalar) ∧
    Writes " -3 ^ - 2\t*SIN( X + p I)" signedPowerTimesSine.chars ∧
    ∃ c t, compile .scalar " -3 ^ - 2\t*SIN( X + p I)" = .ok c ∧
      (signedPowerTimesSine.map Atom.operand).expr? = some t ∧
      ∀ (e : Evaluator) (values : Array Float),
        c.evaluateWith e values = t.eval e values := by
  have hcalled : signedPowerTimesSine.Called := by
    simp [signedPowerTimesSine, Phrase.Called]
  have hdigit : ∀ c : Char, c.isDigit = true → IsNumeral [c] := by
    intro c hc
    exact .whole ⟨by simp, by simpa using hc⟩
  have hlegal : signedPowerTimesSine.All (Atom.Legal .scalar) :=
    ⟨⟨hdigit '3' (by decide), hdigit '2' (by decide)⟩, rfl, trivial⟩
  have hwrites : Writes " -3 ^ - 2\t*SIN( X + p I)" signedPowerTimesSine.chars := by
    unfold Writes
    decide +kernel
  exact ⟨hcalled, hlegal, hwrites, compile_of_writes hcalled hlegal hwrites⟩

end Formula
