import Formula.Compiled
import Formula.Proofs.Contents
import Formula.Proofs.Machine
import Formula.Proofs.Spelled

/-!
# Formula.Proofs.Variables

The values that a formula asks for: where its variables come from, and what
becomes of an evaluation for which some of them are not set.

* `var_lt_of_tokenize`, `var_mem_of_toRpn` — a variable that is read is below
  the dimension of the mode, and bringing tokens into order keeps it;
* `requiredLength_le_iff` — values are many enough exactly when every variable
  is set;
* `evaluate_congr` — only the values of the variables matter;
* `var_of_evaluate`, `lt_size_of_evaluate` — a variable that is reported is one
  that is not set, and none is missing when there is a value;
* `compile_requires` — hence, for a text: its variables are in range, and they
  are what its evaluations need.
-/

namespace Formula

variable {mode : VarMode} {tokens out : List Token} {index : Nat}

/-! ## Variables of a text -/

/-- A variable that is spelled is below the dimension. -/
theorem Spells.var_lt {v : List Char} (h : Spells mode v (.var index)) :
    index < mode.dimension := by
  cases h with
  | scalar hmode =>
    rw [hmode]
    exact Nat.one_pos
  | indexed hmode _ hlt =>
    rw [hmode]
    exact hlt

/-- So are all variables of a text that is spellings. -/
theorem LexicalAfter.var_lt {u cs : List Char} {previous : Option Token}
    (h : LexicalAfter mode u previous cs tokens) (hmem : .var index ∈ tokens) :
    index < mode.dimension := by
  induction h with
  | nil => cases hmem
  | cons hspell _ _ _ ih =>
    obtain rfl | hmem := List.mem_cons.1 hmem
    · exact hspell.var_lt
    · exact ih hmem

/-- A variable that is read is below the dimension. -/
theorem var_lt_of_tokenize {text : String} (h : tokenize mode text = .ok tokens)
    (hmem : .var index ∈ tokens) : index < mode.dimension :=
  (tokenizeNormal_eq_ok_iff.1 h).var_lt hmem

/-- The order of tokens has the variables that they have. -/
theorem var_mem_of_toRpn (h : toRpn tokens = .ok out) :
    .var index ∈ out ↔ .var index ∈ tokens :=
  Rpn.mem_of_toRpn h rfl

/-- The variables of a formula are below the dimension of its mode. -/
theorem Compiled.lt_dimension_of_mem_vars {text : String} {c : Compiled}
    (h : compile mode text = .ok c) (hmem : index ∈ c.vars) : index < mode.dimension := by
  obtain ⟨tokens, out, htokens, hout, rfl⟩ := compile_eq_ok_iff.1 h
  exact var_lt_of_tokenize htokens ((var_mem_of_toRpn hout).1 (mem_vars.1 hmem))

/-! ## How many values are needed -/

/-- In an ascending list nothing is above the last. -/
theorem le_getLast_of_pairwise {is : List Nat} {last : Nat} (h : is.Pairwise (· < ·))
    (hlast : is.getLast? = some last) (hmem : index ∈ is) : index ≤ last := by
  obtain ⟨front, rfl⟩ := List.getLast?_eq_some_iff.1 hlast
  obtain hmem | hmem := List.mem_append.1 hmem
  · exact Nat.le_of_lt ((List.pairwise_append.1 h).2.2 index hmem last List.mem_cons_self)
  · exact Nat.le_of_eq (List.mem_singleton.1 hmem)

/-- Values are many enough exactly when every variable is among them. -/
theorem Compiled.requiredLength_le_iff {c : Compiled} {n : Nat} :
    c.requiredLength ≤ n ↔ ∀ index ∈ c.vars, index < n := by
  unfold requiredLength
  cases hlast : c.vars.getLast? with
  | none => simp [List.getLast?_eq_none_iff.1 hlast]
  | some last =>
    constructor
    · intro hle index hmem
      exact Nat.lt_of_le_of_lt (le_getLast_of_pairwise c.pairwise_vars hlast hmem) hle
    · exact fun hall => hall last (List.mem_of_getLast? hlast)

/-! ## Values that are looked up -/

namespace Evaluator

variable {e : Evaluator} {values values' : Array Float} {token : Token} {xs ys : List Float}

/-- A token sees no value but that of its variable. -/
theorem after_congr (h : ∀ index, token = .var index → values[index]? = values'[index]?) :
    e.after values token xs = e.after values' token xs := by
  cases token with
  | var index => simp only [after, step, h index rfl]
  | sign s => cases s <;> rfl
  | _ => rfl

/-- Tokens see no values but those of their variables. -/
theorem afterAll_congr (h : ∀ index, .var index ∈ tokens → values[index]? = values'[index]?) :
    e.afterAll values tokens xs = e.afterAll values' tokens xs := by
  induction tokens generalizing xs with
  | nil => rfl
  | cons token tokens ih =>
    have hhead : e.after values token xs = e.after values' token xs :=
      after_congr fun index htoken => h index (htoken ▸ List.mem_cons_self)
    rw [afterAll_cons, afterAll_cons, hhead]
    exact congrArg _ (funext fun _ => ih fun index hmem => h index (List.mem_cons_of_mem _ hmem))

/-- Values that agree on the variables of tokens give them the same outcome. -/
theorem evaluate_congr (h : ∀ index, .var index ∈ tokens → values[index]? = values'[index]?) :
    e.evaluate tokens values = e.evaluate tokens values' := by
  rw [evaluate_eq, evaluate_eq, afterAll_congr h]

/-- The variable that a token reports is its own, and is not set. -/
theorem var_of_after (h : e.after values token xs = .error (.variableNotSet index)) :
    token = .var index ∧ values[index]? = none := by
  cases token with
  | var i =>
    cases hvalue : values[i]? with
    | none =>
      rw [after_var_none e values xs hvalue] at h
      cases h
      exact ⟨rfl, hvalue⟩
    | some x =>
      rw [after_var_some e values xs hvalue] at h
      cases h
  | binary op =>
    match xs with
    | [] | [_] => cases h
    | y :: x :: xs =>
      rw [after_binary, map_eq_error] at h
      exact (isDomain_of_applyBinary h).elim
  | func f =>
    match xs with
    | [] => cases h
    | x :: xs =>
      rw [after_func, map_eq_error] at h
      exact (isDomain_of_applyFunc h).elim
  | sign s =>
    cases s with
    | pos => cases h
    | neg => cases xs <;> cases h
  | _ => cases h

/-- The variable that tokens report is one of theirs, and is not set. -/
theorem var_of_afterAll (h : e.afterAll values tokens xs = .error (.variableNotSet index)) :
    .var index ∈ tokens ∧ values[index]? = none := by
  induction tokens generalizing xs with
  | nil => cases h
  | cons token tokens ih =>
    rw [afterAll_cons] at h
    obtain h | ⟨ys, -, h⟩ := bind_eq_error.1 h
    · obtain ⟨rfl, hvalue⟩ := var_of_after h
      exact ⟨List.mem_cons_self, hvalue⟩
    · obtain ⟨hmem, hvalue⟩ := ih h
      exact ⟨List.mem_cons_of_mem _ hmem, hvalue⟩

/-- The variable that an evaluation reports is one of its tokens, and is not
set. -/
theorem var_of_evaluate (h : e.evaluate tokens values = .error (.variableNotSet index)) :
    .var index ∈ tokens ∧ values[index]? = none := by
  rw [evaluate_eq] at h
  obtain h | ⟨ys, -, h⟩ := bind_eq_error.1 h
  · exact var_of_afterAll h
  · match ys with
    | [] | [_] | _ :: _ :: _ => cases h

/-- Tokens leave a stack only when all their variables are set. -/
theorem lt_size_of_afterAll (h : e.afterAll values tokens xs = .ok ys)
    (hmem : .var index ∈ tokens) : index < values.size := by
  induction tokens generalizing xs with
  | nil => cases hmem
  | cons token tokens ih =>
    rw [afterAll_cons] at h
    obtain ⟨zs, htoken, h⟩ := bind_eq_ok.1 h
    obtain rfl | hmem := List.mem_cons.1 hmem
    · refine Nat.lt_of_not_le fun hle => ?_
      rw [after_var_none e values xs (Array.getElem?_eq_none hle)] at htoken
      cases htoken
    · exact ih h hmem

/-- There is a value only when all variables are set. -/
theorem lt_size_of_evaluate {x : Float} (h : e.evaluate tokens values = .ok x)
    (hmem : .var index ∈ tokens) : index < values.size :=
  lt_size_of_afterAll (evaluate_eq_ok_iff.1 h) hmem

end Evaluator

/-! ## Texts -/

/-- **A formula asks for the values of its variables and for nothing else.**  The
variables of a text that compiles are below the dimension of the mode, so that the
number of values it requires fits in a word of 64 bits and is no more than the
dimension.  With that many values no variable is ever missing, with fewer the
formula has no value, and what else stands among the values has no effect. -/
theorem compile_requires {mode : VarMode} {text : String} {c : Compiled}
    (h : compile mode text = .ok c) :
    (∀ index ∈ c.vars, index < mode.dimension ∧ index + 1 < UInt64.size) ∧
      c.requiredLength ≤ mode.dimension ∧
      ∀ (e : Evaluator) (values : Array Float),
        (c.requiredLength ≤ values.size →
          ∀ index, c.evaluateWith e values ≠ .error (.variableNotSet index)) ∧
        (values.size < c.requiredLength → ∀ x, c.evaluateWith e values ≠ .ok x) ∧
        ∀ values', (∀ index ∈ c.vars, values[index]? = values'[index]?) →
          c.evaluateWith e values = c.evaluateWith e values' := by
  have hrange : ∀ index ∈ c.vars, index < mode.dimension :=
    fun _ hmem => Compiled.lt_dimension_of_mem_vars h hmem
  refine ⟨fun index hmem => ⟨hrange index hmem, ?_⟩, Compiled.requiredLength_le_iff.2 hrange,
    fun e values => ⟨?_, ?_, ?_⟩⟩
  · have hindex := hrange index hmem
    have hdimension := mode.dimension_lt
    omega
  · intro hle index hmissing
    obtain ⟨hmem, hvalue⟩ := Evaluator.var_of_evaluate hmissing
    have hlt := Compiled.requiredLength_le_iff.1 hle index (Compiled.mem_vars.2 hmem)
    have hge := Array.getElem?_eq_none_iff.1 hvalue
    omega
  · intro hlt x hvalue
    refine absurd (Compiled.requiredLength_le_iff.2 fun index hmem => ?_) (Nat.not_le.2 hlt)
    exact Evaluator.lt_size_of_evaluate hvalue (Compiled.mem_vars.1 hmem)
  · intro values' hagree
    exact Evaluator.evaluate_congr fun index hmem => hagree index (Compiled.mem_vars.2 hmem)

/-- The second of two variables. -/
def secondOfTwo : Compiled := ⟨[.var 1], .vector 2 (by decide)⟩

/-- For the second of two variables two values are enough and one is not, and the
first of them has no effect. -/
theorem compile_requires_secondOfTwo :
    compile (.vector 2 (by decide)) "x[1]" = .ok secondOfTwo ∧ secondOfTwo.requiredLength ≤ 2 ∧
      (∀ index, secondOfTwo.evaluateWith .default #[3, 4] ≠ .error (.variableNotSet index)) ∧
      (∀ x, secondOfTwo.evaluateWith .default #[3] ≠ .ok x) ∧
      secondOfTwo.evaluateWith .default #[3, 4] = secondOfTwo.evaluateWith .default #[5, 4] := by
  have hcompile : compile (.vector 2 (by decide)) "x[1]" = .ok secondOfTwo :=
    toOption_eq_some.1 (by decide +kernel)
  obtain ⟨-, hlength, hneeds⟩ := compile_requires hcompile
  refine ⟨hcompile, hlength, (hneeds .default #[3, 4]).1 (by decide),
    (hneeds .default #[3]).2.1 (by decide), (hneeds .default #[3, 4]).2.2 #[5, 4] ?_⟩
  intro index hmem
  obtain rfl := List.mem_singleton.1 (show index ∈ [1] from hmem)
  have hleft : (#[3, 4] : Array Float)[1]? = some 4 := rfl
  have hright : (#[5, 4] : Array Float)[1]? = some 4 := rfl
  rw [hleft, hright]

end Formula
