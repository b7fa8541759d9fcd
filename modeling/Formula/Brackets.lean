import Formula.Token

/-!
# Formula.Brackets

Which parentheses of a list of tokens belong together, by counting alone.

* `depth` — how many more parentheses open than close;
* `Unclosed` — an opening parenthesis whose partner has not come yet;
* `Unmatched` — a closing parenthesis without a partner;
* `Innermost` — the last unclosed parenthesis before a place;
* `Partners` — a parenthesis and the one that closes it.
-/

namespace Formula.Brackets

/-- How many more parentheses open than close among the tokens. -/
def depth (tokens : List Token) : Int :=
  (tokens.count .leftParen : Int) - tokens.count .rightParen

/-- The tokens from place `i` on and before place `j`. -/
def between (tokens : List Token) (i j : Nat) : List Token := (tokens.take j).drop i

/-- The parenthesis at `i` opens and is not closed before place `j`: up to
every place in between, it and what follows it open more than they close. -/
def Unclosed (tokens : List Token) (i j : Nat) : Prop :=
  i < j ∧ tokens[i]? = some .leftParen ∧ ∀ k, i < k → k ≤ j → 0 < depth (between tokens i k)

/-- The parenthesis at `i` is the innermost of those unclosed before `j`. -/
def Innermost (tokens : List Token) (i j : Nat) : Prop :=
  Unclosed tokens i j ∧ ∀ i', Unclosed tokens i' j → i' ≤ i

/-- The parenthesis at `j` closes the one at `i`. -/
def Partners (tokens : List Token) (i j : Nat) : Prop :=
  tokens[j]? = some .rightParen ∧ Innermost tokens i j

/-- The parenthesis at `j` closes, and none is open before it. -/
def Unmatched (tokens : List Token) (j : Nat) : Prop :=
  tokens[j]? = some .rightParen ∧ ∀ i, ¬ Unclosed tokens i j

/-- No part from the beginning closes more parentheses than it opens, and the
whole closes as many. -/
def Balanced (tokens : List Token) : Prop :=
  (∀ n, 0 ≤ depth (tokens.take n)) ∧ depth tokens = 0

@[simp] theorem depth_nil : depth [] = 0 := rfl

@[simp] theorem depth_append (s t : List Token) : depth (s ++ t) = depth s + depth t := by
  simp only [depth, List.count_append]
  omega

/-- Counting up to a place, and on from there. -/
theorem depth_take_add_between (tokens : List Token) {i j : Nat} (h : i ≤ j) :
    depth (tokens.take i) + depth (between tokens i j) = depth (tokens.take j) := by
  have htake : tokens.take i = (tokens.take j).take i := by
    rw [List.take_take, Nat.min_eq_left h]
  rw [htake, between, ← depth_append, List.take_append_drop]

end Formula.Brackets
