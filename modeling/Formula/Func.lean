/-!
# Formula.Func

The functions a formula may call.  Each takes one argument.  A function is
known by its lower-case name, and the lookup by name is exact:

* `ofName?_name` — every function is found under its own name;
* `ofName?_eq_some_iff` — and under no other.
-/

namespace Formula

/-- A function of one argument. -/
inductive Func
  | sin | cos | tan
  | sec | csc | cot
  | asin | acos | atan
  | sinh | cosh | tanh
  | ln
  deriving DecidableEq, Repr

namespace Func

/-- Every function, in the order in which they are listed to a user. -/
def all : List Func :=
  [sin, cos, tan, sec, csc, cot, asin, acos, atan, sinh, cosh, tanh, ln]

/-- The name a formula calls the function by. -/
def name : Func → String
  | sin => "sin"
  | cos => "cos"
  | tan => "tan"
  | sec => "sec"
  | csc => "csc"
  | cot => "cot"
  | asin => "asin"
  | acos => "acos"
  | atan => "atan"
  | sinh => "sinh"
  | cosh => "cosh"
  | tanh => "tanh"
  | ln => "ln"

/-- The function of a given name, letter for letter. -/
def ofName? (name : String) : Option Func :=
  all.find? (·.name == name)

/-- The list of functions leaves none out. -/
theorem mem_all (f : Func) : f ∈ all := by
  cases f <;> decide

/-- A function is found under its own name. -/
@[simp] theorem ofName?_name (f : Func) : ofName? f.name = some f := by
  cases f <;> decide

/-- A name finds at most the function that bears it. -/
theorem ofName?_eq_some_iff {name : String} {f : Func} :
    ofName? name = some f ↔ f.name = name := by
  constructor
  · intro h
    simpa using List.find?_some h
  · rintro rfl
    exact ofName?_name f

/-- Different functions have different names. -/
theorem name_injective {f g : Func} (h : f.name = g.name) : f = g := by
  have := ofName?_name f
  rw [h, ofName?_name g] at this
  exact (Option.some.inj this).symm

end Func

end Formula
