import StackMachine.Code.Basic

namespace StackMachine

/-!
# Programs

* `Program` — code with a name and declared parameters.
* `Program.signature` — the line under which a program is listed.
-/

/-- A compiled program: code with a name and the kinds of its parameters. -/
structure Program where
  name : String
  params : List Kind
  main : Code

namespace Program

/-- The name and the kinds of the parameters, as `--list` shows them. -/
def signature (p : Program) : String :=
  p.name ++ "(" ++ ", ".intercalate (p.params.map Kind.name) ++ ")"

/-- Code that runs a program on arguments, with the check, and then does `next`. -/
def executed (p : Program) (args : List Value) (next : Code) : Code :=
  .execute p.name p.params p.main args next

/-- Code that runs the program's code on arguments without the check, and then does `next`. -/
def entered (p : Program) (args : List Value) (next : Code) : Code := .enter p.main args next

end Program

end StackMachine
