import StackMachine.Failure

namespace StackMachine

/-!
# Checking arguments against parameters

* `checkArguments` — the arguments must be as many as the parameters, and each of its parameter's
  kind. A wrong number is reported before any wrong kind, and of several wrong kinds the first.
-/

/-- The first argument that is not of its parameter's kind, as a `KindMismatch`. Whatever one of the
    two lists has too many is not looked at: `checkArguments` counts them first. -/
def firstMismatch? : List Kind → List Value → Option KindMismatch
  | k :: ks, v :: vs => if v.kind = k then firstMismatch? ks vs else some ⟨k, v.kind⟩
  | _, _ => none

/-- Whether a program with the parameters `params` can be given `args`: first the `arityMismatch`,
    then the `firstMismatch?`. -/
def checkArguments (program : String) (params : List Kind) (args : List Value) :
    Except Failure Unit :=
  if params.length = args.length then
    match firstMismatch? params args with
    | none => .ok ()
    | some e => .error (.kindMismatch e)
  else .error (.arityMismatch program params.length args.length)

end StackMachine
