import TwoPass.Session

/-!
# Trouble on the command line

When the command cannot go on, it says why on the error output and exits with a code. Which code
depends on the kind of trouble: an unreadable source and an output that the system refuses are
mistakes in the arguments, other troubles of the assembler count as a failed build, and everything
else is an internal error.
-/

namespace TwoPass

namespace Command

/-- How the command ends. -/
inductive ExitCode where
  /-- everything was assembled -/
  | success
  /-- a source line failed to assemble -/
  | buildError
  /-- wrong arguments or an unreadable source -/
  | invalidArguments
  /-- something unexpected -/
  | internalError
  deriving DecidableEq

/-- The number of an exit code. -/
def ExitCode.number : ExitCode → Nat
  | .success => 0
  | .buildError => 1
  | .invalidArguments => 2
  | .internalError => 3

/-- What keeps the command from going on. -/
inductive Trouble where
  /-- a diagnostic of the assembler -/
  | diagnostic (diagnostic : Diagnostic)
  /-- another trouble of the assembler -/
  | assembler (message : Text)
  /-- a wrong argument -/
  | argument (message : Text)
  /-- a refusal of the system -/
  | system (fault : SystemFault) (phrase path : Text)
  /-- anything else -/
  | other (message : Text)
  deriving DecidableEq

namespace Trouble

/-- The trouble that a failed request means. -/
def ofFailure : Failure → Trouble
  | .unreadableSource file reason => diagnostic (.unreadableSource file reason)
  | .system fault path => system fault fault.phrase path
  | failure => other failure.message

/-- The words for a trouble. -/
def text : Trouble → Text
  | diagnostic d =>
    match d.subject with
    | .sourceFile _ _ => d.message
    | _ => d.text
  | assembler message | argument message | other message => message
  | system fault phrase path => fault.report phrase path

/-- The exit code. Of the system's refusals, those that a wrong path explains are mistakes in the
arguments. -/
def exitCode : Trouble → ExitCode
  | diagnostic d =>
    match d.subject with
    | .sourceFile _ _ => .invalidArguments
    | _ => .buildError
  | assembler _ => .buildError
  | argument _ => .invalidArguments
  | system .notFound _ _ | system .notPermitted _ _ | system .isDirectory _ _ => .invalidArguments
  | system .notDirectory _ _ | system .alreadyThere _ _ | system .nameTooLong _ _ => .internalError
  | other _ => .internalError

/-- What the report starts with. A failed build is named after the activity, if one is given. -/
def heading (activity : Text) (t : Trouble) : Text :=
  match t.exitCode with
  | .internalError => "Internal error: ".toList
  | .buildError =>
    if activity.isEmpty then "Error: ".toList else activity ++ " error: ".toList
  | _ => "Error: ".toList

/-- The message on the error output. -/
def report (activity : Text) (t : Trouble) : Text := t.heading activity ++ t.text

/-- Does a trace follow the report? Only internal errors have one, and only if details are wanted. -/
def isTraced (verbose : Bool) (t : Trouble) : Bool :=
  verbose && t.exitCode == .internalError

end Trouble

end Command

end TwoPass
