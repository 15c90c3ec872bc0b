import StartEnd.Command.Help
import StartEnd.Command.Options
import StartEnd.Fault.Diagnostic
import StartEnd.Json.Layout
import StartEnd.Parse.Program
import StartEnd.Tree.Canonical
import StartEnd.Tree.Document
import StartEnd.Tree.Outline

/-!
# Running the command

A run is a function of the arguments and of what reading a file gives. It prints the
chosen view of a program, or a diagnostic, and ends with a status: zero for success,
one for a file that cannot be read or holds no program, two for wrong arguments.
-/

namespace StartEnd.Command

/-- Why a file cannot be read. -/
inductive ReadFailure where
  | notFound
  | isDirectory
  | notDirectory
  | notUtf8
  | other (reason : String)
deriving DecidableEq

/-- The reason as messages give it. -/
def ReadFailure.message : ReadFailure → String
  | notFound => "No such file or directory (os error 2)"
  | isDirectory => "Is a directory (os error 21)"
  | notDirectory => "Not a directory (os error 20)"
  | notUtf8 => "stream did not contain valid UTF-8"
  | other reason => reason

/-- The text in the bytes of a file. -/
def decodeText (bytes : ByteArray) : Except ReadFailure String :=
  match String.fromUTF8? bytes with
  | some text => .ok text
  | none => .error .notUtf8

/-- What a run prints and how it ends. -/
structure Output where
  status : UInt32 := 0
  stdout : String := ""
  stderr : String := ""
deriving DecidableEq

/-- The last component of a path, or the path where it has none. -/
def fileName (path : String) : String :=
  match ((path.splitOn "/").filter fun part => part ≠ "" ∧ part ≠ ".").getLast? with
  | none | some ".." => path
  | some name => name

/-- One line of the list of productions. -/
def reductionLine (rule : Rule) : String :=
  padLeft ' ' 2 (toString rule.number) ++ " " ++ rule.written ++ "\n"

/-- The chosen view of a program. -/
def view (emit : Emit) (program : Program) (reductions : List Rule) : String :=
  match emit with
  | .tree => program.outline.render 0 ++ "\n"
  | .json => program.toJson.written 0 ++ "\n"
  | .source => program.canonical
  | .reductions => String.join (reductions.map reductionLine)

/-- What the command prints about the bytes of a file. -/
def onFile (options : Options) (content : Except ReadFailure ByteArray) : Output :=
  match content.bind decodeText with
  | .error failure =>
    { status := 1
      stderr := "Error: could not read " ++ options.file ++ ": " ++ failure.message ++ "\n" }
  | .ok text =>
    match Parse.source text with
    | (.ok program, state) => { stdout := view options.emit program state.reductions }
    | (.error fault, _) =>
      { status := 1, stderr := fault.render text (fileName options.file) }

/-- Runs an invocation in a monad that can read files. -/
def run {m : Type → Type} [Monad m] (read : String → m (Except ReadFailure ByteArray)) :
    Invocation → m Output
  | .shortHelp => return { stdout := shortHelpText }
  | .longHelp => return { stdout := longHelpText }
  | .version => return { stdout := versionText }
  | .mistake problem =>
    return { status := 2, stderr := "error: " ++ problem ++ "\n\n" ++ usage ++ "\n" }
  | .run options => do return onFile options (← read options.file)

end StartEnd.Command
