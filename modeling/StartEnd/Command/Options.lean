/-!
# Command line arguments

The command takes one file and a few options. Arguments are read from left to right,
and the first one that settles the outcome does so: a request for help or for the
version, or a mistake. Behind a lone double dash everything is a file name.
-/

namespace StartEnd.Command

/-- What to print about a program. -/
inductive Emit where
  | tree
  | json
  | source
  | reductions
deriving DecidableEq, Inhabited

/-- The view that an option value names. -/
def Emit.ofName? : String → Option Emit
  | "tree" => some .tree
  | "json" => some .json
  | "source" => some .source
  | "reductions" => some .reductions
  | _ => none

/-- Settings for reading one file. -/
structure Options where
  file : String
  emit : Emit
  verbosity : Nat
deriving DecidableEq

/-- What the arguments ask for. -/
inductive Invocation where
  | run (options : Options)
  | shortHelp
  | longHelp
  | version
  | mistake (problem : String)
deriving DecidableEq

/-- The settings that the arguments read so far have made. -/
structure Settings where
  file? : Option String := none
  emit? : Option Emit := none
  verbosity : Nat := 0

/-- The outcome when no argument is left. -/
def Settings.finish (settings : Settings) : Invocation :=
  match settings.file? with
  | none => .mistake "the required argument '<FILE>' was not provided"
  | some file =>
    .run {
      file := file
      emit := settings.emit?.getD .tree
      verbosity := settings.verbosity }

/-- Takes the argument as the file, of which there is only one. -/
def Settings.withFile (settings : Settings) (file : String) : Except Invocation Settings :=
  if settings.file?.isSome then .error (.mistake ("unexpected argument '" ++ file ++ "' found"))
  else if file = "" then .error (.mistake "a value is required for '<FILE>' but none was supplied")
  else .ok { settings with file? := some file }

/-- Takes the view to print, which may be chosen once. -/
def Settings.withEmit (settings : Settings) (value : String) : Except Invocation Settings :=
  match Emit.ofName? value with
  | none => .error (.mistake ("invalid value '" ++ value ++ "' for '--emit <EMIT>'"))
  | some emit =>
    if settings.emit?.isSome then
      .error (.mistake "the argument '--emit <EMIT>' cannot be used multiple times")
    else .ok { settings with emit? := some emit }

/-- Reads the letters behind a single dash. -/
def Settings.withLetters (settings : Settings) : List Char → Except Invocation Settings
  | [] => .ok settings
  | 'v' :: rest => withLetters { settings with verbosity := settings.verbosity + 1 } rest
  | 'h' :: _ => .error .shortHelp
  | 'V' :: _ => .error .version
  | other :: _ => .error (.mistake ("unexpected argument '-" ++ other.toString ++ "' found"))

/-- Reads file names only. -/
def Settings.withFiles (settings : Settings) : List String → Invocation
  | [] => settings.finish
  | file :: rest =>
    match settings.withFile file with
    | .ok updated => updated.withFiles rest
    | .error outcome => outcome

/-- Reads arguments that may be options. The value of `--emit` is the next argument,
unless that looks like an option itself. -/
def Settings.withArguments (settings : Settings) : List String → Invocation
  | [] => settings.finish
  | argument :: rest =>
    let continueWith (updated : Except Invocation Settings) : Invocation :=
      match updated with
      | .ok updated => updated.withArguments rest
      | .error outcome => outcome
    match argument.toList with
    | ['-', '-'] => settings.withFiles rest
    | '-' :: '-' :: letters =>
      match String.ofList letters with
      | "help" => .longHelp
      | "version" => .version
      | "verbose" => continueWith (.ok { settings with verbosity := settings.verbosity + 1 })
      | "emit" =>
        match rest with
        | [] => .mistake "a value is required for '--emit <EMIT>' but none was supplied"
        | value :: further =>
          if value.toList.head? = some '-' then
            .mistake "a value is required for '--emit <EMIT>' but none was supplied"
          else
            match settings.withEmit value with
            | .ok updated => updated.withArguments further
            | .error outcome => outcome
      | _ =>
        if "emit=".toList.isPrefixOf letters then
          continueWith (settings.withEmit (String.ofList (letters.drop 5)))
        else .mistake ("unexpected argument '" ++ argument ++ "' found")
    | '-' :: letter :: letters => continueWith (settings.withLetters (letter :: letters))
    | _ => continueWith (settings.withFile argument)

/-- What a list of arguments asks for. -/
def Invocation.ofArguments (arguments : List String) : Invocation :=
  Settings.withArguments {} arguments

end StartEnd.Command
