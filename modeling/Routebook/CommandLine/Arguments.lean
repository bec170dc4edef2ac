/-!
# Arguments of the command line

The program has one command, `generate`, which needs to be told the file of its configuration; the
flag for more output may stand before the command and after it. Arguments are read from left to
right, and **the first one that does not fit decides what is wrong.** A file's name that stands
apart from its option is taken in only when the next option is read or nothing follows, so what is
wrong with it is found no earlier.
-/

namespace Routebook.CommandLine

/-- Why nothing is to be done. Help and the version are asked for, the rest is wrong. -/
inductive UsageError where
  | displayHelp
  | displayVersion
  | displayHelpOnMissingArgumentOrSubcommand
  | missingSubcommand
  | invalidSubcommand
  | unknownArgument
  | missingRequiredArgument
  | argumentConflict
  | tooManyValues
  | invalidValue
  deriving Repr, DecidableEq, Inhabited

def UsageError.name : UsageError → String
  | displayHelp => "DisplayHelp"
  | displayVersion => "DisplayVersion"
  | displayHelpOnMissingArgumentOrSubcommand => "DisplayHelpOnMissingArgumentOrSubcommand"
  | missingSubcommand => "MissingSubcommand"
  | invalidSubcommand => "InvalidSubcommand"
  | unknownArgument => "UnknownArgument"
  | missingRequiredArgument => "MissingRequiredArgument"
  | argumentConflict => "ArgumentConflict"
  | tooManyValues => "TooManyValues"
  | invalidValue => "InvalidValue"

/-- Help and the version are no failures. -/
def UsageError.exitCode : UsageError → UInt32
  | displayHelp | displayVersion => 0
  | _ => 2

structure Arguments where
  config : String
  verbose : Bool
  deriving Repr, DecidableEq, Inhabited

/-! ## Options -/

/-- Whose options are read. -/
inductive Level where
  | program | generate
  deriving Repr, DecidableEq

inductive Flag where
  | verbose | help | version
  | config
  deriving Repr, DecidableEq

def Flag.ofLong? : Level → String → Option Flag
  | _, "verbose" => some verbose
  | _, "help" => some help
  | .program, "version" => some version
  | .generate, "config" => some config
  | _, _ => none

def Flag.ofShort? : Level → Char → Option Flag
  | _, 'v' => some verbose
  | _, 'h' => some help
  | .program, 'V' => some version
  | .generate, 'c' => some config
  | _, _ => none

/-- What has been read at one level. -/
structure Options where
  verbose : Bool := false
  config : Option String := none
  /-- An option that waits for its value, or whose value has not been taken in. -/
  pending : Option (Option String) := none
  deriving Inhabited

abbrev Result := Except UsageError

namespace Options

/-- Take in the file of the configuration. It is given once and is not empty. -/
def takeIn (o : Options) (file : String) : Result Options :=
  if o.config.isSome then .error .argumentConflict
  else if file = "" then .error .invalidValue
  else .ok { o with config := some file }

def settle (o : Options) : Result Options :=
  match o.pending with
  | none => .ok o
  | some none => .error .invalidValue
  | some (some file) => { o with pending := none }.takeIn file

def flag (o : Options) (f : Flag) : Result Options := do
  let o ← o.settle
  match f with
  | .verbose => if o.verbose then .error .argumentConflict else .ok { o with verbose := true }
  | .help => .error .displayHelp
  | .version => .error .displayVersion
  | .config => .ok { o with pending := some none }

/-- An option with a value attached to it. -/
def withValue (o : Options) (f : Flag) (value : String) : Result Options :=
  match f with
  | .config => do (← o.settle).takeIn value
  | _ => .error .tooManyValues

def long (level : Level) (o : Options) (cs : List Char) : Result Options :=
  let name := cs.takeWhile (· != '=')
  match Flag.ofLong? level (String.ofList name), cs.drop name.length with
  | none, _ => .error .unknownArgument
  | some f, [] => o.flag f
  | some f, _ :: value => o.withValue f (String.ofList value)

/-- Options by their letters, after the hyphen. What follows the letter of an option with a value
is its value, with an equals sign before it or without. -/
def short (level : Level) (o : Options) : List Char → Result Options
  | [] => .ok o
  | c :: cs =>
    match Flag.ofShort? level c with
    | none => .error .unknownArgument
    | some .config =>
      match cs with
      | [] => o.flag .config
      | '=' :: value => o.withValue .config (String.ofList value)
      | value => o.withValue .config (String.ofList value)
    | some f => do short level (← o.flag f) cs

end Options

/-! ## Commands -/

def Options.finish (o : Options) : Result Options := do
  let o ← o.settle
  if o.config.isSome then .ok o else .error .missingRequiredArgument

def readGenerate (o : Options) : List String → Result Options
  | [] => o.finish
  | a :: rest =>
    match a.toList with
    | ['-', '-'] => if rest.isEmpty then o.finish else .error .unknownArgument
    | '-' :: '-' :: cs => do readGenerate (← o.long .generate cs) rest
    | '-' :: c :: cs => do readGenerate (← o.short .generate (c :: cs)) rest
    | _ =>
      if o.pending = some none then readGenerate { o with pending := some (some a) } rest
      else .error .unknownArgument

/-- What `help` is asked about has to be a command. -/
def readHelp : List String → UsageError
  | [] | ["generate"] | ["help"] => .displayHelp
  | _ => .invalidSubcommand

/-- What is missing when there is no command. -/
def Options.missingCommand (o : Options) : UsageError :=
  if o.verbose then .missingSubcommand else .displayHelpOnMissingArgumentOrSubcommand

def readProgramArguments (o : Options) : List String → Result Arguments
  | [] => .error o.missingCommand
  | "generate" :: rest => do
    let g ← readGenerate {} rest
    return ⟨g.config.getD "", o.verbose || g.verbose⟩
  | "help" :: rest => .error (readHelp rest)
  | a :: rest =>
    match a.toList with
    | ['-', '-'] =>
      match rest with
      | [] => .error o.missingCommand
      | "generate" :: _ | "help" :: _ => .error .unknownArgument
      | _ => .error .invalidSubcommand
    | '-' :: '-' :: cs => do readProgramArguments (← o.long .program cs) rest
    | '-' :: c :: cs => do readProgramArguments (← o.short .program (c :: cs)) rest
    | _ => .error .invalidSubcommand

def Arguments.read (args : List String) : Result Arguments := readProgramArguments {} args

end Routebook.CommandLine
