import XdrPack.Build

/-!
# The command line

Arguments are read from the left. Options may stand before or after the input,
short flags may share one dash, and an option takes its value from the same
argument or from the next one. Two dashes end the options.
-/

namespace XdrPack

/-- Why arguments are refused. -/
inductive ArgumentError where
  | missingInput
  | emptyInput
  | unexpected (argument : String)
  | missingValue (option : String)
  | unneededValue (option : String)
  | repeated (option : String)
  deriving DecidableEq, Repr

/-- The wording of a refusal. -/
def ArgumentError.message : ArgumentError -> String
  | missingInput => "error: the required argument <INPUT> was not provided"
  | emptyInput => "error: a value is required for <INPUT> but none was supplied"
  | unexpected argument => "error: unexpected argument '" ++ argument ++ "' found"
  | missingValue option => "error: a value is required for '" ++ option ++ "' but none was supplied"
  | unneededValue option =>
      "error: unexpected value for '" ++ option ++ "' found; no more were expected"
  | repeated option => "error: the argument '" ++ option ++ "' cannot be used multiple times"

/-- What the command line asks for. -/
inductive Command where
  | build (request : BuildRequest) (verbose : Bool)
  | showVersion
  | showHelp
  deriving DecidableEq, Repr

namespace CommandLine

/-- The arguments read so far. -/
structure Arguments where
  input : Option Path
  directory : Option Path
  classPrefix : Option String
  verbose : Bool
  deriving DecidableEq, Repr

/-- No arguments. -/
def Arguments.none : Arguments := ⟨.none, .none, .none, false⟩

/-- The options that take a value. -/
inductive ValueOption where
  | outDir
  | classPrefix
  deriving DecidableEq, Repr

/-- The long form of an option. -/
def ValueOption.text : ValueOption -> String
  | outDir => "--out-dir"
  | classPrefix => "--prefix"

/-- The options that take no value. -/
inductive Flag where
  | verbose
  | version
  | help
  deriving DecidableEq, Repr

/-- The long form of a flag. -/
def Flag.text : Flag -> String
  | verbose => "--verbose"
  | version => "--version"
  | help => "--help"

/-- An option of either sort. -/
inductive Choice where
  | value (option : ValueOption)
  | flag (flag : Flag)
  deriving DecidableEq, Repr

/-- The option with a long name, which cannot be abbreviated. -/
def longOption? (name : String) : Option Choice :=
  if name = "out-dir" then some (.value .outDir)
  else if name = "prefix" then some (.value .classPrefix)
  else if name = "verbose" then some (.flag .verbose)
  else if name = "version" then some (.flag .version)
  else if name = "help" then some (.flag .help)
  else none

/-- The option with a short name. -/
def shortOption? : Char -> Option Choice
  | 'o' => some (.value .outDir)
  | 'v' => some (.flag .verbose)
  | 'V' => some (.flag .version)
  | 'h' => some (.flag .help)
  | _ => none

/-- Takes in the value of an option. The output directory cannot be empty. -/
def setValue (arguments : Arguments) (value : String) :
    ValueOption -> Except ArgumentError Arguments
  | .outDir =>
      if value = "" then .error (.missingValue ValueOption.outDir.text)
      else if arguments.directory.isSome then .error (.repeated ValueOption.outDir.text)
      else .ok { arguments with directory := some ⟨value⟩ }
  | .classPrefix =>
      if arguments.classPrefix.isSome then .error (.repeated ValueOption.classPrefix.text)
      else .ok { arguments with classPrefix := some value }

/-- Takes in an argument that is no option. -/
def setInput (arguments : Arguments) (value : String) : Except ArgumentError Arguments :=
  if arguments.input.isSome then .error (.unexpected value)
  else if value = "" then .error .emptyInput
  else .ok { arguments with input := some ⟨value⟩ }

/-- What is to be done after a flag, an option or a group of short options: go
on, go on with the value of an option, or answer at once. -/
inductive Next where
  | proceed (arguments : Arguments)
  | awaitValue (arguments : Arguments) (option : ValueOption)
  | answer (command : Command)
  deriving DecidableEq, Repr

/-- Takes in a flag. -/
def setFlag (arguments : Arguments) : Flag -> Except ArgumentError Next
  | .verbose =>
      if arguments.verbose then .error (.repeated Flag.verbose.text)
      else .ok (.proceed { arguments with verbose := true })
  | .version => .ok (.answer .showVersion)
  | .help => .ok (.answer .showHelp)

/-- Reads short options that share one dash. What follows an option with a value
is that value, with or without an equals sign between them. -/
def readShort (arguments : Arguments) : List Char -> Except ArgumentError Next
  | [] => .ok (.proceed arguments)
  | c :: rest =>
      match shortOption? c with
      | none => .error (.unexpected (String.ofList ['-', c]))
      | some (.flag flag) => do
          match <- setFlag arguments flag with
          | .proceed arguments => readShort arguments rest
          | next => .ok next
      | some (.value option) =>
          match rest with
          | [] => .ok (.awaitValue arguments option)
          | '=' :: value => .proceed <$> setValue arguments (String.ofList value) option
          | value => .proceed <$> setValue arguments (String.ofList value) option

/-- Reads a long option, given without its dashes. A value may follow an equals
sign. -/
def readLong (arguments : Arguments) (text : List Char) : Except ArgumentError Next :=
  let name := String.ofList (text.takeWhile (· != '='))
  match longOption? name, text.dropWhile (· != '=') with
  | none, _ => .error (.unexpected ("--" ++ name))
  | some (.flag flag), [] => setFlag arguments flag
  | some (.flag flag), _ => .error (.unneededValue flag.text)
  | some (.value option), [] => .ok (.awaitValue arguments option)
  | some (.value option), _ :: value =>
      .proceed <$> setValue arguments (String.ofList value) option

/-- Whether an argument can only be an option. A single dash is not one. -/
def isOption : List Char -> Bool
  | '-' :: _ :: _ => true
  | _ => false

/-- Reads one argument that may be an option. -/
def readOne (arguments : Arguments) (text : List Char) : Except ArgumentError Next :=
  match text with
  | '-' :: '-' :: name => readLong arguments name
  | '-' :: c :: rest => readShort arguments (c :: rest)
  | _ => .proceed <$> setInput arguments (String.ofList text)

/-- The command that complete arguments ask for. -/
def finish (arguments : Arguments) : Except ArgumentError Command :=
  match arguments.input with
  | none => .error .missingInput
  | some input =>
      .ok (.build ⟨input, arguments.directory, arguments.classPrefix⟩ arguments.verbose)

/-- Reads the arguments behind the two dashes that end the options. -/
def readInputs (arguments : Arguments) : List String -> Except ArgumentError Command
  | [] => finish arguments
  | input :: rest => do
      let arguments <- setInput arguments input
      readInputs arguments rest

/-- Reads arguments. -/
def read (arguments : Arguments) : List String -> Except ArgumentError Command
  | [] => finish arguments
  | "--" :: rest => readInputs arguments rest
  | argument :: rest => do
      match <- readOne arguments argument.toList with
      | .proceed arguments => read arguments rest
      | .answer command => .ok command
      | .awaitValue arguments option =>
          match rest with
          | [] => .error (.missingValue option.text)
          | value :: rest =>
              if isOption value.toList then
                .error (.missingValue option.text)
              else do
                let arguments <- setValue arguments value option
                read arguments rest

end CommandLine

/-- The command that arguments ask for. -/
def Command.parse (arguments : List String) : Except ArgumentError Command :=
  CommandLine.read .none arguments

/-- What a run of the program shows: its exit code, and what it writes to the
standard output and to the standard error. -/
structure Exit where
  code : Nat
  output : String
  errors : String
  deriving DecidableEq, Repr

namespace Command

/-- Lines of text. -/
def lines (texts : List String) : String := String.join (texts.map (· ++ "\n"))

/-- The answer to a request for the version. -/
def versionText : String := "rpcgen 0.1.0"

/-- The answer to a request for help. -/
def helpText : List String := [
  "Generates Python packers and record classes from an XDR/RPC interface file",
  "",
  "Usage: rpcgen [OPTIONS] <INPUT>",
  "",
  "Arguments:",
  "  <INPUT>  Interface definition file",
  "",
  "Options:",
  "  -o, --out-dir <OUT_DIR>  Directory for the generated modules [default: next to INPUT]",
  "      --prefix <PREFIX>    Prefix of the packer and unpacker class names "
    ++ "[default: upper-cased file stem]",
  "  -v, --verbose            Report progress on stderr",
  "  -h, --help               Print help",
  "  -V, --version            Print version"]

/-- What the program shows after a build. -/
def exitOfReport (report : BuildReport) (verbose : Bool) : Exit :=
  let notes := if verbose then report.notes.map (·.message) else []
  match report.outcome with
  | .ok built =>
      { code := 0
        output := lines [built.outputs.constants.text, built.outputs.types.text,
          built.outputs.packer.text]
        errors := lines (notes
          ++ built.errors.map fun error => "rpcgen: warning: " ++ error.message) }
  | .error failure =>
      { code := 1
        output := ""
        errors := lines (notes
          ++ failure.precedingErrors.map (fun error => "rpcgen: " ++ error.message)
          ++ ["rpcgen: " ++ failure.root.message]) }

/-- Runs a command. -/
def run {m : Type -> Type} [Monad m] (store : FileStore m) : Command -> m Exit
  | .showVersion => pure ⟨0, lines [versionText], ""⟩
  | .showHelp => pure ⟨0, lines helpText, ""⟩
  | .build request verbose => do
      let report <- store.build request
      pure (exitOfReport report verbose)

/-- Runs the program with its arguments. -/
def runArguments {m : Type -> Type} [Monad m] (store : FileStore m) (arguments : List String) :
    m Exit :=
  match parse arguments with
  | .error error => pure ⟨2, "", lines [error.message]⟩
  | .ok command => command.run store

end Command

end XdrPack
