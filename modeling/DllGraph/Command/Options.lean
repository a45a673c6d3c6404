import DllGraph.Path

/-!
# Options of the Command

The arguments of the command are files to analyse, options, and values of options, in any order.
An option has a long name and may have a letter; letters can be run together, and a value can be
given in the same argument or in the next one. Arguments are read from left to right, and the
first one that asks for help, or that is wrong, ends the reading.

## Main definitions

* `Options`, what the command is asked to do;
* `OptionSpec`, an option; `optionSpecs`, all of them;
* `Invocation.ofArguments`, what a list of arguments asks for.
-/

namespace DllGraph.Command

/-- What the command is asked to do. -/
structure Options where
  inputs : List Path
  outputJsonPath : Option Path
  maxDepth : Option Nat
  verbosity : Nat
  printSystemDlls : Bool
  fullPaths : Bool
  checkSymbols : Bool
  undecorate : Bool
  listModules : Bool
  windowsRoot : Option Path
  workingDir : Option Path
  userPath : Option String
  knownDlls : Option Path
  knownDllsDir : Option Path
  searchPathFile : Option Path
  unsafeSearch : Bool
deriving DecidableEq, Inhabited

/-- The options before any argument has been read. -/
def Options.initial : Options where
  inputs := []
  outputJsonPath := none
  maxDepth := none
  verbosity := 0
  printSystemDlls := false
  fullPaths := false
  checkSymbols := false
  undecorate := false
  listModules := false
  windowsRoot := none
  workingDir := none
  userPath := none
  knownDlls := none
  knownDllsDir := none
  searchPathFile := none
  unsafeSearch := false

/-- What a list of arguments asks for. -/
inductive Invocation where
  | run (options : Options)
  | help
  | version
  | misuse
deriving DecidableEq

/-! ### Values -/

/-- A path given as an argument, which may not be empty. -/
def pathValue? (text : String) : Option Path :=
  if text = "" then none else some ⟨text⟩

/-- The largest number that can be given as an argument. -/
def maxNumber : Nat := UInt64.size - 1

/-- The value of decimal digits. -/
def digitsValue (digits : List Char) : Nat :=
  digits.foldl (fun n c => n * 10 + (c.toNat - '0'.toNat)) 0

/-- A number given as an argument, which may have a plus sign. -/
def numberValue? (text : String) : Option Nat :=
  let digits := match text.toList with
    | '+' :: rest => rest
    | cs => cs
  if digits ≠ [] ∧ digits.all Char.isDigit ∧ digitsValue digits ≤ maxNumber then
    some (digitsValue digits)
  else none

/-! ### Options -/

/-- What an option does. One that sets something fails if the value is wrong. -/
inductive OptionAction where
  /-- Ends the reading of the arguments. -/
  | finish (invocation : Invocation)
  | set (apply : Options → Option Options)
  | setValue (valueName : String) (apply : Options → String → Option Options)

/-- An option of the command. -/
structure OptionSpec where
  letter : Option Char
  long : String
  /-- Whether the option may be given several times. -/
  isRepeatable : Bool
  help : String
  action : OptionAction

/-- An option that can be given once, since it fails when it is on already. -/
def switch (long help : String) (get : Options → Bool) (turnOn : Options → Options) :
    OptionSpec where
  letter := none
  long
  isRepeatable := false
  help
  action := .set fun o => if get o then none else some (turnOn o)

/-- An option with a value that can be given once, since it fails when there is a value already. -/
def setting {α : Type} (letter : Option Char) (long valueName help : String)
    (parse? : String → Option α) (get : Options → Option α) (set : Options → α → Options) :
    OptionSpec where
  letter
  long
  isRepeatable := false
  help
  action := .setValue valueName fun o text =>
    if (get o).isSome then none else (parse? text).map (set o)

/-- The options, in the order in which they are listed. -/
def optionSpecs : List OptionSpec := [
  setting (some 'j') "output-json-path" "OUTPUT_JSON_PATH" "Path for output in JSON format"
    pathValue? (·.outputJsonPath) fun o p => { o with outputJsonPath := some p },
  setting (some 'd') "max-depth" "MAX_DEPTH"
    "Maximum depth of the printed tree (default: unlimited)"
    numberValue? (·.maxDepth) fun o n => { o with maxDepth := some n },
  { letter := some 'v', long := "verbose", isRepeatable := true, help := "Verbosity level"
    action := .set fun o => some { o with verbosity := o.verbosity + 1 } },
  switch "print-system-dlls" "Include system DLLs in the output"
    (·.printSystemDlls) fun o => { o with printSystemDlls := true },
  switch "full-paths" "Print the full path of every module instead of its folder"
    (·.fullPaths) fun o => { o with fullPaths := true },
  switch "check-symbols" "Report the DLLs and symbols that could not be resolved"
    (·.checkSymbols) fun o => { o with checkSymbols := true },
  switch "undecorate" "Undecorate MSVC symbol names in reports"
    (·.undecorate) fun o => { o with undecorate := true },
  switch "modules" "Print the list of unique modules"
    (·.listModules) fun o => { o with listModules := true },
  setting (some 'w') "windows-root" "WINDOWS_ROOT"
    ("Windows partition to use for system DLLs lookup (if not specified, the host system on " ++
      "Windows, elsewhere the partition where the first INPUT lies, if valid)")
    pathValue? (·.windowsRoot) fun o p => { o with windowsRoot := some p },
  setting (some 'k') "workdir" "WORKDIR"
    ("Working directory to be considered in the DLL lookup path (default: directory of the " ++
      "first INPUT)")
    pathValue? (·.workingDir) fun o p => { o with workingDir := some p },
  setting (some 'a') "userpath" "PATH"
    "User path to be considered in the DLL lookup path, entries separated by ';'"
    some (·.userPath) fun o text => { o with userPath := some text },
  setting none "known-dlls" "KNOWN_DLLS" "File listing the known DLLs, one per line"
    pathValue? (·.knownDlls) fun o p => { o with knownDlls := some p },
  setting none "known-dlls-dir" "KNOWN_DLLS_DIR"
    "Directory the known DLLs are mapped from (default: the system directory)"
    pathValue? (·.knownDllsDir) fun o p => { o with knownDllsDir := some p },
  setting none "dwp-file-path" "DWP_FILE_PATH"
    "Read the complete DLL lookup path from a .dwp file (Dependency Walker's format)"
    pathValue? (·.searchPathFile) fun o p => { o with searchPathFile := some p },
  switch "unsafe-dll-search"
    ("Emulate SafeDllSearchMode=0: the working directory is searched right after the " ++
      "application directory")
    (·.unsafeSearch) fun o => { o with unsafeSearch := true },
  { letter := some 'h', long := "help", isRepeatable := false, help := "Print help"
    action := .finish .help },
  { letter := some 'V', long := "version", isRepeatable := false, help := "Print version"
    action := .finish .version }]

/-- What the option of a long name does. -/
def actionOfName? (name : String) : Option OptionAction :=
  (optionSpecs.find? (·.long = name)).map (·.action)

/-- What the option of a letter does. -/
def actionOfLetter? (letter : Char) : Option OptionAction :=
  (optionSpecs.find? (·.letter = some letter)).map (·.action)

/-! ### Reading arguments -/

/-- What has been read: the options so far, the option whose value is the next argument, and
whether all that follows are files. -/
structure ReadingState where
  options : Options
  pending : Option (Options → String → Option Options)
  onlyInputs : Bool

namespace ReadingState

/-- Go on with changed options, if the change is allowed. -/
def update (s : ReadingState) : Option Options → Except Invocation ReadingState
  | some options => .ok { s with options, pending := none }
  | none => .error .misuse

/-- Add a file. -/
def addInput (s : ReadingState) (text : String) : Except Invocation ReadingState :=
  s.update ((pathValue? text).map fun p => { s.options with inputs := s.options.inputs ++ [p] })

/-- Read an option by its long name, with the value that follows an equals sign, if any. -/
def readLong (s : ReadingState) (name : String) (value : Option String) :
    Except Invocation ReadingState :=
  match actionOfName? name, value with
  | some (.finish invocation), none => .error invocation
  | some (.set apply), none => s.update (apply s.options)
  | some (.setValue _ apply), some text => s.update (apply s.options text)
  | some (.setValue _ apply), none => .ok { s with pending := some apply }
  | _, _ => .error .misuse

/-- The value that follows a letter in the same argument, which may be set off by an equals sign. -/
def attachedValue : List Char → String
  | '=' :: cs => String.ofList cs
  | cs => String.ofList cs

/-- Read options by their letters. What follows the letter of an option with a value is the
value. -/
def readLetters (s : ReadingState) : List Char → Except Invocation ReadingState
  | [] => .ok s
  | c :: rest =>
    match actionOfLetter? c with
    | some (.finish invocation) => .error invocation
    | some (.set apply) =>
      match s.update (apply s.options) with
      | .error e => .error e
      | .ok s => s.readLetters rest
    | some (.setValue _ apply) =>
      if rest.isEmpty then .ok { s with pending := some apply }
      else s.update (apply s.options (attachedValue rest))
    | none => .error .misuse

/-- Read an argument that is not the value of an option. -/
def readFresh (s : ReadingState) (argument : String) : Except Invocation ReadingState :=
  if s.onlyInputs then s.addInput argument
  else
    match argument.toList with
    | ['-', '-'] => .ok { s with onlyInputs := true }
    | '-' :: '-' :: cs =>
      let name := String.ofList (cs.takeWhile (· != '='))
      match cs.dropWhile (· != '=') with
      | [] => s.readLong name none
      | _ :: value => s.readLong name (some (String.ofList value))
    | '-' :: c :: cs => s.readLetters (c :: cs)
    | _ => s.addInput argument

/-- Whether an argument can be the value of the option before it. One that looks like an option
cannot. -/
def isValue (argument : String) : Bool :=
  match argument.toList with
  | '-' :: _ :: _ => false
  | _ => true

/-- Read an argument. -/
def read (s : ReadingState) (argument : String) : Except Invocation ReadingState :=
  match s.pending with
  | none => s.readFresh argument
  | some apply =>
    if isValue argument then s.update (apply s.options argument) else .error .misuse

/-- Read arguments from left to right. -/
def readAll (s : ReadingState) : List String → Except Invocation ReadingState
  | [] => .ok s
  | argument :: rest =>
    match s.read argument with
    | .error e => .error e
    | .ok s => s.readAll rest

/-- What the arguments ask for once all of them have been read. A value may not be missing at the
end, and there must be a file. -/
def toInvocation (s : ReadingState) : Invocation :=
  if s.pending.isNone ∧ s.options.inputs ≠ [] then .run s.options else .misuse

end ReadingState

/-- What a list of arguments asks for. -/
def Invocation.ofArguments (arguments : List String) : Invocation :=
  match (ReadingState.mk .initial none false).readAll arguments with
  | .ok s => s.toInvocation
  | .error invocation => invocation

end DllGraph.Command
