import DllGraph.Command.Report
import DllGraph.Command.Usage
import DllGraph.Json.Graph
import DllGraph.SearchPath.File

/-!
# Running the Command

The command as a function of its arguments and of the file tree: what it prints, its exit code, and
the file tree afterwards, to which it may have added a JSON file.

## Main definitions

* `CommandFailure`, why the command fails, with its report;
* `Options.toQuery`, the query that the options stand for;
* `run`, the command.
-/

namespace DllGraph.Command

/-! ### Failing -/

/-- Why the command fails. -/
inductive CommandFailure where
  | inputNotFound (input workingDir : Path)
  | inputIsDirectory (input : Path)
  | noInstallation (root : Path)
  /-- Known DLLs are given, and there is no Windows installation. -/
  | needsInstallation
  | knownDllList (file : Path) (cause : Failure)
  | output (file : Path) (cause : Failure)
  /-- A path of the analysis is no text, and cannot be written as JSON. -/
  | notWritable
  | failure (cause : Failure)
deriving DecidableEq

namespace CommandFailure

/-- The message of a failure. -/
def message : CommandFailure → String
  | inputNotFound input workingDir =>
    "Specified file not found at " ++ input.text ++ "\nCurrent working directory: " ++
      workingDir.text
  | inputIsDirectory input =>
    "The specified path is a directory, not a PE executable file: " ++ input.text
  | noInstallation root => "no Windows installation found at " ++ root.text
  | needsInstallation =>
    "known DLLs can only be used with a Windows system; specify --windows-root"
  | knownDllList file _ => "couldn't read known DLL list " ++ file.text
  | output file _ => "couldn't write to " ++ file.text
  | notWritable => "Error serializing"
  | failure cause => cause.message

/-- What led to a failure, if that is not the failure itself. -/
def cause? : CommandFailure → Option String
  | knownDllList _ cause => some cause.message
  | output _ cause => some cause.message
  | notWritable => some "path contains invalid UTF-8 characters"
  | _ => none

/-- A text with each of its lines indented. -/
def indented (text : String) : String :=
  "\n".intercalate ((text.splitOn "\n").map ("    " ++ ·))

/-- The report of a failure: its message, and what led to it. -/
def report (f : CommandFailure) : String :=
  let cause := match f.cause? with
    | some cause => "\n\nCaused by:\n" ++ indented cause
    | none => ""
  "Error: " ++ f.message ++ cause ++ "\n"

end CommandFailure

/-! ### The query -/

/-- The absolute path of a file to analyse. -/
def checkInput (t : FileTree) (input : Path) : Except CommandFailure Path :=
  if !t.exists? input then .error (.inputNotFound input (FileTree.pathOf t.workingDir))
  else if t.isDir input then .error (.inputIsDirectory input)
  else (t.canonicalize input).mapError fun e => .failure (.file e)

/-- The absolute paths of the files to analyse; the first file that is wrong is reported. -/
def checkInputs (t : FileTree) : List Path → Except CommandFailure (List Path)
  | [] => .ok []
  | input :: rest =>
    match checkInput t input with
    | .error e => .error e
    | .ok path => (checkInputs t rest).map (path :: ·)

/-- The installation to use: the one asked for, or else the one that was deduced. -/
def chooseInstallation (t : FileTree) (o : Options) (deduced : Option Installation) :
    Except CommandFailure (Option Installation) :=
  match o.windowsRoot with
  | none => .ok deduced
  | some root =>
    match Installation.ofRoot? t root with
    | some i => .ok (some i)
    | none => .error (.noInstallation root)

/-- The known DLLs to use on an installation. Without a list of their own they are those of the
installation, in the directory that was asked for. -/
def chooseKnownDlls (t : FileTree) (o : Options) (i : Installation) :
    Except CommandFailure KnownDlls :=
  let directory := o.knownDllsDir.getD i.systemDir
  match o.knownDlls, i.knownDlls with
  | some file, _ => (KnownDlls.ofFile t file directory).mapError (.knownDllList file)
  | none, some k => .ok { k with directory }
  | none, none => .ok (.windowsDefault directory)

/-- The installation with the settings that were asked for. -/
def configureInstallation (t : FileTree) (o : Options) (i : Option Installation) :
    Except CommandFailure (Option Installation) :=
  let i := if o.unsafeSearch then i.map ({ · with safeSearch := some false }) else i
  if o.knownDlls.isNone ∧ o.knownDllsDir.isNone then .ok i
  else
    match i with
    | none => .error .needsInstallation
    | some i => (chooseKnownDlls t o i).map fun k => some { i with knownDlls := some k }

/-- The folders of a list separated by semicolons. -/
def listedFolders (list : String) : List Path :=
  ((list.splitOn ";").filter (· != "")).map fun (folder : String) => ⟨folder⟩

/-- The folders that the user has added: those of a list that are there. -/
def userFolders (t : FileTree) (list : String) : List Path :=
  (listedFolders list).filterMap fun p => (t.canonicalize p).toOption

/-- The query that the options stand for. -/
def Options.toQuery (t : FileTree) (o : Options) : Except CommandFailure Query := do
  let roots ← checkInputs t o.inputs
  let q ← (Query.deduce t roots).mapError .failure
  let chosen ← chooseInstallation t o q.installation
  let installation ← configureInstallation t o chosen
  return { q with
    installation
    workingDir := o.workingDir.getD q.workingDir
    userPath := q.userPath ++ (o.userPath.map (userFolders t)).getD [] }

/-- The search path for a query: the one of a file, if that is asked for, or the standard one. -/
def Options.toSearchPath (t : FileTree) (o : Options) (q : Query) :
    Except CommandFailure SearchPath :=
  match o.searchPathFile with
  | some file => (SearchPath.ofFile t q file).mapError .failure
  | none => .ok (.deduce q)

/-! ### The command -/

/-- What the command leaves behind. -/
structure Outcome where
  exitCode : Nat
  out : String
  err : String
  files : FileTree

/-- The end of a command that has failed after it had printed something. -/
def Outcome.failed (t : FileTree) (out : String) (f : CommandFailure) : Outcome :=
  ⟨1, out, f.report, t⟩

/-- The analysis that the options ask for. -/
def Options.analyse (t : FileTree) (o : Options) : Except CommandFailure Analysis := do
  let q ← o.toQuery t
  let s ← o.toSearchPath t q
  let (a, _) ← (Analysis.ofRoots s t .empty q.roots).mapError .failure
  return a

/-- The reports that the options ask for. -/
def Options.reports (t : FileTree) (o : Options) (a : Analysis) : String :=
  treeReport t o a ++ (if o.listModules then modulesReport t o a else "") ++
    (if o.checkSymbols then missingReport o a else "")

/-- Run the command with some options. -/
def Options.run (t : FileTree) (o : Options) : Outcome :=
  match o.analyse t with
  | .error f => .failed t "" f
  | .ok a =>
    let out := o.reports t a
    match o.outputJsonPath with
    | none => ⟨0, out, "", t⟩
    | some file =>
      match a.jsonText? with
      | none => .failed t out .notWritable
      | some json =>
        match t.write file json.toUTF8 with
        | .ok t => ⟨0, out, "", t⟩
        | .error e => .failed t out (.output file (.file e))

/-- What is said about a wrong use of the command. -/
def misuseText : String :=
  "error: invalid arguments\n\nFor more information, try '--help'.\n"

/-- Run the command with some arguments. -/
def run (t : FileTree) (arguments : List String) : Outcome :=
  match Invocation.ofArguments arguments with
  | .run o => o.run t
  | .help => ⟨0, helpText, "", t⟩
  | .version => ⟨0, versionText, "", t⟩
  | .misuse => ⟨2, "", misuseText, t⟩

end DllGraph.Command
