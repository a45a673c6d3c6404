import DllGraph.FileTree
import DllGraph.Image.Fault
import DllGraph.Text.Quoted

/-!
# Failures

Why an analysis, or the preparation of one, fails as a whole. What is wrong with a single module
is no failure; it is a `Diagnostic` of that module.
-/

namespace DllGraph

/-- Why an operation fails as a whole. -/
inductive Failure where
  /-- A file cannot be read or written. -/
  | file (e : FileError)
  /-- An image cannot be read. -/
  | image (fault : Fault)
  /-- There is nothing to scan. -/
  | nothingToScan
  /-- A path to scan does not end in a file name, or in one that is no text. -/
  | noFileName (path : Path)
  /-- There is no program to start from. -/
  | noExecutable
  /-- The program to start from lies in no directory. -/
  | noDirectory (path : Path)
  /-- A line of a search path file is not understood. -/
  | unknownKey (line : String)
  /-- A manifest is not well-formed XML. -/
  | malformedManifest
  /-- A name in a list of known DLLs is not a lowercase ASCII name. -/
  | notLowercase (name : String)
  /-- Two neighbours in a list of known DLLs are out of order, or the same. -/
  | outOfOrder (first second : String)
deriving DecidableEq

/-- The message of a failure. That of a manifest does not say what is wrong with it. -/
def Failure.message : Failure → String
  | .file e => e.message
  | .image fault => "PE file parse error: " ++ fault.message
  | .nothingToScan => "Could not scan: No binary to scan"
  | .noFileName path => "Could not scan: could not open file " ++ path.text
  | .noExecutable => "Lookup context building error: No executable given"
  | .noDirectory path =>
    "Lookup context building error: Could not find application directory for given executable " ++
      path.text
  | .unknownKey line => "Parse error: Unknown key in dwp file: " ++ line
  | .malformedManifest => "Manifest parse error"
  | .notLowercase name =>
    "Invalid known DLL list: " ++ Text.quoted name ++ " is not a lowercase ASCII name"
  | .outOfOrder first second =>
    "Invalid known DLL list: " ++ Text.quoted first ++ " and " ++ Text.quoted second ++
      " are out of order or duplicated"

end DllGraph
