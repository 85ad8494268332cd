import ScriptLint.Analysis
import ScriptLint.CommandLine.Options
import ScriptLint.CommandLine.Path
import ScriptLint.Report.Excerpt
import ScriptLint.Report.TreeJson

/-!
# A run of the command line

A run reads one file, prints what it was asked for, and ends with 0 for a clean file, 1 if anything
was reported, and 2 if the file could not be read or its reading was given up. The file system is an
argument: what reading a path gives.
-/

namespace ScriptLint.CommandLine

/-- Why a file cannot be read. -/
inductive ReadFailure where
  | missing
  | isDirectory
  | notDirectory
  /-- The bytes of the file are not UTF-8. -/
  | notText
  /-- Anything else, in the words of the system. -/
  | other (message : String)
deriving DecidableEq, Repr

/-- The wording of a failure to read a file. -/
def ReadFailure.message : ReadFailure → String
  | .missing => "No such file or directory (os error 2)"
  | .isDirectory => "Is a directory (os error 21)"
  | .notDirectory => "Not a directory (os error 20)"
  | .notText => "stream did not contain valid UTF-8"
  | .other message => message

/-- How a run ends: its exit code and what it has printed. -/
structure Outcome where
  exit : Nat
  stdout : String
  stderr : String
deriving DecidableEq, Repr

/-- The text of bytes that are UTF-8. -/
def decode (bytes : ByteArray) : Except ReadFailure String :=
  match String.fromUTF8? bytes with
  | some text => .ok text
  | none => .error .notText

/-- The listing of the tokens of a source, one line each. -/
def listTokens (tokens : List Token) : String :=
  String.join (tokens.map fun token => token.listing ++ "\n")

/-- The diagnostics of a source in a given format. -/
def printDiagnostics (format : Format) (source file : String) (diagnostics : List Diagnostic) :
    String :=
  match format with
  | .text =>
      String.join (diagnostics.map fun diagnostic =>
        Report.diagnostic source file diagnostic ++ "\n\n")
  | .json => (Diagnostic.listToJson diagnostics).text ++ "\n"

/-- The end of a run that a fatal error gives up, behind what it has printed already. -/
def giveUp (printed source file : String) (error : Error) : Outcome :=
  ⟨2, printed, Report.error source file error ++ "\n"⟩

/-- Reads and checks a source, behind what has been printed already. -/
def checkSource (options : Options) (printed source file : String) : Outcome :=
  match Program.parse options.settings source with
  | .error error => giveUp printed source file error
  | .ok parsed =>
      let tree := if options.tree then parsed.program.toJson.text ++ "\n" else ""
      let diagnostics := parsed.diagnostics
      let report := printDiagnostics options.format source file diagnostics
      ⟨if diagnostics.isEmpty then 0 else 1, printed ++ tree ++ report, ""⟩

/-- Handles the source of a file, beginning with its tokens if they are asked for. -/
def handleSource (options : Options) (source : String) : Outcome :=
  let file := (Path.fileName? options.file).getD options.file
  if options.tokens then
    match Token.tokenize options.settings source with
    | .error error => giveUp "" source file error
    | .ok tokens => checkSource options (listTokens tokens) source file
  else checkSource options "" source file

/-- Handles the bytes of a file, or the failure to read it. -/
def handleFile (options : Options) (content : Except ReadFailure ByteArray) : Outcome :=
  match content.bind decode with
  | .error failure =>
      ⟨2, "", "error: failed to read " ++ options.file ++ ": " ++ failure.message ++ "\n"⟩
  | .ok source => handleSource options source

/-- The name and version of the program. -/
def versionLine : String :=
  "scriptcheck 0.1.0\n"

/-- How the program is called. -/
def usage : String :=
  "usage: scriptcheck [--tokens] [--ast] [--format text|json] [--max-depth N]\n" ++
    "                   [--no-fold-negative] FILE\n"

/-- A run with given arguments, where `read` says what reading a path gives. -/
def run (read : String → Except ReadFailure ByteArray) (arguments : List String) : Outcome :=
  match request? arguments with
  | none => ⟨2, "", usage⟩
  | some .version => ⟨0, versionLine, ""⟩
  | some .help => ⟨0, usage, ""⟩
  | some (.check options) => handleFile options (read options.file)

end ScriptLint.CommandLine
