import ScriptLint.Number.Numeral
import ScriptLint.Settings

/-!
# Command-line arguments

The arguments are read from left to right, and the first one that does not fit is the end of it. A
request for the version or for help counts as soon as it is reached, whatever follows.
-/

namespace ScriptLint.CommandLine

/-- How diagnostics are printed. -/
inductive Format where
  | text
  | json
deriving DecidableEq, Repr

/-- The arguments read so far; what was not given is absent. -/
structure Arguments where
  file : Option String := none
  tokens : Bool := false
  tree : Bool := false
  format : Option Format := none
  maxDepth : Option Nat := none
  splitNegative : Bool := false
deriving DecidableEq, Repr

/-- What a run is asked to do with a file. -/
structure Options where
  file : String
  tokens : Bool
  tree : Bool
  format : Format
  settings : Settings
deriving DecidableEq, Repr

/-- What the arguments ask for. -/
inductive Request where
  | version
  | help
  | check (options : Options)
deriving DecidableEq, Repr

/-- The number that digits spell, with an optional plus sign, if it fits in 64 bits. -/
def natural? (text : String) : Option Nat :=
  let digits :=
    match text.toList with
    | '+' :: rest => rest
    | chars => chars
  if Numeral.isDigits digits ∧ Numeral.ofDigits digits < UInt64.size then
    some (Numeral.ofDigits digits)
  else none

namespace Arguments

/-- The request of arguments that have been read to the end; a file is needed. -/
def finish? (arguments : Arguments) : Option Request :=
  arguments.file.map fun file =>
    .check {
      file := file
      tokens := arguments.tokens
      tree := arguments.tree
      format := arguments.format.getD .text
      settings :=
        { maxDepth := arguments.maxDepth.getD ({} : Settings).maxDepth
          foldNegative := !arguments.splitNegative } }

/-- Takes an argument as the file, which must not be empty and may be given once. -/
def addFile? (arguments : Arguments) (file : String) : Option Arguments :=
  if arguments.file.isNone ∧ file ≠ "" then some { arguments with file := some file } else none

/-- Sets a flag, which may be given once. -/
def addFlag? (arguments : Arguments) : String → Option Arguments
  | "tokens" => if arguments.tokens then none else some { arguments with tokens := true }
  | "ast" => if arguments.tree then none else some { arguments with tree := true }
  | "no-fold-negative" =>
      if arguments.splitNegative then none else some { arguments with splitNegative := true }
  | _ => none

/-- Sets an option with a value, which may be given once. -/
def addOption? (arguments : Arguments) (name value : String) : Option Arguments :=
  match name with
  | "format" =>
      if arguments.format.isSome then none
      else if value = "text" then some { arguments with format := some .text }
      else if value = "json" then some { arguments with format := some .json }
      else none
  | "max-depth" =>
      if arguments.maxDepth.isSome then none
      else (natural? value).map fun depth => { arguments with maxDepth := some depth }
  | _ => none

/-- Reads arguments behind `--`, all of which are files. -/
def files? (arguments : Arguments) : List String → Option Request
  | [] => arguments.finish?
  | file :: rest => (arguments.addFile? file).bind fun arguments => arguments.files? rest

end Arguments

/-- An argument by its looks. -/
inductive Shape where
  /-- Two dashes, which end the options. -/
  | separator
  /-- Two dashes with a name, and a value if there is an equals sign. -/
  | long (name : String) (value : Option String)
  /-- A dash with letters. -/
  | short (letters : List Char)
  | plain
deriving DecidableEq, Repr

/-- The looks of an argument. A single dash is plain. -/
def shapeOf (argument : String) : Shape :=
  match argument.toList with
  | ['-', '-'] => .separator
  | '-' :: '-' :: rest =>
      let name := String.ofList (rest.takeWhile (· != '='))
      match rest.dropWhile (· != '=') with
      | [] => .long name none
      | _ :: value => .long name (some (String.ofList value))
  | '-' :: c :: rest => .short (c :: rest)
  | _ => .plain

/-- Whether an option of this name takes a value. -/
def takesValue (name : String) : Bool :=
  name = "format" || name = "max-depth"

/-- What a cluster of letters behind a dash asks for: its first letter decides. -/
def shortRequest? : List Char → Option Request
  | 'V' :: _ => some .version
  | 'h' :: _ => some .help
  | _ => none

/-- Reads arguments from left to right. An option takes its value from behind an equals sign or from
the next argument, which must then be plain. -/
def readArguments (arguments : Arguments) : List String → Option Request
  | [] => arguments.finish?
  | argument :: rest =>
      match shapeOf argument with
      | .separator => arguments.files? rest
      | .short letters => shortRequest? letters
      | .plain => (arguments.addFile? argument).bind (readArguments · rest)
      | .long name (some value) => (arguments.addOption? name value).bind (readArguments · rest)
      | .long name none =>
          if name = "version" then some .version
          else if name = "help" then some .help
          else if takesValue name then
            match rest with
            | [] => none
            | value :: later =>
                if shapeOf value = .plain then
                  (arguments.addOption? name value).bind (readArguments · later)
                else none
          else (arguments.addFlag? name).bind (readArguments · rest)

/-- The request that a list of arguments makes, if it makes one. -/
def request? (arguments : List String) : Option Request :=
  readArguments {} arguments

end ScriptLint.CommandLine
