import ScriptLint.CommandLine.Run
import ScriptLint.Proofs.Reporting.Positions
import ScriptLint.Proofs.Token.Writing

/-!
# The verdict of a run

The exit code of a run and what it prints to standard error are its verdict. They depend on the
source and on the settings alone: `run_verdict` says what they are in terms of `Program.parse` and
`analyze`, for all arguments that ask for a file to be checked. What is printed besides, and in
which format, makes no difference, and every choice of it can be asked for.
-/

namespace ScriptLint.CommandLine

/-- The name under which a file is shown in reports. -/
def shownName (file : String) : String :=
  (Path.fileName? file).getD file

/-- The word for a format behind `--format`. -/
def Format.word : Format → String
  | .text => "text"
  | .json => "json"

/-- Arguments that ask for given options, with every value written out. -/
def Options.arguments (options : Options) : List String :=
  (if options.tokens then ["--tokens"] else []) ++ (if options.tree then ["--ast"] else []) ++
    (if options.settings.foldNegative then [] else ["--no-fold-negative"]) ++
    ["--format", options.format.word, "--max-depth", options.settings.maxDepth.repr,
      "--", options.file]

section Arguments

variable {arguments : Arguments} {argument name value : String} {rest : List String}

/-- The decimal digits of a number do not begin with a sign. -/
theorem toDigits_eq_cons (n : Nat) :
    ∃ c rest, Nat.toDigits 10 n = c :: rest ∧ c ≠ '+' ∧ c ≠ '-' := by
  obtain ⟨c, rest, hdigits⟩ := List.exists_cons_of_ne_nil (@Nat.toDigits_ne_nil n 10)
  have hc : c.isDigit = true :=
    Nat.isDigit_of_mem_toDigits (by decide) (by decide) (hdigits ▸ List.mem_cons_self)
  refine ⟨c, rest, hdigits, ?_, ?_⟩ <;> rintro rfl <;> exact absurd hc (by decide)

/-- A number is read back from its decimal digits. -/
theorem natural?_repr {n : Nat} (h : n < UInt64.size) : natural? n.repr = some n := by
  obtain ⟨c, rest, hcons, hplus, -⟩ := toDigits_eq_cons n
  have hdigits : Numeral.isDigits (c :: rest) = true := by
    rw [← hcons]
    exact Lexeme.isDigits_iff.2 ⟨Nat.toDigits_ne_nil, fun c hc =>
      Nat.isDigit_of_mem_toDigits (by decide) (by decide) hc⟩
  have hvalue : Numeral.ofDigits (c :: rest) = n := by
    rw [← hcons]
    exact Nat.ofDigitChars_ten_toDigits
  rw [Nat.repr_eq_ofList_toDigits, hcons, natural?, String.toList_ofList]
  split
  next heq => exact absurd (List.cons.inj heq).1 hplus
  next => rw [if_pos ⟨hdigits, hvalue.trans_lt h⟩, hvalue]

/-- A number is an argument without dashes. -/
theorem shapeOf_repr (n : Nat) : shapeOf n.repr = .plain := by
  obtain ⟨c, rest, hcons, -, hminus⟩ := toDigits_eq_cons n
  rw [Nat.repr_eq_ofList_toDigits, hcons, shapeOf, String.toList_ofList]
  split <;> simp_all

/-- A flag is read as it was chosen, where `set` gives the arguments with either choice. -/
theorem readArguments_flag (set : Bool → Arguments) (hshape : shapeOf argument = .long name none)
    (hflag : takesValue name = false) (hset : (set false).addFlag? name = some (set true))
    (chosen : Bool) :
    readArguments (set false) ((if chosen then [argument] else []) ++ rest) =
      readArguments (set chosen) rest := by
  have hversion : name ≠ "version" := by rintro rfl; cases hset
  have hhelp : name ≠ "help" := by rintro rfl; cases hset
  cases chosen with
  | false => rfl
  | true =>
      rw [if_pos rfl, List.singleton_append, readArguments.eq_def]
      simp [hshape, hversion, hhelp, hflag, hset]

/-- An option takes the argument behind it as its value. -/
theorem readArguments_option {later : Arguments} (hshape : shapeOf argument = .long name none)
    (hoption : takesValue name = true) (hvalue : shapeOf value = .plain)
    (hset : arguments.addOption? name value = some later) :
    readArguments arguments (argument :: value :: rest) = readArguments later rest := by
  have hversion : name ≠ "version" := by rintro rfl; exact absurd hoption (by decide)
  have hhelp : name ≠ "help" := by rintro rfl; exact absurd hoption (by decide)
  rw [readArguments.eq_def]
  simp [hshape, hversion, hhelp, hoption, hvalue, hset]

/-- The part of the arguments that gives flags is read as it was written. -/
theorem readArguments_flags (tokens tree split : Bool) :
    readArguments {} ((if tokens then ["--tokens"] else []) ++ ((if tree then ["--ast"] else []) ++
        ((if split then ["--no-fold-negative"] else []) ++ rest))) =
      readArguments { tokens := tokens, tree := tree, splitNegative := split } rest :=
  calc
    _ = readArguments { tokens := tokens } ((if tree then ["--ast"] else []) ++
          ((if split then ["--no-fold-negative"] else []) ++ rest)) :=
      readArguments_flag (fun chosen => { tokens := chosen }) rfl rfl rfl tokens
    _ = readArguments { tokens := tokens, tree := tree }
          ((if split then ["--no-fold-negative"] else []) ++ rest) :=
      readArguments_flag (fun chosen => { tokens := tokens, tree := chosen }) rfl rfl rfl tree
    _ = _ :=
      readArguments_flag (fun chosen => { tokens := tokens, tree := tree, splitNegative := chosen })
        rfl rfl rfl split

/-- The part of the arguments that gives values and the file is read as it was written. -/
theorem readArguments_values {file : String} {format : Format} {depth : Nat}
    (hnone : arguments.file = none ∧ arguments.format = none ∧ arguments.maxDepth = none)
    (hfile : file ≠ "") (hdepth : depth < UInt64.size) :
    readArguments arguments ["--format", format.word, "--max-depth", depth.repr, "--", file] =
      { arguments with
        file := some file, format := some format, maxDepth := some depth }.finish? := by
  obtain ⟨hnofile, hnoformat, hnodepth⟩ := hnone
  have hword : shapeOf format.word = .plain := by cases format <;> rfl
  have hformat : arguments.addOption? "format" format.word =
      some { arguments with format := some format } := by
    cases format <;> simp [Arguments.addOption?, Format.word, hnoformat]
  have hlimit : Arguments.addOption? { arguments with format := some format } "max-depth"
      depth.repr = some { arguments with format := some format, maxDepth := some depth } := by
    simp [Arguments.addOption?, hnodepth, natural?_repr hdepth]
  rw [readArguments_option (by decide) (by decide) hword hformat,
    readArguments_option (by decide) (by decide) (shapeOf_repr depth) hlimit,
    readArguments.eq_def]
  show Arguments.files? _ [file] = _
  simp [Arguments.files?, Arguments.addFile?, hnofile, hfile]

end Arguments

/-- All options with a depth that fits and a file that is not empty can be asked for. -/
theorem request?_arguments {options : Options} (hfile : options.file ≠ "")
    (hdepth : options.settings.maxDepth < UInt64.size) :
    request? options.arguments = some (.check options) := by
  obtain ⟨file, tokens, tree, format, depth, fold⟩ := options
  have hfold : (if fold then [] else ["--no-fold-negative"]) =
      if !fold then ["--no-fold-negative"] else [] := by cases fold <;> rfl
  rw [request?, Options.arguments, hfold, List.append_assoc, List.append_assoc,
    readArguments_flags, readArguments_values ⟨rfl, rfl, rfl⟩ hfile hdepth]
  simp [Arguments.finish?]

/-- What an exit code and a text on standard error have to be for a source. -/
structure Verdict (settings : Settings) (source file : String) (exit : Nat) (stderr : String) :
    Prop where
  given_up : exit = 2 ↔ ∃ error, Program.parse settings source = .error error
  clean : exit = 0 ↔ analyze settings source = .ok []
  reported : exit = 1 ↔ ∃ diagnostics, diagnostics ≠ [] ∧ analyze settings source = .ok diagnostics
  message : ∀ error, Program.parse settings source = .error error →
    stderr = Report.error source (shownName file) error ++ "\n"
  silent : ∀ parsed, Program.parse settings source = .ok parsed → stderr = ""

section Sources

variable {options : Options} {settings : Settings} {source file : String} {parsed : Parsed}
  {error : Error} {read : String → Except ReadFailure ByteArray} {arguments : List String}

/-- A source that cannot be read is given up with the error of its reading. With its tokens asked
for, the error may be met while they are listed: it is the same one. -/
theorem handleSource_of_error (hparse : Program.parse options.settings source = .error error) :
    ∃ printed, handleSource options source =
      giveUp printed source (shownName options.file) error := by
  have hcheck (printed : String) : checkSource options printed source (shownName options.file) =
      giveUp printed source (shownName options.file) error := by
    rw [checkSource, hparse]
  unfold handleSource
  cases options.tokens with
  | false => exact ⟨_, hcheck _⟩
  | true =>
      cases htokens : Token.tokenize options.settings source with
      | ok tokens => exact ⟨_, hcheck _⟩
      | error failure =>
          obtain rfl : failure = error :=
            Except.error.inj ((Program.parse_of_error htokens).symm.trans hparse)
          exact ⟨_, rfl⟩

/-- The exit code of a source that is parsed tells whether there are diagnostics. -/
theorem handleSource_of_ok (hparse : Program.parse options.settings source = .ok parsed) :
    ∃ printed, handleSource options source =
      ⟨if parsed.diagnostics.isEmpty then 0 else 1, printed, ""⟩ := by
  have hcheck (printed : String) :
      ∃ all, checkSource options printed source (shownName options.file) =
        ⟨if parsed.diagnostics.isEmpty then 0 else 1, all, ""⟩ := by
    rw [checkSource, hparse]
    exact ⟨_, rfl⟩
  unfold handleSource
  cases options.tokens with
  | false => exact hcheck _
  | true =>
      cases htokens : Token.tokenize options.settings source with
      | ok tokens => exact hcheck _
      | error failure => cases (Program.parse_of_error htokens).symm.trans hparse

/-- With nothing else asked for, a run prints its diagnostics one after the other. -/
theorem handleSource_text {diagnostics : List Diagnostic}
    (h : analyze settings source = .ok diagnostics) :
    (handleSource ⟨file, false, false, .text, settings⟩ source).stdout =
      String.join (diagnostics.map fun diagnostic =>
        Report.diagnostic source (shownName file) diagnostic ++ "\n\n") := by
  obtain ⟨parsed, hparse, rfl⟩ := analyze_ok_iff.1 h
  show (checkSource _ _ _ (shownName file)).stdout = _
  simp [checkSource, hparse, printDiagnostics]

theorem handleSource_text_of_error (h : analyze settings source = .error error) :
    (handleSource ⟨file, false, false, .text, settings⟩ source).stdout = "" := by
  show (checkSource _ _ _ (shownName file)).stdout = _
  simp [checkSource, analyze_error_iff.1 h, giveUp]

/-- The verdict on a source that is not parsed. -/
theorem Verdict.of_error (hparse : Program.parse settings source = .error error) :
    Verdict settings source file 2 (Report.error source (shownName file) error ++ "\n") := by
  have hanalyze := analyze_error_iff.2 hparse
  constructor <;> simp [hparse, hanalyze]

/-- The verdict on a source that is parsed. -/
theorem Verdict.of_ok (hparse : Program.parse settings source = .ok parsed) :
    Verdict settings source file (if parsed.diagnostics.isEmpty then 0 else 1) "" := by
  have hanalyze := analyze_ok_iff.2 ⟨parsed, hparse, rfl⟩
  constructor <;> cases hdiagnostics : parsed.diagnostics <;> simp [hparse, hanalyze, hdiagnostics]

/-- The bytes of a text are handled as that text. -/
theorem run_check (hread : read options.file = .ok source.toUTF8)
    (hrequest : request? arguments = some (.check options)) :
    run read arguments = handleSource options source := by
  have htext : String.fromUTF8? source.toUTF8 = some source := dif_pos source.isValidUTF8
  have hdecode : decode source.toUTF8 = .ok source := by rw [decode, htext]
  simp only [run, hrequest, handleFile, hread, Except.bind, hdecode]

end Sources

/-- The exit code of a run that checks a file and what it prints to standard error are the same
whichever combination of outputs it is asked for, and they are those that the reading and the
analysis of the source call for. With nothing but text asked for, the diagnostics of the analysis
are printed. -/
theorem run_verdict {read : String → Except ReadFailure ByteArray} {file source : String}
    (settings : Settings) (hread : read file = .ok source.toUTF8) :
    (file ≠ "" → settings.maxDepth < UInt64.size → ∀ tokens tree format, ∃ arguments,
      request? arguments = some (.check ⟨file, tokens, tree, format, settings⟩)) ∧
    (∃ exit stderr, Verdict settings source file exit stderr ∧
      ∀ tokens tree format arguments,
        request? arguments = some (.check ⟨file, tokens, tree, format, settings⟩) →
          (run read arguments).exit = exit ∧ (run read arguments).stderr = stderr) ∧
    ∀ arguments, request? arguments = some (.check ⟨file, false, false, .text, settings⟩) →
      (∀ diagnostics, analyze settings source = .ok diagnostics →
        (run read arguments).stdout = String.join (diagnostics.map fun diagnostic =>
          Report.diagnostic source (shownName file) diagnostic ++ "\n\n")) ∧
      ∀ error, analyze settings source = .error error → (run read arguments).stdout = "" := by
  refine ⟨fun hfile hdepth tokens tree format => ⟨_, request?_arguments hfile hdepth⟩, ?_, ?_⟩
  · cases hparse : Program.parse settings source with
    | error error =>
        refine ⟨_, _, .of_error hparse, fun tokens tree format arguments hrequest => ?_⟩
        obtain ⟨printed, houtcome⟩ :=
          @handleSource_of_error ⟨file, tokens, tree, format, settings⟩ _ _ hparse
        rw [run_check hread hrequest, houtcome]
        exact ⟨rfl, rfl⟩
    | ok parsed =>
        refine ⟨_, _, .of_ok hparse, fun tokens tree format arguments hrequest => ?_⟩
        obtain ⟨printed, houtcome⟩ :=
          @handleSource_of_ok ⟨file, tokens, tree, format, settings⟩ _ _ hparse
        rw [run_check hread hrequest, houtcome]
        exact ⟨rfl, rfl⟩
  · intro arguments hrequest
    rw [run_check hread hrequest]
    exact ⟨fun diagnostics => handleSource_text, fun error => handleSource_text_of_error⟩

/-- An open string is met while the tokens are listed, and the run ends as if it had been met
later. -/
theorem run_verdict_open_string :
    let read (_ : String) : Except ReadFailure ByteArray := .ok "a = \"b".toUTF8
    (run read ["--tokens", "--format=json", "lib/a.sc"]).exit = 2 ∧
      (run read ["--tokens", "--format=json", "lib/a.sc"]).stderr =
        (run read ["lib/a.sc", "--ast"]).stderr := by
  intro read
  have hread : read "lib/a.sc" = .ok "a = \"b".toUTF8 := rfl
  obtain ⟨-, ⟨exit, stderr, hverdict, hrun⟩, -⟩ := run_verdict {} hread
  have hrefused : analyze {} "a = \"b" = .error ⟨.unterminatedString 4, ⟨4, 6⟩, true⟩ := by
    decide +kernel
  have hlisting := hrun true false .json ["--tokens", "--format=json", "lib/a.sc"]
    (by decide +kernel)
  have htree := hrun false true .text ["lib/a.sc", "--ast"] (by decide +kernel)
  exact ⟨hlisting.1.trans (hverdict.given_up.2 ⟨_, analyze_error_iff.1 hrefused⟩),
    hlisting.2.trans htree.2.symm⟩

end ScriptLint.CommandLine
