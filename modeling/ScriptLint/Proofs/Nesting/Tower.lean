import ScriptLint.Proofs.Nesting.Threshold
import ScriptLint.Proofs.Sentence.CompleteParts

/-!
# Towers of arrays and calls

Sources with an expression as high as the levels allow. Each storey of the tower is an array with
the storey below it as its only element, and behind it as many calls as there are levels left. All
tokens of a tower are single symbols.
-/

namespace ScriptLint

open Reading Read

/-! ## Texts of symbols -/

/-- The characters of a tower. -/
def Token.bare : List Char :=
  ['[', ']', '(', ')', ';']

/-- Symbols one behind the other, the first one at byte `offset`. -/
def Token.symbols (offset : Nat) : List Char → List Token
  | [] => []
  | c :: rest => ⟨.symbol, String.ofList [c], ⟨offset, offset + 1⟩⟩ :: symbols (offset + 1) rest

/-- The symbols of two texts, the second ones behind the first. -/
theorem Token.symbols_append (offset : Nat) (first second : List Char) :
    Token.symbols offset (first ++ second) =
      Token.symbols offset first ++ Token.symbols (offset + first.length) second := by
  induction first generalizing offset with
  | nil => rfl
  | cons c rest ih => simp [Token.symbols, ih, Nat.add_right_comm, Nat.add_assoc]

/-- A character of a tower is a lexeme by itself, whatever stands behind it. -/
theorem Lexeme.next_bare {c : Char} (hbare : c ∈ Token.bare) (fold : Bool) (rest : List Char) :
    Lexeme.next fold c rest = ⟨.token .symbol (String.ofList [c]), [c], rest⟩ := by
  have hall : (Token.bare.all fun c => !Text.isBlank c && c != '/' && !Lexeme.isQuote c &&
      c != '-' && !c.isDigit && !Lexeme.isWordStart c) = true := by decide
  have hplain := List.all_eq_true.1 hall c hbare
  simp only [Bool.and_eq_true, Bool.not_eq_true', bne_iff_ne] at hplain
  obtain ⟨⟨⟨⟨⟨hblank, hslash⟩, hquote⟩, hminus⟩, hdigit⟩, hword⟩ := hplain
  have hsymbol : Lexeme.next fold c rest = Lexeme.operatorOrSymbol c rest := by
    simp [Lexeme.next, hblank, hslash, hquote, hminus, hdigit, hword]
  rw [hsymbol]
  simp only [Token.bare, List.mem_cons, List.not_mem_nil, or_false] at hbare
  -- None of the characters begins an operator of two characters.
  cases rest with
  | nil => rfl
  | cons d after => rcases hbare with rfl | rfl | rfl | rfl | rfl <;> rfl

/-- A text of single symbols is scanned into them, one a character. -/
theorem Token.scan_bare (fold : Bool) (offset : Nat) {text : List Char}
    (hbare : ∀ c ∈ text, c ∈ Token.bare) :
    Token.scan fold offset text =
      .ok (Token.symbols offset text ++ [Token.endMark (offset + text.length)]) := by
  induction text generalizing offset with
  | nil => exact Token.scan_nil fold offset
  | cons c rest ih =>
      have hall : (Token.bare.all fun c => c.utf8Size == 1) = true := by decide
      have hsize := eq_of_beq (List.all_eq_true.1 hall c (hbare c List.mem_cons_self))
      have hrest := ih (offset + 1) fun d hd => hbare d (List.mem_cons_of_mem c hd)
      rw [Token.scan, Lexeme.next_bare (hbare c List.mem_cons_self)]
      simp [hsize, hrest, Except.map, Token.symbols,
        Nat.add_right_comm, Nat.add_assoc]

/-! ## Towers -/

/-- The text of calls without arguments, one behind the other. -/
def Expr.calls : Nat → List Char
  | 0 => []
  | count + 1 => '(' :: ')' :: calls count

/-- The text of a tower. -/
def Expr.tower : Nat → List Char
  | 0 => ['[', ']']
  | count + 1 => '[' :: (tower count ++ ']' :: calls (count + 1))

theorem Expr.calls_bare (count : Nat) : ∀ c ∈ Expr.calls count, c ∈ Token.bare := by
  induction count with
  | zero => simp [Expr.calls]
  | succ count ih => simpa [Expr.calls, Token.bare] using ih

theorem Expr.tower_bare (count : Nat) : ∀ c ∈ Expr.tower count, c ∈ Token.bare := by
  induction count with
  | zero => simp [Expr.tower, Token.bare]
  | succ count ih =>
      intro c hc
      rw [Expr.tower, List.mem_cons, List.mem_append, List.mem_cons] at hc
      rcases hc with rfl | hc | rfl | hc
      · simp [Token.bare]
      · exact ih c hc
      · simp [Token.bare]
      · exact Expr.calls_bare (count + 1) c hc

/-- A tower begins with a bracket. -/
theorem Expr.exists_tower_eq (count : Nat) : ∃ rest, Expr.tower count = '[' :: rest := by
  cases count <;> exact ⟨_, rfl⟩

variable {context : Context} {reading first second third later : Reading}

section Storeys

variable (hgrammar : context.grammar = .standard)

include hgrammar

/-- With a level for each of them, calls are read, and each adds a node. -/
theorem Expr.readChain_calls {count offset : Nat} (left : Expr)
    (hpasses : reading.Passes (Token.symbols offset (Expr.calls count)) later)
    (hfollow : later.current.NoTail) :
    ∃ expr, Expr.readChain context count .default left reading = .ok expr later ∧
      expr.height = left.height + count := by
  induction count generalizing offset left reading with
  | zero =>
      obtain rfl := passes_nil_iff.1 hpasses
      refine ⟨left, Expr.readChain_stop ?_, rfl⟩
      refine (Expr.tighterTail?_eq_none_iff hgrammar).2 fun next form hform => ?_
      rw [hfollow] at hform
      cases hform
  | succ count ih =>
      obtain ⟨first, hopen, hpasses⟩ := passes_cons_split.1 hpasses
      obtain ⟨second, hclose, hpasses⟩ := passes_cons_split.1 hpasses
      have htail : Expr.tighterTail? context .default reading.current = some (.call, .call) := by
        rw [Expr.tighterTail?_eq_some_iff hgrammar, hopen.current_eq]
        exact ⟨rfl, by decide⟩
      have hcall : Expr.readTail (Expr.read context count) left .call .call reading =
          .ok (.call left [] (second.spanFrom left.span.start)) second := by
        rw [Expr.readTail, Expr.readCall, bind_of_ok (advance_of_passes hopen),
          bind_of_ok (separated_nil (hclose.current_eq ▸ rfl)),
          bind_of_ok (expect_of_passes rfl hclose)]
        rfl
      obtain ⟨expr, hrun, hheight⟩ := ih (.call left [] (second.spanFrom left.span.start)) hpasses
      refine ⟨expr, (Expr.readChain_step htail hcall).trans hrun, ?_⟩
      simp only [Expr.height, Expr.heights] at hheight
      omega

/-- An array is read by its brackets and the elements between them. -/
theorem Expr.read_array {levels : Nat} {elements : List Expr} {opening closing : Token}
    (hopening : opening.is "[" = true) (hopen : reading.Passes [opening] first)
    (helements : separated (atClose "]") (Expr.read context levels .default) first =
      .ok elements second)
    (hclosing : closing.is "]" = true) (hclose : second.Passes [closing] third) :
    ∃ span, Expr.read context (levels + 1) .default reading =
      Expr.readChain context levels .default (.array elements span) third := by
  have hform : Grammar.leadOf? reading.current = some .array := by
    rw [hopen.current_eq, Grammar.leadOf?_of_is hopening]
    rfl
  refine ⟨third.spanFrom opening.span.start, Expr.read_eq_readChain hgrammar hform ?_⟩
  rw [Expr.readLead, Expr.readArray, bind_of_ok (advance_of_passes hopen), bind_of_ok helements,
    bind_of_ok (expect_of_passes hclosing hclose)]
  rfl

/-- With one level for each storey and one more, a tower is read, and is as high as an expression
can be with these levels. -/
theorem Expr.read_tower {count offset : Nat}
    (hpasses : reading.Passes (Token.symbols offset (Expr.tower count)) later)
    (hfollow : later.current.NoTail) :
    ∃ expr, Expr.read context (count + 1) .default reading = .ok expr later ∧
      expr.height = Expr.reach (count + 1) := by
  induction count generalizing offset reading later with
  | zero =>
      obtain ⟨first, hopen, hclose⟩ := passes_cons_split.1 hpasses
      have hnone : separated (atClose "]") (Expr.read context 0 .default) first = .ok [] first :=
        separated_nil (hclose.current_eq ▸ rfl)
      obtain ⟨span, hread⟩ := Expr.read_array hgrammar rfl hopen hnone rfl hclose
      have hcalls : later.Passes (Token.symbols offset (Expr.calls 0)) later := Passes.refl later
      obtain ⟨expr, hchain, hheight⟩ :=
        Expr.readChain_calls hgrammar (.array [] span) hcalls hfollow
      exact ⟨expr, hread.trans hchain, hheight⟩
  | succ count ih =>
      rw [Expr.tower, Token.symbols, Token.symbols_append] at hpasses
      obtain ⟨first, hopen, hpasses⟩ := passes_cons_split.1 hpasses
      obtain ⟨second, hinside, hpasses⟩ := passes_append_iff.1 hpasses
      obtain ⟨third, hclose, hcalls⟩ := passes_cons_split.1 hpasses
      have hbracket : second.current.is "]" = true := by
        rw [hclose.current_eq]
        rfl
      obtain ⟨below, hbelow, hunder⟩ := ih hinside (Token.noTail_of_is hbracket rfl)
      -- The storey below is the only element, since no comma stands behind it.
      have hsingle : separated (atClose "]") (Expr.read context (count + 1) .default) first =
          .ok [below] second := by
        refine separated_single ?_ hbelow ?_
        · obtain ⟨rest, htower⟩ := Expr.exists_tower_eq count
          rw [htower] at hinside
          have hahead : first.ahead ≠ [] := (passes_cons_iff.1 hinside).1
          rw [hinside.current_eq]
          exact Bool.or_eq_false_iff.2 ⟨rfl, by simpa using hahead⟩
        · rw [hclose.current_eq]
          rfl
      obtain ⟨span, hread⟩ := Expr.read_array hgrammar rfl hopen hsingle rfl hclose
      obtain ⟨expr, hchain, hheight⟩ :=
        Expr.readChain_calls hgrammar (.array [below] span) hcalls hfollow
      refine ⟨expr, hread.trans hchain, ?_⟩
      simp only [Expr.height, Expr.heights, Nat.max_zero, hunder] at hheight
      show expr.height = Expr.reach (count + 1) + (count + 1 + 1)
      omega

end Storeys

/-! ## Programs -/

/-- The source of a program that returns a tower. -/
def Program.towerSource (count : Nat) : String :=
  String.ofList ("return".toList ++ (Expr.tower count ++ [';']))

/-- The tokens of that source. -/
def Program.towerTokens (count : Nat) : List Token :=
  ⟨.keyword, "return", ⟨0, 6⟩⟩ :: Token.symbols 6 (Expr.tower count ++ [';'])

/-- The tokens of a tower, of a given number of storeys. -/
theorem Program.tokenize_towerSource (depth : Nat) (fold : Bool) (count : Nat) :
    Token.tokenize ⟨depth, fold⟩ (Program.towerSource count) =
      .ok (Program.towerTokens count ++ [Token.endMark (6 + ((Expr.tower count).length + 1))]) := by
  have hbare : ∀ c ∈ Expr.tower count ++ [';'], c ∈ Token.bare := by
    intro c hc
    rcases List.mem_append.1 hc with hc | hc
    · exact Expr.tower_bare count c hc
    · simp [List.mem_singleton.1 hc, Token.bare]
  have hscan := Token.scan_bare fold 6 hbare
  -- The keyword ends where the tower begins, since a bracket is no part of a word.
  obtain ⟨rest, htower⟩ := Expr.exists_tower_eq count
  have hword : Lexeme.next fold 'r' ("eturn".toList ++ (Expr.tower count ++ [';'])) =
      ⟨.token .keyword "return", "return".toList, Expr.tower count ++ [';']⟩ := by
    rw [htower]
    cases fold <;> rfl
  show Token.scan fold 0 (String.ofList _).toList = _
  rw [String.toList_ofList]
  show Token.scan fold 0 ('r' :: ("eturn".toList ++ (Expr.tower count ++ [';']))) = _
  rw [Token.scan, hword]
  show (Token.scan fold 6 _).map _ = _
  rw [hscan, List.length_append]
  rfl

/-- A tower that is returned is read with two levels more than it has storeys. -/
theorem Stmt.read_tower (hgrammar : context.grammar = .standard) {count : Nat}
    (hpasses : reading.Passes (Program.towerTokens count) later) :
    ∃ expr span, Stmt.read (count + 2) context reading = .ok (.returnValue (some expr) span) later ∧
      expr.height = Expr.reach (count + 1) := by
  rw [Program.towerTokens, Token.symbols_append] at hpasses
  obtain ⟨first, hkeyword, hpasses⟩ := passes_cons_split.1 hpasses
  obtain ⟨second, hinside, hlast⟩ := passes_append_iff.1 hpasses
  have hsemicolon : second.current.is ";" = true := by
    rw [hlast.current_eq]
    rfl
  obtain ⟨expr, hread, hheight⟩ :=
    Expr.read_tower hgrammar hinside (Token.noTail_of_is hsemicolon rfl)
  refine ⟨expr, later.spanFrom 0, ?_, hheight⟩
  have hform : Grammar.statementOf? reading.current = some .returnValue := by
    rw [hkeyword.current_eq]
    rfl
  have hvalue : Stmt.readResult (Expr.read context (count + 1) .default) first =
      .ok (some expr) second := by
    obtain ⟨rest, htower⟩ := Expr.exists_tower_eq count
    rw [htower] at hinside
    have hahead : first.ahead ≠ [] := (passes_cons_iff.1 hinside).1
    have hlead : (Grammar.leadOf? first.current).isSome = true := by
      rw [hinside.current_eq]
      rfl
    rw [Stmt.readResult, bind_of_ok (by rfl), bind_of_ok (by rfl),
      Token.is_eq_false_of_lead hlead rfl, Expr.not_atClose rfl hahead hlead, if_neg (by simp)]
    exact map_ok_iff.2 ⟨expr, hread, rfl⟩
  rw [Stmt.read, Stmt.readBy, bind_of_ok (by rfl), hgrammar]
  simp only [Grammar.standard, hform]
  rw [Stmt.readForm, Stmt.readReturn, bind_of_ok (advance_of_passes hkeyword), bind_of_ok hvalue,
    bind_of_ok (expect_of_passes rfl hlast)]
  rfl

/-- A program of one statement is read. -/
theorem Program.readStatements_single {levels : Nat} {stmt : Stmt}
    (hstmt : Stmt.read levels context reading = .ok stmt later) (hahead : reading.ahead ≠ [])
    (hend : later.ahead = []) :
    Program.readStatements context levels reading = .ok [stmt] later := by
  have hrecovered : Stmt.readRecovering levels context reading = .ok (some stmt) later := by
    rw [Stmt.readRecovering, recovering_apply, hstmt]
  obtain ⟨more, hmore⟩ : ∃ more, reading.ahead.length = more + 1 :=
    ⟨reading.ahead.length - 1, by have hpos := List.length_pos_iff.2 hahead; omega⟩
  show collectFrom (look fun reading => !!reading.ahead.isEmpty)
    (Stmt.readRecovering levels context) (reading.ahead.length + 1) reading = _
  have hrest : collectFrom (look fun reading => !!reading.ahead.isEmpty)
      (Stmt.readRecovering levels context) (more + 1) later = .ok [] later := by
    rw [collectFrom, bind_of_ok (by rfl), if_pos (by simp [hend])]
    rfl
  rw [hmore, collectFrom, bind_of_ok (by rfl), if_neg (by simpa using hahead),
    bind_of_ok hrecovered, bind_of_ok hrest]
  rfl

/-- With two levels more than storeys, a program that returns a tower is parsed without errors, and
holds an expression as high as the levels allow. -/
theorem Program.parse_towerSource (fold : Bool) (count : Nat) :
    ∃ parsed, Program.parse ⟨count + 2, fold⟩ (Program.towerSource count) = .ok parsed ∧
      parsed.errors = [] ∧
      ∃ expr, parsed.program.Holds expr ∧ expr.height = Expr.reach (count + 1) := by
  have htokens := Program.tokenize_towerSource (count + 2) fold count
  obtain ⟨body, stop, hshape, _, hparse⟩ := Program.exists_parse_eq htokens
  obtain ⟨rfl, _⟩ := List.append_inj' hshape rfl
  have hpasses : Reading.Passes ⟨[], Program.towerTokens count, Token.endMark stop, #[]⟩
      (Program.towerTokens count)
      ⟨(Program.towerTokens count).reverse, [], Token.endMark stop, #[]⟩ :=
    ⟨by simp, by simp, rfl, rfl⟩
  obtain ⟨expr, span, hstmt, hheight⟩ := Stmt.read_tower
    (show (Context.ofSettings ⟨count + 2, fold⟩ (Program.towerSource count).toList).grammar =
      .standard from rfl) hpasses
  rw [hparse, Program.readStatements_single hstmt (List.cons_ne_nil _ _) rfl]
  refine ⟨_, rfl, rfl, expr, ⟨_, List.mem_singleton_self _, ?_⟩, hheight⟩
  exact .direct (List.mem_singleton_self expr) (.self expr)

end ScriptLint
