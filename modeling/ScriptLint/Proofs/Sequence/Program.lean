import Mathlib
import ScriptLint.Proofs.Alignment.Embedding
import ScriptLint.Proofs.Alignment.Extension
import ScriptLint.Proofs.Nesting.Threshold

/-!
# Sources one behind the other

A source that is read without errors leaves nothing behind for the one in the next line: the two of
them are read into the statements of the first and those of the second, moved to their place. The
main theorem is `Program.parse_append_line`.
-/

namespace ScriptLint.Program

/-- What reading a source gives when it stands `amount` bytes behind the start of a longer one, in
front of which `statements` were read and `errors` recorded. -/
def behind (statements : List Stmt) (errors : List ParseError) (amount : Nat) :
    Except Error Parsed → Except Error Parsed
  | .ok parsed =>
      .ok ⟨⟨statements ++ parsed.program.statements.map (·.shift amount),
        ⟨0, amount + parsed.program.span.stop⟩⟩, errors ++ parsed.errors.map (·.shift amount)⟩
  | .error error => .error (error.shift amount)

variable {settings : Settings} {source more : String} {body : List Token}

/-- The outcome of a source is that of the reading of its tokens. -/
theorem parse_of_tokens {stop : Nat}
    (htokens : Token.tokenize settings source = .ok (body ++ [Token.endMark stop])) :
    parse settings source = outcome source.toList
      (readStatements (.ofSettings settings source.toList) settings.maxDepth
        ⟨[], body, Token.endMark stop, #[]⟩) := by
  obtain ⟨others, last, hothers, -, hparse⟩ := exists_parse_eq htokens
  obtain ⟨rfl, hmark⟩ := List.append_inj' hothers rfl
  rw [hparse, ← List.singleton_inj.1 hmark]

/-- Where the tokens of a source are ahead, reading them gives what the source gives, behind what
was read before. -/
theorem outcome_behind {front : List Char} {other : Reading} (statements : List Stmt)
    (htokens : Token.tokenize settings more =
      .ok (body ++ [Token.endMark (Text.byteLength more.toList)]))
    (hfits : ∀ token ∈ body, token.span.Fits more.toList)
    (hahead : other.ahead = body.map (·.shift (Text.byteLength front)))
    (hmark : other.mark =
      (Token.endMark (Text.byteLength more.toList)).shift (Text.byteLength front))
    (hbehind : ∀ token ∈ other.behind.head?, token.span.stop ≤ Text.byteLength front) :
    outcome (front ++ more.toList)
        (((statements ++ ·) <$>
          readStatements (.ofSettings settings (front ++ more.toList)) settings.maxDepth) other) =
      behind statements other.errors.toList (Text.byteLength front) (parse settings more) := by
  let E : Embedding :=
    { settings, front, text := more.toList, back := [], before := other.behind, after := none,
      earlier := other.errors.toList, back_feed := rfl, before_le := hbehind }
  have hwhole : front ++ more.toList = E.front ++ (E.text ++ E.back) := by simp [E]
  have haligned : E.alignment.Aligned
      ⟨[], body, Token.endMark (Text.byteLength more.toList), #[]⟩ other := by
    refine Embedding.aligned_start hfits rfl ?_ rfl rfl ?_ fun _ => ⟨hmark, ?_⟩
    · rw [hahead, show E.alignment.rest = [] from rfl, List.append_nil]
      rfl
    · rw [Reading.Marked, hmark]
      rfl
    · exact ⟨Nat.le_refl _, Nat.le_refl _⟩
  rw [parse_of_tokens htokens, hwhole, Read.map_eq_bind, Read.bind_apply]
  cases hrun : readStatements (.ofSettings settings more.toList) settings.maxDepth
      ⟨[], body, Token.endMark (Text.byteLength more.toList), #[]⟩ with
  | ok stmts later =>
      obtain ⟨later', hrun', herrors⟩ := Embedding.readStatements_ok rfl _ haligned hrun
      rw [hrun']
      show Except.ok (⟨⟨_, ⟨0, Text.byteLength _⟩⟩, later'.errors.toList⟩ : Parsed) = _
      rw [herrors, ← hwhole, Text.byteLength_append]
      rfl
  | error error later =>
      obtain ⟨later', hrun'⟩ := Embedding.readStatements_error rfl _ haligned hrun
      rw [hrun']
      rfl

/-! ## Two lines -/

/-- A source that stands in front of another one in the next line, whose tokens are `rest`. -/
def firstLine (settings : Settings) (source more : String) (rest : List Token) : Embedding where
  settings := settings
  front := []
  text := source.toList
  back := '\n' :: more.toList
  before := []
  after := some rest
  earlier := []
  back_feed := rfl
  before_le := by simp

/-- The text of a source with a line feed behind it. -/
def line (source : String) : List Char :=
  source.toList ++ ['\n']

/-- The line of a source is one byte longer than the source. -/
theorem byteLength_line (source : String) :
    Text.byteLength (line source) = Text.byteLength source.toList + 1 :=
  Text.byteLength_append _ _

/-- The reading of two sources in two lines. -/
def joined (source more : String) (body others : List Token) : Reading :=
  ⟨[], body ++ others.map (·.shift (Text.byteLength (line source))),
    (Token.endMark (Text.byteLength more.toList)).shift (Text.byteLength (line source)), #[]⟩

/-- The outcome of two sources is that of the reading of their tokens one behind the other. -/
theorem parse_lines {others : List Token}
    (hjoined : Token.tokenize settings (source ++ "\n" ++ more) = .ok (body ++
      (others ++ [Token.endMark (Text.byteLength more.toList)]).map
        (·.shift (Text.byteLength source.toList + 1)))) :
    parse settings (source ++ "\n" ++ more) = outcome (line source ++ more.toList)
      (readStatements (.ofSettings settings (line source ++ more.toList)) settings.maxDepth
        (joined source more body others)) := by
  have hwhole : (source ++ "\n" ++ more).toList = line source ++ more.toList := by simp [line]
  rw [← byteLength_line, List.map_append, ← List.append_assoc] at hjoined
  rw [parse_of_tokens hjoined, hwhole]
  rfl

/-- The reading of the first source alone is aligned with that of both at their start. -/
theorem aligned_lines {others : List Token}
    (hfits : ∀ token ∈ body, token.span.Fits source.toList) :
    (firstLine settings source more
      (others.map (·.shift (Text.byteLength (line source))))).alignment.Aligned
      ⟨[], body, Token.endMark (Text.byteLength source.toList), #[]⟩
      (joined source more body others) := by
  refine Embedding.aligned_start hfits rfl ?_ rfl rfl rfl (fun hafter => by cases hafter)
  have hshift : (fun token : Token => token.shift 0) = id := rfl
  show body ++ _ = body.map (fun token => token.shift 0) ++ _
  rw [hshift, List.map_id]
  rfl

/-- In the first line the two readers see the same tokens and record the same errors. -/
theorem eq_of_aligned_lines {rest : List Token} {reading other : Reading}
    (h : (firstLine settings source more rest).alignment.Aligned reading other) :
    other = ⟨reading.behind, reading.ahead ++ rest, other.mark, reading.errors⟩ := by
  let E := firstLine settings source more rest
  have htokens : ∀ {tokens tokens' : List Token},
      List.Forall₂ E.alignment.token tokens tokens' → tokens' = tokens := by
    intro tokens tokens' hsame
    exact (eq_map_of_forall₂ (fun _ _ htoken => htoken.1) hsame).trans (List.map_id tokens)
  obtain ⟨front, hfront, hahead⟩ := h.ahead
  obtain ⟨passed, hpassed, hbehind⟩ := h.behind
  obtain ⟨reports, hreports, herrors⟩ := h.errors
  have hsame : reports = reading.errors.toList :=
    (eq_map_of_forall₂ (fun report report' hreport => E.report_eq hreport) hreports).trans
      (List.map_id _)
  rw [htokens hfront] at hahead
  rw [htokens hpassed, show E.alignment.before = [] from rfl, List.append_nil] at hbehind
  rw [hsame] at herrors
  cases other
  cases hahead
  cases hbehind
  cases Array.toList_inj.1 herrors
  rfl

/-- What was read of the first line ends before the second one begins. -/
theorem stop_le_of_aligned {rest : List Token} {reading other : Reading}
    (h : (firstLine settings source more rest).alignment.Aligned reading other) :
    ∀ token ∈ other.behind.head?, token.span.stop ≤ Text.byteLength (line source) := by
  intro token htoken
  obtain ⟨front, hfront, hbehind⟩ := h.behind
  rw [hbehind, show (firstLine settings source more rest).alignment.before = [] from rfl,
    List.append_nil] at htoken
  generalize reading.behind = passed at hfront
  cases hfront with
  | nil => cases htoken
  | cons hlast _ =>
      cases htoken
      rw [hlast.1, byteLength_line]
      exact Nat.le_succ_of_le hlast.2.2

/-- Reading the two lines comes to the second one, with the statements and the errors of the first.
-/
def ComesToNext (settings : Settings) (source more : String) (body others : List Token)
    (statements : List Stmt) (errors : List ParseError) : Prop :=
  ∃ other : Reading,
    readStatements (.ofSettings settings (line source ++ more.toList)) settings.maxDepth
        (joined source more body others) =
      ((statements ++ ·) <$> readStatements (.ofSettings settings (line source ++ more.toList))
        settings.maxDepth) other ∧
    other.ahead = others.map (·.shift (Text.byteLength (line source))) ∧
    other.mark = (joined source more body others).mark ∧ other.errors.toList = errors ∧
    ∀ token ∈ other.behind.head?, token.span.stop ≤ Text.byteLength (line source)

/-- From where the second line begins it is read as if it stood alone. -/
theorem parse_lines_eq_behind {statements : List Stmt} {errors : List ParseError}
    (htokens : Token.tokenize settings source =
      .ok (body ++ [Token.endMark (Text.byteLength source.toList)]))
    (hcomment : Token.endsInComment settings.foldNegative source.toList = false)
    (hcomes : ∀ others, Token.tokenize settings more =
        .ok (others ++ [Token.endMark (Text.byteLength more.toList)]) →
      ComesToNext settings source more body others statements errors) :
    parse settings (source ++ "\n" ++ more) =
      behind statements errors (Text.byteLength source.toList + 1) (parse settings more) := by
  have hjoined := Token.tokenize_line_feed htokens hcomment more
  cases hmore : Token.tokenize settings more with
  | error error =>
      rw [hmore] at hjoined
      rw [parse_of_error hmore, parse_of_error hjoined]
      rfl
  | ok tokens =>
      obtain ⟨others, rfl, hothers⟩ := Token.tokenize_mark hmore
      rw [hmore] at hjoined
      obtain ⟨other, hlines, hahead, hmark, rfl, hbehind⟩ := hcomes others hmore
      rw [parse_lines hjoined, hlines, outcome_behind statements hmore
        (fun token htoken => (hothers token htoken).2) hahead hmark hbehind, byteLength_line]

/-- When the statements of the first line are read, the tokens of the second one are ahead. -/
theorem readStatements_lines {others : List Token} {stmts : List Stmt}
    {later : Reading} (hfits : ∀ token ∈ body, token.span.Fits source.toList)
    (hnext : ∀ token ∈ others.head?, token.prolongs = false)
    (hrun : readStatements (.ofSettings settings source.toList) settings.maxDepth
      ⟨[], body, Token.endMark (Text.byteLength source.toList), #[]⟩ = .ok stmts later)
    (hclean : later.errors = #[]) :
    ComesToNext settings source more body others stmts [] := by
  let E := firstLine settings source more (others.map (·.shift (Text.byteLength (line source))))
  have hbreaks : E.alignment.Breaks := by
    intro token htoken
    obtain ⟨original, horiginal, rfl⟩ := Option.mem_map.1 (List.head?_map ▸ htoken)
    exact hnext original horiginal
  obtain ⟨stmts', other, hstmts, hend, haligned, hreaches, hjoined⟩ :=
    E.lawful.carries_statements hbreaks settings.maxDepth false (aligned_lines hfits) hrun hclean
  have hsame : stmts' = stmts := by
    rw [eq_map_of_forall₂ (fun _ _ hstmt => hstmt) hstmts]
    exact (List.map_congr_left fun stmt _ => Stmt.mapSpan_eq_self Span.shift_zero stmt).trans
      (List.map_id stmts)
  refine ⟨other, ?_, ?_, hreaches.mark, ?_, stop_le_of_aligned haligned⟩
  · have hwhole : line source ++ more.toList = source.toList ++ '\n' :: more.toList := by
      simp [line]
    rw [hwhole, ← hsame]
    exact hjoined
  · rw [eq_of_aligned_lines haligned, hend]
    rfl
  · rw [eq_of_aligned_lines haligned, hclean]

/-- A source that is read without errors, and does not end inside a comment, can be followed by any
other one in the next line that does not begin with a token which goes on with a statement. -/
theorem parse_append_line {first : Parsed} (hfirst : parse settings source = .ok first)
    (herrors : first.errors = [])
    (hcomment : Token.endsInComment settings.foldNegative source.toList = false)
    (hnext : ∀ tokens, Token.tokenize settings more = .ok tokens →
      ∀ token ∈ tokens.head?, token.prolongs = false) :
    parse settings (source ++ "\n" ++ more) =
      behind first.program.statements [] (Text.byteLength source.toList + 1)
        (parse settings more) := by
  cases htokens : Token.tokenize settings source with
  | error error =>
      rw [parse_of_error htokens] at hfirst
      cases hfirst
  | ok tokens =>
      obtain ⟨body, rfl, hbody⟩ := Token.tokenize_mark htokens
      rw [parse_of_tokens htokens] at hfirst
      cases hrun : readStatements (.ofSettings settings source.toList) settings.maxDepth
          ⟨[], body, Token.endMark (Text.byteLength source.toList), #[]⟩ with
      | error error later =>
          rw [hrun] at hfirst
          cases hfirst
      | ok stmts later =>
          rw [hrun] at hfirst
          cases hfirst
          refine parse_lines_eq_behind htokens hcomment fun others hmore => ?_
          refine readStatements_lines (fun token htoken => (hbody token htoken).2) ?_ hrun
            (Array.toList_inj.1 herrors)
          intro token htoken
          refine hnext _ hmore token ?_
          rw [List.head?_append, htoken]
          rfl

/-- A loop that a semicolon could go on with, and a statement in the next line that lacks one. -/
theorem parse_append_line_do_while :
    let loop : Stmt := .doWhile ⟨[], ⟨2, 4⟩⟩ (.identifier "a" ⟨10, 11⟩) ⟨0, 12⟩
    parse ⟨5, true⟩ "do\x7b\x7dwhile(a)" = .ok ⟨⟨[loop], ⟨0, 12⟩⟩, []⟩ ∧
      Token.endsInComment true "do\x7b\x7dwhile(a)".toList = false ∧
      Token.tokenize ⟨5, true⟩ "y" = .ok [⟨.identifier, "y", ⟨0, 1⟩⟩, Token.endMark 1] ∧
      parse ⟨5, true⟩ ("do\x7b\x7dwhile(a)" ++ "\n" ++ "y") =
        behind [loop] [] 13 (parse ⟨5, true⟩ "y") := by
  intro loop
  have hparse : parse ⟨5, true⟩ "do\x7b\x7dwhile(a)" = .ok ⟨⟨[loop], ⟨0, 12⟩⟩, []⟩ := by cbv
  have hcomment : Token.endsInComment true "do\x7b\x7dwhile(a)".toList = false := by cbv
  have hmore : Token.tokenize ⟨5, true⟩ "y" =
      .ok [⟨.identifier, "y", ⟨0, 1⟩⟩, Token.endMark 1] := by cbv
  refine ⟨hparse, hcomment, hmore, parse_append_line hparse rfl hcomment ?_⟩
  intro tokens htokens token htoken
  rw [hmore] at htokens
  cases htokens
  cases htoken
  decide

end ScriptLint.Program
