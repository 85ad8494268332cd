import ScriptLint.Proofs.Alignment.Sentences
import ScriptLint.Proofs.Reasoning.Needs

/-!
# Statements with more tokens behind them

A statement that is read without an error is read in the same way when more tokens follow, even if
it takes all its tokens. What follows must not begin with a token that goes on with a finished
statement: a semicolon, which may stand behind a `do` loop, or the keyword of an alternate, a
handler or a closing part.
-/

namespace ScriptLint

/-- Whether the token may go on with a statement that could have ended. -/
def Token.prolongs (token : Token) : Bool :=
  token.isAny [";", "else", "elif", "catch", "finally"]

namespace Alignment

variable (A : Alignment) {α β : Type}

/-- The tokens that only the second reader has do not go on with a finished statement. -/
def Breaks : Prop :=
  ∀ token ∈ A.rest.head?, token.prolongs = false

/-- Whenever the first step succeeds without an error, so does the second one, with a corresponding
value and in a reading that is aligned again. -/
structure Carries (R : α → α → Prop) (first second : Read α) : Prop where
  of_ok : ∀ {reading other later : Reading} {value : α}, A.Aligned reading other →
    first reading = .ok value later → later.errors = reading.errors →
    ∃ value' later', second other = .ok value' later' ∧ R value value' ∧ A.Aligned later later'

variable {A} {reading other later : Reading} {R : α → α → Prop} {Q : β → β → Prop}
  {first second : Read α}

/-- A token that breaks is none of those that go on with a finished statement. -/
theorem Breaks.is_eq_false (h : A.Breaks) {token : Token} (htoken : token ∈ A.rest.head?)
    {text : String} (htext : text ∈ [";", "else", "elif", "catch", "finally"]) :
    token.is text = false := by
  have hnone := h token htoken
  rw [Token.prolongs, Token.isAny, List.any_eq_false] at hnone
  exact Bool.eq_false_iff.2 (hnone text htext)

/-- The two readers see the same of a token that breaks, even where the first one is at its end. -/
theorem Aligned.is_current (h : A.Aligned reading other) (hA : A.LawfulTokens) {text : String}
    (hbreaks : ∀ token ∈ A.rest.head?, token.is text = false) :
    reading.current.is text = other.current.is text := by
  by_cases hwithin : A.Within reading
  · exact hA.is_eq (h.current hwithin) text
  · have hahead : reading.ahead = [] := not_not.1 (not_or.1 hwithin).2
    obtain ⟨front, hfront, hother⟩ := h.ahead
    rw [hahead, List.forall₂_nil_left_iff] at hfront
    rw [hfront, List.nil_append] at hother
    rw [Read.is_eq_false_at_end h.marked hahead]
    cases hrest : A.rest with
    | nil => exact (Read.is_eq_false_at_end h.marked_other (hother.trans hrest) text).symm
    | cons token tokens =>
        have hcurrent : other.current = token := by simp [Reading.current, hother, hrest]
        rw [hcurrent, hbreaks token (by simp [hrest])]

namespace Carries

/-! ## Rules -/

/-- A value that is given outright. -/
theorem give {value value' : α} (h : R value value') : A.Carries R (pure value) (pure value') := by
  constructor
  intro reading other later given haligned hrun _
  cases hrun
  exact ⟨value', other, rfl, h, haligned⟩

/-- A look at the two readings that are aligned. -/
theorem look {view view' : Reading → α}
    (h : ∀ {reading other}, A.Aligned reading other → R (view reading) (view' other)) :
    A.Carries R (Read.look view) (Read.look view') := by
  constructor
  intro reading other later given haligned hrun _
  cases hrun
  exact ⟨view' other, other, rfl, h haligned, haligned⟩

/-- Recording an error is not a step without an error. -/
theorem record (report report' : ParseError) :
    A.Carries Eq (Read.record report) (Read.record report') := by
  constructor
  intro reading other later given haligned hrun hclean
  cases hrun
  have hsize := congrArg Array.size hclean
  simp at hsize

/-- One step behind another. If both together record no error, then neither does. -/
theorem bind {rest others : α → Read β} [hforward : Read.Forward first]
    [hrests : ∀ value, Read.Forward (rest value)] (hfirst : A.Carries R first second)
    (hrest : ∀ value value', R value value' → A.Carries Q (rest value) (others value')) :
    A.Carries Q (first >>= rest) (second >>= others) := by
  constructor
  intro reading other last result haligned hrun hclean
  obtain ⟨value, later, hstep, hnext⟩ := Read.bind_ok_iff.1 hrun
  obtain ⟨hmiddle, hlast⟩ := (hforward.moves.of_ok hstep).2.errors_eq
    ((hrests value).moves.of_ok hnext).2 hclean
  obtain ⟨value', later', hstep', hvalue, hlater⟩ := hfirst.of_ok haligned hstep hmiddle
  rw [Read.bind_of_ok hstep']
  exact (hrest value value' hvalue).of_ok hlater hnext hlast

/-- In front of steps that need a token, the first step has not come to the end. -/
theorem bind_of_needing {rest others : α → Read β} [hforward : Read.Forward first]
    [hrests : ∀ value, Read.Forward (rest value)] (hfirst : A.Sim R first second)
    (hneeds : ∀ value, Read.Needs (rest value))
    (hrest : ∀ value value', R value value' → A.Carries Q (rest value) (others value')) :
    A.Carries Q (first >>= rest) (second >>= others) := by
  constructor
  intro reading other last result haligned hrun hclean
  obtain ⟨value, later, hstep, hnext⟩ := Read.bind_ok_iff.1 hrun
  have hreaches := (hforward.moves.of_ok hstep).2
  obtain ⟨-, hlast⟩ := hreaches.errors_eq ((hrests value).moves.of_ok hnext).2 hclean
  have hahead : later.ahead ≠ [] := fun hnone =>
    (hneeds value).dirty (hreaches.marked haligned.marked) hnone hnext hlast
  obtain ⟨value', later', hstep', hvalue, hlater⟩ :=
    hfirst.of_ok haligned trivial hstep (.inr hahead)
  rw [Read.bind_of_ok hstep']
  exact (hrest value value' hvalue).of_ok hlater hnext hlast

/-- The same with what the rest needs found by instance. -/
theorem bind_of_needs {rest others : α → Read β} [Read.Forward first]
    [∀ value, Read.Forward (rest value)] [hneeds : ∀ value, Read.Needs (rest value)]
    (hfirst : A.Sim R first second)
    (hrest : ∀ value value', R value value' → A.Carries Q (rest value) (others value')) :
    A.Carries Q (first >>= rest) (second >>= others) :=
  bind_of_needing hfirst hneeds hrest

/-- A step that always fails carries over for want of a success. -/
theorem unexpected : A.Carries R Read.unexpected Read.unexpected where
  of_ok _ hrun := by cases hrun

/-- A value that is made from the one of a step. -/
theorem map {f g : α → β} [Read.Forward first] (h : A.Carries R first second)
    (hf : ∀ value value', R value value' → Q (f value) (g value')) :
    A.Carries Q (f <$> first) (g <$> second) := by
  rw [Read.map_eq_bind, Read.map_eq_bind]
  exact h.bind fun value value' hvalue => give (hf value value' hvalue)

/-- A success does not depend on whether an error would have been fatal. -/
theorem fatally (h : A.Carries R first second) :
    A.Carries R (Read.fatally first) (Read.fatally second) := by
  constructor
  intro reading other later value haligned hrun hclean
  obtain ⟨value', later', hrun', hlater⟩ := h.of_ok haligned (Read.fatally_ok_iff.1 hrun) hclean
  exact ⟨value', later', Read.fatally_ok_iff.2 hrun', hlater⟩

/-- A step that depends on the current token and needs one. -/
theorem current_bind {rest others : Token → Read β} [hneeds : Read.Needs (Read.current >>= rest)]
    (h : ∀ token other, A.token token other → A.Carries Q (rest token) (others other)) :
    A.Carries Q (Read.current >>= rest) (Read.current >>= others) := by
  constructor
  intro reading other later value haligned hrun hclean
  have hahead := Read.ahead_ne_nil_of_clean haligned.marked hrun hclean
  exact (h _ _ (haligned.current (.inr hahead))).of_ok haligned hrun hclean

section Lawful

variable (hA : A.Lawful)

include hA

/-- A text that must come now. -/
theorem expect (text : String) : A.Carries A.token (Read.expect text) (Read.expect text) := by
  constructor
  intro reading other later token haligned hrun _
  obtain ⟨hseen, rfl, rfl⟩ := Read.expect_ok_iff.1 hrun
  have hwithin : A.Within reading := .inr (Reading.ahead_ne_nil_of_is haligned.marked hseen)
  have htoken := haligned.current hwithin
  refine ⟨_, _, Read.expect_ok_iff.2 ⟨?_, rfl, rfl⟩, htoken, haligned.next hwithin⟩
  rwa [← hA.is_eq htoken]

/-- The span from a place up to the last token. -/
theorem spanFrom {span span' : Span} (h : A.span span span') :
    A.Carries A.span (Read.spanFrom span.start) (Read.spanFrom span'.start) :=
  look fun haligned => hA.upTo h haligned.ends

variable (hbreaks : A.Breaks)

include hbreaks

/-- A look for a text that may go on with a finished statement. The first reader may be at its end,
where the second one sees a token that breaks. -/
theorem sees {text : String} (htext : text ∈ [";", "else", "elif", "catch", "finally"]) :
    A.Carries Eq (Read.sees text) (Read.sees text) :=
  look fun haligned => haligned.is_current hA.toLawfulTokens
    fun _ htoken => hbreaks.is_eq_false htoken htext

/-- Taking such a text if it is there. -/
theorem accept {text : String} (htext : text ∈ [";", "else", "elif", "catch", "finally"]) :
    A.Carries Eq (Read.accept text) (Read.accept text) := by
  constructor
  intro reading other later seen haligned hrun _
  obtain ⟨hseen, hlater⟩ := Read.accept_ok_iff.1 hrun
  have hsame := haligned.is_current hA.toLawfulTokens
    fun _ htoken => hbreaks.is_eq_false htoken htext
  refine ⟨seen, if seen then other.next else other, ?_, rfl, ?_⟩
  · exact Read.accept_ok_iff.2 ⟨hseen.trans hsame, rfl⟩
  · cases seen with
    | false =>
        subst hlater
        exact haligned
    | true =>
        subst hlater
        exact haligned.next (.inr (Reading.ahead_ne_nil_of_is haligned.marked hseen.symm))

end Lawful

/-! ## Forms -/

section Forms

variable (hA : A.Lawful) (hbreaks : A.Breaks) {expr expr' : Read Expr} [Read.Forward expr]
  {stmt stmt' : Read (Option Stmt)} [Read.Progress stmt] [Read.Progress stmt']
  {elseIf elseIf' : Read Stmt} [Read.Forward elseIf]
  (hexpr : A.Sim A.expr expr expr') (hstmt : A.Sim (Option.Rel A.stmt) stmt stmt')
  (helseIf : A.Carries A.stmt elseIf elseIf')

section Blocks

include hA hstmt

/-- A block whose last brace carries over. -/
theorem readWith {brace : Read Token → Read Token} [∀ text, Read.Forward (brace (Read.expect text))]
    [∀ text, Read.Needs (brace (Read.expect text))]
    (hopen : ∀ text, A.Sim A.token (brace (Read.expect text)) (brace (Read.expect text)))
    (hclose : ∀ text, A.Carries A.token (brace (Read.expect text)) (brace (Read.expect text))) :
    A.Carries A.Block (Block.readWith brace stmt) (Block.readWith brace stmt') := by
  refine bind_of_needs (hopen "\x7b") fun opening opening' hopening => ?_
  refine bind_of_needs (.collect (.atClose hA "\x7d") (Read.halts_atClose _)
    (Read.halts_atClose _) hstmt) fun body body' hbody => ?_
  refine (hclose "\x7d").bind fun _ _ _ => ?_
  exact (spanFrom hA (hA.token_span hopening)).bind fun span span' hspan => give ⟨hbody, hspan⟩

/-- A block ends with its brace, whatever follows. -/
theorem blockRead (fatal : Bool) :
    A.Carries A.Block (Block.read fatal stmt) (Block.read fatal stmt') := by
  unfold Block.read
  cases fatal with
  | true =>
      rw [if_pos rfl]
      exact readWith hA hstmt (fun text => (SimAt.expect hA text).fatally)
        fun text => (expect hA text).fatally
  | false =>
      rw [if_neg Bool.false_ne_true]
      exact readWith hA hstmt (fun text => SimAt.expect hA text) fun text => expect hA text

/-- A block that stands as a statement ends with its brace. -/
theorem readBlock : A.Carries A.stmt (Stmt.readBlock stmt) (Stmt.readBlock stmt') :=
  (blockRead hA hstmt false).map fun _ _ hbody => hA.block hbody

/-- A function declaration ends with its block. -/
theorem readFunctionDecl :
    A.Carries A.stmt (Stmt.readFunctionDecl stmt) (Stmt.readFunctionDecl stmt') := by
  refine bind_of_needs .advance fun opening opening' hopening => ?_
  refine bind_of_needs (SimAt.readFunctionHeader hA).fatally fun header header' hheader => ?_
  refine (blockRead hA hstmt true).bind fun body body' hbody => ?_
  exact (spanFrom hA (hA.token_span hopening.1)).bind fun span span' hspan =>
    give (hA.functionDecl hheader.1 hheader.2 hbody hspan)

/-- A class declaration ends with its block. -/
theorem readClassDecl :
    A.Carries A.stmt (Stmt.readClassDecl stmt) (Stmt.readClassDecl stmt') := by
  refine bind_of_needs .advance fun opening opening' hopening => ?_
  refine bind_of_needs (SimAt.expectIdentifier hA _).fatally fun name name' hname => ?_
  refine (blockRead hA hstmt true).bind fun body body' hbody => ?_
  exact (spanFrom hA (hA.token_span hopening.1)).bind fun span span' hspan =>
    give (hA.classDecl ⟨name, name', hname, rfl, rfl⟩ hbody hspan)

end Blocks

section Expressions

include hA hexpr

/-- A condition ends with its parenthesis. -/
theorem readCondition :
    A.Carries A.expr (Stmt.readCondition expr) (Stmt.readCondition expr') := by
  refine bind_of_needs (.expect hA "(") fun _ _ _ => ?_
  refine bind_of_needs hexpr fun test test' htest => ?_
  exact (expect hA ")").bind fun _ _ _ => give htest

include hbreaks in
/-- Without its semicolon a declaration is not read without an error. -/
theorem readVarDecl (inMatch : Bool) : A.Carries A.stmt (Stmt.readVarDecl (A.here inMatch) expr)
    (Stmt.readVarDecl (A.there inMatch) expr') := by
  refine bind_of_needing (.varDeclRead hA hexpr) (fun decl => .accept_bind ?_)
    fun decl decl' hdecl => ?_
  · exact inferInstanceAs (Read.Needs (Read.record _ >>= _))
  obtain ⟨hname, hstatic, hty, hvalue, hspan⟩ := hdecl
  refine (accept hA hbreaks (by simp)).bind fun seen seen' hseen => ?_
  subst hseen
  cases seen with
  | true =>
      refine (spanFrom hA hspan).bind fun span span' hwhole => give ?_
      exact hA.varDecl ⟨hname, hstatic, hty, hvalue, hwhole⟩
  | false =>
      exact (record _ _).bind fun _ _ _ => give (hA.varDecl ⟨hname, hstatic, hty, hvalue, hspan⟩)

/-- A `return` statement ends with its semicolon. -/
theorem readReturn : A.Carries A.stmt (Stmt.readReturn expr) (Stmt.readReturn expr') := by
  refine bind_of_needs .advance fun opening opening' hopening => ?_
  refine bind_of_needs (.readResult hA hexpr) fun value value' hvalue => ?_
  refine (expect hA ";").bind fun _ _ _ => ?_
  exact (spanFrom hA (hA.token_span hopening.1)).bind fun span span' hspan =>
    give (hA.returnValue hvalue hspan)

/-- A `throw` statement ends with its semicolon. -/
theorem readThrow : A.Carries A.stmt (Stmt.readThrow expr) (Stmt.readThrow expr') := by
  refine bind_of_needs .advance fun opening opening' hopening => ?_
  refine bind_of_needs (.readResult hA hexpr) fun value value' hvalue => ?_
  refine (expect hA ";").bind fun _ _ _ => ?_
  exact (spanFrom hA (hA.token_span hopening.1)).bind fun span span' hspan =>
    give (hA.throwValue hvalue hspan)

/-- An expression statement ends with its semicolon. -/
theorem readExpression :
    A.Carries A.stmt (Stmt.readExpression expr) (Stmt.readExpression expr') := by
  refine current_bind fun token other htoken => ?_
  rw [← hA.kind htoken]
  split
  · refine bind_of_needs hexpr fun value value' hvalue => ?_
    refine (expect hA ";").bind fun _ _ _ => ?_
    exact (spanFrom hA (hA.token_span htoken)).bind fun span span' hspan =>
      give (hA.expression hvalue hspan)
  · exact unexpected

end Expressions

section Jumps

include hA

/-- A `break` statement ends with its semicolon. -/
theorem readBreak : A.Carries A.stmt Stmt.readBreak Stmt.readBreak := by
  refine bind_of_needs .advance fun opening opening' hopening => ?_
  refine (expect hA ";").bind fun _ _ _ => ?_
  exact (spanFrom hA (hA.token_span hopening.1)).bind fun span span' hspan =>
    give (hA.breakLoop hspan)

/-- A `continue` statement ends with its semicolon. -/
theorem readContinue : A.Carries A.stmt Stmt.readContinue Stmt.readContinue := by
  refine bind_of_needs .advance fun opening opening' hopening => ?_
  refine (expect hA ";").bind fun _ _ _ => ?_
  exact (spanFrom hA (hA.token_span hopening.1)).bind fun span span' hspan =>
    give (hA.continueLoop hspan)

end Jumps

section Alternates

include hA hbreaks hstmt helseIf

/-- A conditional without an alternate stays without one, since what follows does not begin with the
keyword of one. -/
theorem readAlternate [Read.Needs elseIf] :
    A.Carries (Option.Rel A.stmt) (Stmt.readAlternate stmt elseIf)
      (Stmt.readAlternate stmt' elseIf') := by
  have hother : A.Carries (Option.Rel A.stmt) (some <$> elseIf) (some <$> elseIf') :=
    helseIf.map fun _ _ halternate => .some halternate
  refine (accept hA hbreaks (by simp)).bind fun seen seen' hseen => ?_
  subst hseen
  cases seen with
  | true =>
      refine bind_of_needs (.sees hA "if") fun again again' hagain => ?_
      subst hagain
      cases again with
      | true => exact hother
      | false => exact (readBlock hA hstmt).map fun _ _ hblock => .some hblock
  | false =>
      refine (sees hA hbreaks (by simp)).bind fun again again' hagain => ?_
      subst hagain
      cases again with
      | true => exact hother
      | false => exact give .none

include hexpr in
/-- A conditional ends with its last block. -/
theorem readIfElse [Read.Needs elseIf] :
    A.Carries A.stmt (Stmt.readIfElse expr stmt elseIf) (Stmt.readIfElse expr' stmt' elseIf') := by
  refine bind_of_needs .advance fun opening opening' hopening => ?_
  refine bind_of_needs (.readCondition hA hexpr) fun test test' htest => ?_
  refine (blockRead hA hstmt false).bind fun consequent consequent' hconsequent => ?_
  refine (readAlternate hA hbreaks hstmt helseIf).bind fun alternate alternate' halternate => ?_
  exact (spanFrom hA (hA.token_span hopening.1)).bind fun span span' hspan =>
    give (hA.ifElse htest hconsequent halternate hspan)

end Alternates

section Loops

include hA hexpr hstmt

/-- A `while` loop ends with its block. -/
theorem readWhileLoop :
    A.Carries A.stmt (Stmt.readWhileLoop expr stmt) (Stmt.readWhileLoop expr' stmt') := by
  refine bind_of_needs .advance fun opening opening' hopening => ?_
  refine bind_of_needs (.readCondition hA hexpr) fun test test' htest => ?_
  refine (blockRead hA hstmt false).bind fun body body' hbody => ?_
  exact (spanFrom hA (hA.token_span hopening.1)).bind fun span span' hspan =>
    give (hA.whileLoop htest hbody hspan)

include hbreaks in
/-- A `do` loop without a semicolon stays without one. -/
theorem readDoWhile :
    A.Carries A.stmt (Stmt.readDoWhile expr stmt) (Stmt.readDoWhile expr' stmt') := by
  refine bind_of_needs .advance fun opening opening' hopening => ?_
  refine bind_of_needs (.blockRead hA hstmt false) fun body body' hbody => ?_
  refine bind_of_needs (.expect hA "while") fun _ _ _ => ?_
  refine (readCondition hA hexpr).bind fun test test' htest => ?_
  refine (accept hA hbreaks (by simp)).bind fun _ _ _ => ?_
  exact (spanFrom hA (hA.token_span hopening.1)).bind fun span span' hspan =>
    give (hA.doWhile hbody htest hspan)

/-- A `for` loop ends with its block. -/
theorem readForLoop :
    A.Carries A.stmt (Stmt.readForLoop expr stmt) (Stmt.readForLoop expr' stmt') := by
  refine bind_of_needs .advance fun opening opening' hopening => ?_
  refine bind_of_needs (SimAt.readForHeader hA hexpr).fatally fun header header' hheader => ?_
  obtain ⟨hinit, htest, hupdate⟩ := hheader
  refine (blockRead hA hstmt false).bind fun body body' hbody => ?_
  exact (spanFrom hA (hA.token_span hopening.1)).bind fun span span' hspan =>
    give (hA.forLoop hinit htest hupdate hbody hspan)

end Loops

section Handlers

include hA hbreaks hstmt

/-- A statement without a handler stays without one. -/
theorem readHandler :
    A.Carries (Option.Rel A.Handler) (Stmt.readHandler stmt) (Stmt.readHandler stmt') := by
  refine (sees hA hbreaks (by simp)).bind fun seen seen' hseen => ?_
  subst hseen
  cases seen with
  | false => exact give .none
  | true =>
      refine Carries.map (R := A.Handler) ?_ fun _ _ hhandler => .some hhandler
      refine bind_of_needs .advance fun opening opening' hopening => ?_
      refine bind_of_needs (.expect hA "(") fun _ _ _ => ?_
      refine bind_of_needs (.expectIdentifier hA _) fun parameter parameter' hparameter => ?_
      refine bind_of_needs (.expect hA ")") fun _ _ _ => ?_
      refine (blockRead hA hstmt false).bind fun body body' hbody => ?_
      exact (spanFrom hA (hA.token_span hopening.1)).bind fun span span' hspan =>
        give ⟨⟨parameter, parameter', hparameter, rfl, rfl⟩, hbody, hspan⟩

/-- A statement without a closing part stays without one. -/
theorem readFinalizer :
    A.Carries (Option.Rel A.Finalizer) (Stmt.readFinalizer stmt) (Stmt.readFinalizer stmt') := by
  refine (sees hA hbreaks (by simp)).bind fun seen seen' hseen => ?_
  subst hseen
  cases seen with
  | false => exact give .none
  | true =>
      refine Carries.map (R := A.Finalizer) ?_ fun _ _ hfinalizer => .some hfinalizer
      refine bind_of_needs .advance fun opening opening' hopening => ?_
      refine (blockRead hA hstmt false).bind fun body body' hbody => ?_
      exact (spanFrom hA (hA.token_span hopening.1)).bind fun span span' hspan =>
        give ⟨hbody, hspan⟩

/-- A `try` statement ends with the last of its blocks. -/
theorem readTry : A.Carries A.stmt (Stmt.readTry stmt) (Stmt.readTry stmt') := by
  refine bind_of_needs .advance fun opening opening' hopening => ?_
  refine (blockRead hA hstmt false).bind fun body body' hbody => ?_
  refine (readHandler hA hbreaks hstmt).bind fun handler handler' hhandler => ?_
  refine (readFinalizer hA hbreaks hstmt).bind fun finalizer finalizer' hfinalizer => ?_
  exact (spanFrom hA (hA.token_span hopening.1)).bind fun span span' hspan =>
    give (hA.tryCatch hbody hhandler hfinalizer hspan)

include hexpr in
/-- A `retry` statement ends with the last of its blocks. -/
theorem readRetry :
    A.Carries A.stmt (Stmt.readRetry expr stmt) (Stmt.readRetry expr' stmt') := by
  refine bind_of_needs .advance fun opening opening' hopening => ?_
  refine bind_of_needs (.readCondition hA hexpr) fun count count' hcount => ?_
  refine (blockRead hA hstmt false).bind fun body body' hbody => ?_
  refine (readHandler hA hbreaks hstmt).bind fun handler handler' hhandler => ?_
  exact (spanFrom hA (hA.token_span hopening.1)).bind fun span span' hspan =>
    give (hA.retry hcount hbody hhandler hspan)

end Handlers

include hA hexpr in
/-- A `match` statement ends with its brace. -/
theorem readMatch {arm arm' : Read (Option MatchArm)} [Read.Progress arm] [Read.Progress arm']
    (harm : A.Sim (Option.Rel A.Arm) arm arm') :
    A.Carries A.stmt (Stmt.readMatch expr arm) (Stmt.readMatch expr' arm') := by
  refine bind_of_needs .advance fun opening opening' hopening => ?_
  refine bind_of_needs (.readCondition hA hexpr) fun discriminant discriminant' hdiscriminant => ?_
  refine bind_of_needs (.expect hA "\x7b") fun _ _ _ => ?_
  refine bind_of_needs (.bounded (Read.steady_arms false) (Read.steady_arms false)
    (SimAt.collectArms hA harm false)) fun found found' hfound => ?_
  refine (expect hA "\x7d").bind fun _ _ _ => ?_
  exact (spanFrom hA (hA.token_span hopening.1)).bind fun span span' hspan =>
    give (hA.matchOn hdiscriminant hfound.1 hfound.2 hspan)

end Forms

/-- Every form of a statement. -/
theorem readForm (hA : A.Lawful) (hbreaks : A.Breaks) {inner inner' : Stmt.Inner}
    [Read.Forward inner.expr] [Read.Forward inner'.expr]
    [∀ context, Read.Progress (inner.stmt context)]
    [∀ context, Read.Progress (inner'.stmt context)] [Read.Forward inner.elseIf]
    [Read.Needs inner.elseIf] (hexpr : A.Sim A.expr inner.expr inner'.expr)
    (hstmt : ∀ inMatch, A.Sim A.stmt (inner.stmt (A.here inMatch)) (inner'.stmt (A.there inMatch)))
    (helseIf : A.Carries A.stmt inner.elseIf inner'.elseIf) (inMatch : Bool) (form : StmtForm) :
    A.Carries A.stmt (Stmt.readForm (A.here inMatch) inner form)
      (Stmt.readForm (A.there inMatch) inner' form) := by
  have hrecovered := SimAt.recovering hA inMatch (hstmt inMatch)
  cases form with
  | block => exact readBlock hA hrecovered
  | varDecl => exact readVarDecl hA hbreaks hexpr inMatch
  | ifElse => exact readIfElse hA hbreaks hexpr hrecovered helseIf
  | whileLoop => exact readWhileLoop hA hexpr hrecovered
  | doWhile => exact readDoWhile hA hbreaks hexpr hrecovered
  | forLoop => exact readForLoop hA hexpr hrecovered
  | functionDecl => exact readFunctionDecl hA hrecovered
  | classDecl => exact readClassDecl hA hrecovered
  | returnValue => exact readReturn hA hexpr
  | throwValue => exact readThrow hA hexpr
  | breakLoop => exact readBreak hA
  | continueLoop => exact readContinue hA
  | matchOn =>
      have harm := SimAt.readArm hA hexpr (SimAt.recovering hA true (hstmt true)) (hstmt true)
      exact readMatch hA hexpr (SimAt.recovering hA true harm)
  | tryCatch => exact readTry hA hbreaks hrecovered
  | retry => exact readRetry hA hbreaks hexpr hrecovered

/-- A statement that was recovered from has left an error behind. -/
theorem recovering [hforward : Read.Forward first] (context context' : Context)
    (h : A.Carries R first second) :
    A.Carries (Option.Rel R) (Read.recovering context first) (Read.recovering context' second) := by
  constructor
  intro reading other last found haligned hrun hclean
  rcases Read.recovering_ok_cases hrun with ⟨value, rfl, hstep⟩ | ⟨error, later, -, hstep, -, rfl⟩
  · obtain ⟨value', later', hstep', hvalue, hlater⟩ := h.of_ok haligned hstep hclean
    exact ⟨some value', later', Read.recovering_of_ok _ hstep', .some hvalue, hlater⟩
  · -- The error was recorded.
    obtain ⟨reports, hreports⟩ := (hforward.moves.of_error hstep).errors
    have hsize := congrArg Array.size hclean
    rw [Reading.resync_errors, Array.size_push, hreports, Array.size_append] at hsize
    omega

end Carries

/-! ## Statements -/

/-- A conditional behind an `else` is read in the same way when more tokens follow. -/
theorem Lawful.carries_elseIf (hA : A.Lawful) (hbreaks : A.Breaks) (levels : Nat) (inMatch : Bool) :
    A.Carries A.stmt (Stmt.readElseIf levels (A.here inMatch))
      (Stmt.readElseIf levels (A.there inMatch)) := by
  induction levels with
  | zero =>
      rw [Stmt.readElseIf, Stmt.readElseIf]
      exact ⟨fun _ hrun => by cases hrun⟩
  | succ levels ih =>
      rw [Stmt.readElseIf, Stmt.readElseIf]
      exact .readIfElse hA hbreaks (hA.sim_expr inMatch levels .default)
        (.recovering hA inMatch (hA.sim_stmt levels inMatch)) ih

/-- A statement without errors is read in the same way when more tokens follow. -/
theorem Lawful.carries_stmt (hA : A.Lawful) (hbreaks : A.Breaks) (levels : Nat) (inMatch : Bool) :
    A.Carries A.stmt (Stmt.read levels (A.here inMatch)) (Stmt.read levels (A.there inMatch)) := by
  cases levels with
  | zero =>
      rw [Stmt.read, Stmt.read]
      exact ⟨fun _ hrun => by cases hrun⟩
  | succ levels =>
      have hgrammar : (A.here inMatch).grammar = .standard := hA.grammar
      have hgrammar' : (A.there inMatch).grammar = .standard := hA.grammar_other
      have hneeds : Read.Needs (Stmt.read (levels + 1) (A.here inMatch)) :=
        Read.needs_stmt _ (hgrammar ▸ Grammar.standard_stopsAtMark)
      rw [Stmt.read] at hneeds ⊢
      rw [Stmt.read]
      refine @Carries.current_bind _ _ _ _ _ hneeds fun token other htoken => ?_
      rw [hgrammar, hgrammar']
      simp only [Grammar.standard, ← hA.statement?_eq htoken]
      have hexpr := hA.sim_expr inMatch levels .default
      cases Grammar.statementOf? token with
      | none => exact .readExpression hA hexpr
      | some form =>
          exact .readForm hA hbreaks hexpr (hA.sim_stmt levels)
            (hA.carries_elseIf hbreaks levels inMatch) inMatch form

/-- Statements without errors are read in the same way when more tokens follow, and the reading goes
on with those. -/
theorem Lawful.carries_statements (hA : A.Lawful) (hbreaks : A.Breaks) (levels : Nat)
    (inMatch : Bool) {stmts : List Stmt} (haligned : A.Aligned reading other)
    (hrun : Program.readStatements (A.here inMatch) levels reading = .ok stmts later)
    (hclean : later.errors = reading.errors) :
    ∃ stmts' other', List.Forall₂ A.stmt stmts stmts' ∧ later.ahead = [] ∧
      A.Aligned later other' ∧ other.Reaches other' ∧
      Program.readStatements (A.there inMatch) levels other =
        ((stmts' ++ ·) <$> Program.readStatements (A.there inMatch) levels) other' := by
  have hitem := Carries.recovering (A.here inMatch) (A.there inMatch)
    (hA.carries_stmt hbreaks levels inMatch)
  -- Each round reads a statement, so the induction is on the number of tokens ahead.
  induction hlength : reading.ahead.length using Nat.strongRecOn
    generalizing reading other stmts with
  | _ length ih =>
      obtain ⟨hstop, rfl, rfl⟩ | ⟨found, middle, rest, hstop, hfound, hrest, rfl⟩ :=
        Read.collect_ok_cases Read.halts_not_hasTokens haligned.marked hrun
      · have hahead : later.ahead = [] :=
          List.isEmpty_iff.1 (Read.not_hasTokens_ok_iff.1 hstop).1.symm
        refine ⟨[], other, .nil, hahead, haligned, .refl other, ?_⟩
        simp
      · have hempty := (Read.not_hasTokens_ok_iff.1 hstop).1
        have hahead : reading.ahead ≠ [] := by simpa using hempty.symm
        have hmiddle : reading.Reaches middle := (Read.Forward.moves.of_ok hfound).2
        have hlater : middle.Reaches later := (Read.Forward.moves.of_ok hrest).2
        obtain ⟨hclean, hclean'⟩ := hmiddle.errors_eq hlater hclean
        obtain ⟨found', other', hfound', hvalue, haligned'⟩ := hitem.of_ok haligned hfound hclean
        have hlt : middle.ahead.length < length := hlength ▸ Read.Progress.lt hahead hfound
        obtain ⟨stmts', last, hstmts, hend, hlast, hreaches, hrun'⟩ :=
          ih _ hlt haligned' hrest hclean' rfl
        have hstop' : (Bool.not <$> Read.hasTokens) other = .ok false other := by
          rw [Read.not_hasTokens_ok_iff, ← haligned.ahead_isEmpty (.inr hahead)]
          exact ⟨hempty, rfl⟩
        have hreaches' : other.Reaches other' := (Read.Forward.moves.of_ok hfound').2
        refine ⟨found'.toList ++ stmts', last, ?_, hend, hlast, hreaches'.trans hreaches, ?_⟩
        · cases hvalue with
          | none => exact hstmts
          | some hvalue => exact .cons hvalue hstmts
        · have hround : Program.readStatements (A.there inMatch) levels other =
              ((found'.toList ++ ·) <$> Program.readStatements (A.there inMatch) levels) other' :=
            Read.collect_of_item Read.halts_not_hasTokens haligned.marked_other hstop' hfound'
          rw [hround, Read.map_eq_bind, Read.map_eq_bind, Read.bind_apply, Read.bind_apply, hrun',
            Read.map_eq_bind, Read.bind_apply]
          cases Program.readStatements (A.there inMatch) levels last with
          | ok more reading => exact congrArg (EStateM.Result.ok · reading) (by simp)
          | error error reading => rfl

end Alignment

end ScriptLint
