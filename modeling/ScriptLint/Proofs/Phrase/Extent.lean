import Mathlib
import ScriptLint.Proofs.Phrase.Recognition
import ScriptLint.Proofs.Placement.Phrases

/-!
# The extent of an expression

An expression reaches from a token that was read for it to another one. These are the first and the
last of its tokens, but for parentheses around an operand: they leave no trace, so where the tokens
begin or end with them the expression begins behind and ends in front of them. `Phrase.Closers` says
which tokens at the end are such parentheses and not those of a call, and `Expr.read_extent` gives
the span of every expression that is read.
-/

namespace ScriptLint

namespace Phrase

variable {sourceText : Span → String} {level : Level} {tokens : List Token} {expr : Expr}

/-- A phrase has a token. -/
theorem ne_nil (h : Phrase sourceText level tokens expr) : tokens ≠ [] := by
  obtain ⟨first, rest, rfl, -⟩ := h.starts
  exact List.cons_ne_nil first rest

/-! ## The spans of phrases -/

section Spans

variable {left right inside : List Token} {between opening closing : Token} {first second : Span}

/-- The hull of two operands with an operator between them. -/
theorem hull_between (hfirst : first.Among left) (hsecond : second.Among right)
    (h : Token.InOrder (left ++ between :: right)) :
    first.hull second = ⟨first.start, second.stop⟩ :=
  hfirst.hull_eq (hsecond.mono (List.subset_cons_self between right)) h

/-- The hull of an operator and the operand behind it. -/
theorem hull_behind (hsecond : second.Among right) (h : Token.InOrder (opening :: right)) :
    opening.span.hull second = ⟨opening.span.start, second.stop⟩ := by
  have hparts : Token.InOrder ([opening] ++ right) := h
  exact Span.Among.hull_eq (.of_token hparts.of_append_left List.mem_cons_self) hsecond hparts

/-- The hull of an object and the name of its member. -/
theorem hull_member {object : Span} {point name : Token} (hobject : object.Among left)
    (h : Token.InOrder (left ++ [point, name])) :
    object.hull name.span = ⟨object.start, name.span.stop⟩ :=
  hobject.hull_eq (.of_token h.of_append_right (by simp)) h

/-- From an opening bracket to the closing one. -/
theorem upTo_brackets (h : Token.InOrder (opening :: (inside ++ [closing]))) :
    Span.upTo opening.span.start closing = ⟨opening.span.start, closing.span.stop⟩ := by
  have hparts : Token.InOrder ([opening] ++ (inside ++ [closing])) := h
  exact Span.Among.upTo_eq (.of_token hparts.of_append_left List.mem_cons_self) (by simp) hparts

/-- From a callee to the closing parenthesis. -/
theorem upTo_call (hfirst : first.Among left)
    (h : Token.InOrder (left ++ opening :: (inside ++ [closing]))) :
    Span.upTo first.start closing = ⟨first.start, closing.span.stop⟩ :=
  hfirst.upTo_eq (by simp) h

end Spans

/-! ## The start of a phrase -/

/-- Only parentheses have the lead form for them. -/
theorem is_paren_eq_false {token : Token} {form : LeadForm}
    (h : Grammar.leadOf? token = some form) (hform : form ≠ .grouping) :
    token.is "(" = false := by
  rw [Bool.eq_false_iff]
  intro hparen
  rw [Grammar.leadOf?_of_is hparen] at h
  exact hform (Option.some.inj h).symm

/-- Behind parentheses that are opened, the tokens begin at `start`. -/
def OpensAt (tokens : List Token) (start : Nat) : Prop :=
  ∃ opened first rest, tokens = opened ++ first :: rest ∧
    (∀ token ∈ opened, token.is "(" = true) ∧ first.is "(" = false ∧ first.span.start = start

/-- Tokens behind the front do not move the start. -/
theorem OpensAt.append {front : List Token} {start : Nat} (h : OpensAt front start)
    (more : List Token) : OpensAt (front ++ more) start := by
  obtain ⟨opened, first, rest, rfl, hfirst⟩ := h
  exact ⟨opened, first, rest ++ more, by simp, hfirst⟩

/-- A token that begins an expression and is no parenthesis is the start. -/
theorem OpensAt.of_lead {first : Token} {form : LeadForm} (h : Grammar.leadOf? first = some form)
    (hform : form ≠ .grouping) (rest : List Token) : OpensAt (first :: rest) first.span.start :=
  ⟨[], first, rest, rfl, List.forall_mem_nil _, is_paren_eq_false h hform, rfl⟩

/-- A phrase begins with the first of its tokens that is no parenthesis. -/
theorem begins (h : Phrase sourceText level tokens expr) (hordered : Token.InOrder tokens) :
    OpensAt tokens expr.span.start := by
  induction h with
  | tighter _ ih => exact ih hordered
  | @assignment left right equals target value htarget _ _ hvalue ih _ =>
      show OpensAt _ (target.span.hull value.span).start
      rw [hull_between (htarget.among hordered.of_append_left)
        (hvalue.among hordered.of_append_right.of_cons) hordered]
      exact (ih hordered.of_append_left).append _
  | operation hfirst _ hsecond ih _ =>
      rw [Level.span_join, hull_between (hfirst.among hordered.of_append_left)
        (hsecond.among hordered.of_append_right.of_cons) hordered]
      exact (ih hordered.of_append_left).append _
  | @unary operator operand argument hoperator hargument =>
      show OpensAt _ (operator.span.hull argument.span).start
      rw [hull_behind (hargument.among hordered.of_cons) hordered]
      exact .of_lead (Grammar.leadOf?_unary hoperator) (by decide) _
  | call _ _ _ _ _ ih => exact (ih hordered.of_append_left).append _
  | @member front point name object hobject _ _ ih =>
      show OpensAt _ (object.span.hull name.span).start
      rw [hull_member (hobject.among hordered.of_append_left) hordered]
      exact (ih hordered.of_append_left).append _
  | literal hliteral => exact .of_lead (Grammar.leadOf?_literal hliteral) (by decide) _
  | @identifier token hkind =>
      have hlead : Grammar.leadOf? token = some .primary := by rw [Grammar.leadOf?, hkind]
      exact .of_lead hlead (by decide) _
  | @grouping opening closing inside _ hopening _ _ ih =>
      obtain ⟨opened, first, rest, hinside, hopened, hfirst⟩ :=
        (ih hordered.of_cons.of_append_left).append [closing]
      exact ⟨opening :: opened, first, rest, congrArg (opening :: ·) hinside,
        List.forall_mem_cons.2 ⟨hopening, hopened⟩, hfirst⟩
  | array hopening => exact .of_lead (Grammar.leadOf?_of_is hopening) (by decide) _
  | object hopening => exact .of_lead (Grammar.leadOf?_of_is hopening) (by decide) _

/-! ## The end of a phrase -/

/-- The tokens make a phrase of a level with any operand behind them; a string will do. -/
def Awaits (sourceText : Span → String) (level : Level) (front : List Token) : Prop :=
  ∃ operand whole, Token.kind operand = .string ∧
    Phrase sourceText level (front ++ [operand]) whole

/-- An expression in parentheses stands where an operand is awaited. -/
structure Group (sourceText : Span → String) (front : List Token) (opening : Token)
    (inside : List Token) (closing : Token) : Prop where
  awaited : Awaits sourceText .assign front
  opens : opening.is "(" = true
  holds : ∃ content, Phrase sourceText .assign inside content
  closes : closing.is ")" = true

/-- The tokens at the end of a phrase that close groups, each of them the last operand of what is
inside the next one. -/
inductive Closers (sourceText : Span → String) : List Token → List Token → Prop where
  | none {tokens : List Token} :
      (∀ front opening inside closing, Group sourceText front opening inside closing →
        tokens ≠ front ++ opening :: (inside ++ [closing])) →
      Closers sourceText tokens []
  | group {front inside closers : List Token} {opening closing : Token} :
      Group sourceText front opening inside closing → Closers sourceText inside closers →
      Closers sourceText (front ++ opening :: (inside ++ [closing])) (closers ++ [closing])

namespace Awaits

variable {front : List Token}

/-- What waits for an operand of a tight level waits for an expression. -/
theorem loosen (h : Awaits sourceText level front) : Awaits sourceText .assign front := by
  obtain ⟨operand, whole, hkind, hphrase⟩ := h
  exact ⟨operand, whole, hkind, hphrase.loosen (Nat.zero_le _)⟩

/-- At the start an operand is awaited. -/
theorem start : Awaits sourceText .primary [] :=
  ⟨⟨.string, "", ⟨0, 0⟩⟩, _, rfl, .literal rfl⟩

/-- An operand is awaited where it is inside what makes a phrase of the front. -/
theorem behind {inner : Level} {more : List Token}
    (hphrase : ∀ {tokens expr}, Phrase sourceText inner tokens expr →
      ∃ whole, Phrase sourceText level (more ++ tokens) whole)
    (h : Awaits sourceText inner front) : Awaits sourceText level (more ++ front) := by
  obtain ⟨operand, part, hkind, hpart⟩ := h
  obtain ⟨whole, hwhole⟩ := hphrase hpart
  exact ⟨operand, whole, hkind, by rwa [List.append_assoc]⟩

end Awaits

/-- Whatever tokens end in, there are those that close groups. -/
theorem exists_closers (sourceText : Span → String) (tokens : List Token) :
    ∃ closers, Closers sourceText tokens closers := by
  by_cases h : ∃ front opening inside closing, Group sourceText front opening inside closing ∧
      tokens = front ++ opening :: (inside ++ [closing])
  · obtain ⟨front, opening, inside, closing, hgroup, htokens⟩ := h
    have hshorter : inside.length < tokens.length := by
      rw [htokens, List.length_append, List.length_cons, List.length_append]
      omega
    obtain ⟨closers, hclosers⟩ := exists_closers sourceText inside
    exact ⟨closers ++ [closing], htokens ▸ .group hgroup hclosers⟩
  · refine ⟨[], .none fun front opening inside closing hgroup htokens => h ?_⟩
    exact ⟨front, opening, inside, closing, hgroup, htokens⟩
termination_by tokens.length

/-- The tokens end with one that stops at `stop`, or with a group whose content does. -/
inductive EndsAt (sourceText : Span → String) (level : Level) : List Token → Nat → Prop where
  | own (kept : List Token) (last : Token) : EndsAt sourceText level (kept ++ [last]) last.span.stop
  | group {front inside : List Token} {opening closing : Token} {content : Expr} :
      Awaits sourceText level front → opening.is "(" = true →
      Phrase sourceText .assign inside content → closing.is ")" = true →
      EndsAt sourceText level (front ++ opening :: (inside ++ [closing])) content.span.stop

/-- A phrase that ends with an operand ends where the operand does. -/
theorem EndsAt.behind {inner : Level} {more : List Token} {stop : Nat}
    (hphrase : ∀ {tokens expr}, Phrase sourceText inner tokens expr →
      ∃ whole, Phrase sourceText level (more ++ tokens) whole)
    (h : EndsAt sourceText inner tokens stop) : EndsAt sourceText level (more ++ tokens) stop := by
  cases h with
  | own kept last =>
      rw [← List.append_assoc]
      exact .own (more ++ kept) last
  | group hawaits hopening hcontent hclosing =>
      rw [← List.append_assoc]
      exact .group (hawaits.behind hphrase) hopening hcontent hclosing

/-- A phrase ends with its last token, or with what is in a group at its end. -/
theorem ends (h : Phrase sourceText level tokens expr) (hordered : Token.InOrder tokens) :
    EndsAt sourceText level tokens expr.span.stop := by
  induction h with
  | @tighter level tokens expr _ ih =>
      have hbehind : EndsAt sourceText level ([] ++ tokens) expr.span.stop :=
        (ih hordered).behind fun hphrase => ⟨_, .tighter hphrase⟩
      exact hbehind
  | @assignment left right equals target value htarget hassignable hequals hvalue _ ih =>
      show EndsAt _ _ _ (target.span.hull value.span).stop
      rw [hull_between (htarget.among hordered.of_append_left)
        (hvalue.among hordered.of_append_right.of_cons) hordered]
      rw [← List.singleton_append, ← List.append_assoc]
      refine (ih hordered.of_append_right.of_cons).behind fun hphrase => ?_
      rw [List.append_assoc]
      exact ⟨_, .assignment htarget hassignable hequals hphrase⟩
  | operation hfirst hoperator hsecond _ ih =>
      rw [Level.span_join, hull_between (hfirst.among hordered.of_append_left)
        (hsecond.among hordered.of_append_right.of_cons) hordered]
      rw [← List.singleton_append, ← List.append_assoc]
      refine (ih hordered.of_append_right.of_cons).behind fun hphrase => ?_
      rw [List.append_assoc]
      exact ⟨_, .operation hfirst hoperator hphrase⟩
  | @unary operator operand argument hoperator hargument ih =>
      show EndsAt _ _ _ (operator.span.hull argument.span).stop
      rw [hull_behind (hargument.among hordered.of_cons) hordered, ← List.singleton_append]
      exact (ih hordered.of_cons).behind fun hphrase => ⟨_, .unary hoperator hphrase⟩
  | @call front inside opening closing callee _ hcallee =>
      show EndsAt _ _ _ (Span.upTo callee.span.start closing).stop
      rw [upTo_call (hcallee.among hordered.of_append_left) hordered, ← List.cons_append,
        ← List.append_assoc]
      exact .own _ closing
  | @member front point name object hobject =>
      show EndsAt _ _ _ (object.span.hull name.span).stop
      rw [hull_member (hobject.among hordered.of_append_left) hordered]
      have hsplit : front ++ [point, name] = (front ++ [point]) ++ [name] := by simp
      rw [hsplit]
      exact .own _ name
  | @literal token => exact .own [] token
  | @identifier token => exact .own [] token
  | @grouping opening closing inside content hopening hcontent hclosing =>
      have hgroup : EndsAt sourceText .primary ([] ++ opening :: (inside ++ [closing]))
          content.span.stop := .group .start hopening hcontent hclosing
      exact hgroup
  | @array opening closing inside =>
      show EndsAt _ _ _ (Span.upTo opening.span.start closing).stop
      rw [upTo_brackets hordered]
      exact .own (opening :: inside) closing
  | @object opening closing inside =>
      show EndsAt _ _ _ (Span.upTo opening.span.start closing).stop
      rw [upTo_brackets hordered]
      exact .own (opening :: inside) closing

/-! ## Groups at the end -/

/-- A string is never taken for what it spells. -/
theorem is_eq_false_of_string {token : Token} (h : token.kind = .string) (text : String) :
    token.is text = false := by
  simp [Token.is, Token.isSpelled, h]

/-- The last of the tokens is on the right, if there are any. -/
theorem last_on_right {front left right : List Token} {operand between : Token}
    (hright : right ≠ []) (h : front ++ [operand] = left ++ between :: right) :
    ∃ rest, right = rest ++ [operand] ∧ front = left ++ between :: rest := by
  obtain ⟨rest, last, rfl⟩ := (List.eq_nil_or_concat right).resolve_left hright
  rw [List.concat_eq_append] at h ⊢
  have hsplit : front ++ [operand] = (left ++ between :: rest) ++ [last] := by simpa using h
  obtain ⟨hfront, hlast⟩ := List.append_inj' hsplit rfl
  exact ⟨rest, by rw [hlast], hfront⟩

/-- A string that is the last operand of a phrase may be replaced by a group, and then the phrase
ends with what is in the group. -/
theorem replace {front inside : List Token} {operand opening closing : Token}
    {whole content : Expr} (h : Phrase sourceText level (front ++ [operand]) whole)
    (hkind : operand.kind = .string) (hopening : opening.is "(" = true)
    (hcontent : Phrase sourceText .assign inside content) (hclosing : closing.is ")" = true)
    (hordered : Token.InOrder (front ++ opening :: (inside ++ [closing]))) :
    ∃ result, Phrase sourceText level (front ++ opening :: (inside ++ [closing])) result ∧
      result.span.stop = content.span.stop := by
  -- A phrase that ends with a bracket does not end with the operand.
  have hbracket : ∀ {front before : List Token} {last : Token} {text : String},
      last.is text = true → front ++ [operand] ≠ before ++ [last] := by
    intro front before last text hlast heq
    obtain rfl : operand = last := List.singleton_inj.1 (List.append_inj' heq rfl).2
    rw [is_eq_false_of_string hkind] at hlast
    cases hlast
  generalize htokens : front ++ [operand] = tokens at h
  induction h generalizing front with
  | tighter _ ih =>
      obtain ⟨result, hresult, hstop⟩ := ih hordered htokens
      exact ⟨result, .tighter hresult, hstop⟩
  | @assignment left right equals target value htarget hassignable hequals hvalue _ ih =>
      obtain ⟨rest, rfl, rfl⟩ := last_on_right hvalue.ne_nil htokens
      rw [List.append_assoc, List.cons_append] at hordered ⊢
      obtain ⟨result, hresult, hstop⟩ := ih hordered.of_append_right.of_cons rfl
      refine ⟨_, .assignment htarget hassignable hequals hresult, ?_⟩
      show (target.span.hull result.span).stop = _
      rw [hull_between (htarget.among hordered.of_append_left)
        (hresult.among hordered.of_append_right.of_cons) hordered]
      exact hstop
  | @operation level left right operator first second hfirst hoperator hsecond _ ih =>
      obtain ⟨rest, rfl, rfl⟩ := last_on_right hsecond.ne_nil htokens
      rw [List.append_assoc, List.cons_append] at hordered ⊢
      obtain ⟨result, hresult, hstop⟩ := ih hordered.of_append_right.of_cons rfl
      refine ⟨_, .operation hfirst hoperator hresult, ?_⟩
      rw [Level.span_join, hull_between (hfirst.among hordered.of_append_left)
        (hresult.among hordered.of_append_right.of_cons) hordered]
      exact hstop
  | @unary operator operands argument hoperator hargument ih =>
      have hsplit : front ++ [operand] = [] ++ operator :: operands := htokens
      obtain ⟨rest, rfl, rfl⟩ := last_on_right hargument.ne_nil hsplit
      rw [List.nil_append, List.cons_append] at hordered ⊢
      obtain ⟨result, hresult, hstop⟩ := ih hordered.of_cons rfl
      refine ⟨_, .unary hoperator hresult, ?_⟩
      show (operator.span.hull result.span).stop = _
      rw [hull_behind (hresult.among hordered.of_cons) hordered]
      exact hstop
  | call _ _ _ _ hparen =>
      rw [← List.cons_append, ← List.append_assoc] at htokens
      exact absurd htokens (hbracket hparen)
  | @member before point name _ _ _ hname =>
      have hsplit : front ++ [operand] = (before ++ [point]) ++ [name] := by simpa using htokens
      obtain rfl : operand = name := List.singleton_inj.1 (List.append_inj' hsplit rfl).2
      simp [hkind] at hname
  | @literal token value =>
      have hsplit : front ++ [operand] = [] ++ [token] := htokens
      obtain ⟨rfl, -⟩ := List.append_inj' hsplit rfl
      exact ⟨content, .grouping hopening hcontent hclosing, rfl⟩
  | @identifier token hidentifier =>
      have hsplit : front ++ [operand] = [] ++ [token] := htokens
      obtain rfl : operand = token := List.singleton_inj.1 (List.append_inj' hsplit rfl).2
      rw [hkind] at hidentifier
      cases hidentifier
  | grouping _ _ hparen =>
      rw [← List.cons_append] at htokens
      exact absurd htokens (hbracket hparen)
  | array _ _ _ hparen =>
      rw [← List.cons_append] at htokens
      exact absurd htokens (hbracket hparen)
  | object _ _ _ hparen =>
      rw [← List.cons_append] at htokens
      exact absurd htokens (hbracket hparen)

/-- A phrase ends with the token in front of those that close groups at its end. -/
theorem stop_of_closers {context : Context} {closers : List Token}
    (hclosers : Closers context.sourceText tokens closers)
    (h : Phrase context.sourceText level tokens expr) (hordered : Token.InOrder tokens) :
    ∃ kept last, tokens = kept ++ last :: closers ∧ last.span.stop = expr.span.stop := by
  induction hclosers generalizing level expr with
  | none hnone =>
      have hends := h.ends hordered
      generalize expr.span.stop = stop at hends ⊢
      cases hends with
      | own kept last => exact ⟨kept, last, rfl, rfl⟩
      | group hawaits hopening hcontent hclosing =>
          exact absurd rfl (hnone _ _ _ _ ⟨hawaits.loosen, hopening, ⟨_, hcontent⟩, hclosing⟩)
  | @group front inside closers opening closing hgroup _ ih =>
      obtain ⟨content, hcontent⟩ := hgroup.holds
      obtain ⟨operand, whole, hkind, hwhole⟩ := hgroup.awaited
      obtain ⟨result, hresult, hstop⟩ :=
        hwhole.replace hkind hgroup.opens hcontent hgroup.closes hordered
      obtain rfl : expr = result := Phrase.unique context h hresult
      obtain ⟨kept, last, rfl, hlast⟩ :=
        ih hcontent hordered.of_append_right.of_cons.of_append_left
      exact ⟨front ++ opening :: kept, last, by simp, hlast.trans hstop.symm⟩

/-! ## The tokens of a phrase and its extent -/

/-- The tokens of a phrase, apart from the parentheses of groups that it begins or ends with. -/
structure Core (sourceText : Span → String) (tokens opened core closed : List Token) : Prop where
  tokens_eq : tokens = opened ++ (core ++ closed)
  nonempty : core ≠ []
  opens : ∀ token ∈ opened, token.is "(" = true
  begins : ∀ first ∈ core.head?, first.is "(" = false
  closes : Closers sourceText tokens closed

/-- A phrase reaches from the first to the last of its tokens without the parentheses that it begins
or ends with. -/
theorem exists_core {context : Context} (h : Phrase context.sourceText level tokens expr)
    (hordered : Token.InOrder tokens) :
    ∃ opened core closed, Core context.sourceText tokens opened core closed ∧
      expr.span = Span.ofTokens core := by
  obtain ⟨opened, first, rest, hbegin, hopened, hfirst, hstart⟩ := h.begins hordered
  obtain ⟨closed, hclosed⟩ := exists_closers context.sourceText tokens
  obtain ⟨kept, last, hend, hstop⟩ := stop_of_closers hclosed h hordered
  -- The phrase is not empty, so its last token is not among the parentheses in front.
  have hlast : last ∉ opened := by
    intro hmem
    have hle := (hbegin ▸ hordered).le hmem List.mem_cons_self
    have hlong := (h.among hordered).nonempty
    omega
  have hsplit : opened ++ first :: rest = (kept ++ [last]) ++ closed := by
    rw [← hbegin, hend, List.append_assoc, List.singleton_append]
  rcases List.append_eq_append_iff.1 hsplit with ⟨core, hkept, hrest⟩ | ⟨more, hmore, -⟩
  · have hnonempty : core ≠ [] := by
      rintro rfl
      rw [List.append_nil] at hkept
      exact hlast (hkept ▸ List.mem_append_right kept List.mem_cons_self)
    have hcore : Token.InOrder core := by
      rw [hbegin, hrest] at hordered
      exact hordered.of_append_right.of_append_left
    have hhead : core.head? = some first := by
      have hheads := congrArg List.head? hrest
      rw [List.head?_cons, List.head?_append_of_ne_nil _ hnonempty] at hheads
      exact hheads.symm
    have hlasts : core.getLast? = some last := by
      have hends := congrArg List.getLast? hkept
      rw [List.getLast?_concat, List.getLast?_append_of_ne_nil _ hnonempty] at hends
      exact hends.symm
    refine ⟨opened, core, closed, ⟨?_, hnonempty, hopened, ?_, hclosed⟩, ?_⟩
    · rw [hbegin, hrest]
    · rw [hhead]
      rintro _ ⟨⟩
      exact hfirst
    · rw [hcore.ofTokens_eq hhead hlasts, hstart, hstop]
  · exact absurd (by simp [hmore]) hlast

/-- It reaches from the first to the last of all its tokens if there are no such parentheses. -/
theorem Core.span_eq_iff {opened core closed : List Token}
    (h : Core sourceText tokens opened core closed) (hordered : Token.InOrder tokens) :
    Span.ofTokens core = Span.ofTokens tokens ↔ opened = [] ∧ closed = [] := by
  obtain ⟨hsplit, hnonempty, -, -, -⟩ := h
  subst hsplit
  constructor
  · intro hspan
    have hcore := hordered.of_append_right.of_append_left
    obtain ⟨first, last, hhead, hlast⟩ := Token.exists_ends hnonempty
    obtain ⟨front, back, hfront, hback⟩ :=
      Token.exists_ends (List.append_ne_nil_of_right_ne_nil opened
        (List.append_ne_nil_of_left_ne_nil hnonempty closed))
    rw [hcore.ofTokens_eq hhead hlast, hordered.ofTokens_eq hfront hback] at hspan
    obtain ⟨hstart, hstop⟩ := Span.mk.inj hspan
    constructor
    · cases opened with
      | nil => rfl
      | cons token others =>
          obtain rfl : token = front := Option.some.inj hfront
          have hle := hordered.le (List.mem_cons_self (a := token))
            (List.mem_append_left closed (List.mem_of_mem_head? hhead))
          have hlong := hordered.nonempty token List.mem_cons_self
          omega
    · rcases List.eq_nil_or_concat closed with hnone | ⟨others, token, hconcat⟩
      · exact hnone
      · rw [List.concat_eq_append] at hconcat
        subst hconcat
        obtain rfl : token = back := by simpa using hback
        have hmem : token ∈ others ++ [token] := List.mem_append_right _ List.mem_cons_self
        have hle := hordered.of_append_right.le (List.mem_of_mem_getLast? hlast) hmem
        have hlong := hordered.of_append_right.of_append_right.nonempty token hmem
        omega
  · rintro ⟨rfl, rfl⟩
    rw [List.nil_append, List.append_nil]

end Phrase

/-! ## Expressions that are read -/

/-- The tokens of a source that a reading passes are in order. -/
theorem Reading.inOrder_of_passes {settings : Settings} {source : String}
    {tokens passed : List Token} {cursor : Nat} {errors : Array ParseError} {later : Reading}
    (h : Token.tokenize settings source = .ok tokens)
    (hpasses : (Reading.ofCursor tokens cursor errors).Passes passed later) :
    Token.InOrder passed := by
  obtain ⟨body, mark, -, hbody, hreading⟩ := Reading.ofTokens_tokenize h
  have hahead : body.drop cursor = passed ++ later.ahead := by
    rw [← hpasses.ahead, Reading.ofCursor, hreading]
  obtain ⟨-, hinorder⟩ := Token.tokenize_places h
  rw [hbody] at hinorder
  have hrest := hinorder.sublist (List.drop_sublist cursor body)
  rw [hahead] at hrest
  exact hrest.of_append_left

namespace Expr

open Reading Read

variable {context : Context}

/-- A chain of operators makes a phrase of its left operand, whatever the power. -/
theorem readChain_phrase (hgrammar : context.grammar = .standard) (levels : Nat) (power : Power)
    {left : Expr} {front : List Token} {level : Level}
    (hleft : Phrase context.sourceText level front left) {reading : Reading}
    (hmark : reading.Marked) (hends : reading.current.Ends level) {expr : Expr} {later : Reading}
    (h : readChain context levels power left reading = .ok expr later) :
    ∃ tokens result, reading.Passes tokens later ∧
      Phrase context.sourceText result (front ++ tokens) expr := by
  rw [readChain.eq_def, bind_of_ok (by rfl)] at h
  cases htail : tighterTail? context power reading.current with
  | none =>
      simp only [htail] at h
      obtain ⟨rfl, rfl⟩ := pure_ok_iff.1 h
      exact ⟨[], level, .refl _, by rwa [List.append_nil]⟩
  | some entry =>
      obtain ⟨next, form⟩ := entry
      obtain ⟨hform, -⟩ := (tighterTail?_eq_some_iff hgrammar).1 htail
      simp only [htail] at h
      cases levels with
      | zero => cases h
      | succ levels =>
          obtain ⟨joined, middle, hjoined, h⟩ := bind_ok_iff.1 h
          obtain ⟨tokens, result, hpasses, hphrase, hafter, -⟩ :=
            readTail_sound hgrammar (read_sound hgrammar levels) hleft hmark hform
              (hends next form hform) hjoined
          obtain ⟨others, final, hothers, hchain⟩ :=
            readChain_phrase hgrammar levels power hphrase (hpasses.marked hmark) hafter h
          exact ⟨tokens ++ others, final, hpasses.trans hothers, List.append_assoc .. ▸ hchain⟩

/-- What is read is a phrase of some level, whatever the power. -/
theorem read_phrase (hgrammar : context.grammar = .standard) {levels : Nat} {power : Power}
    {reading later : Reading} {expr : Expr} (hmark : reading.Marked)
    (h : read context levels power reading = .ok expr later) :
    ∃ tokens level, reading.Passes tokens later ∧
      Phrase context.sourceText level tokens expr := by
  cases levels with
  | zero => cases h
  | succ levels =>
      rw [read, bind_of_ok (by rfl), hgrammar] at h
      cases hform : Grammar.leadOf? reading.current with
      | none => simp [Grammar.standard, hform, unexpected, failWith] at h
      | some form =>
          simp only [Grammar.standard, hform] at h
          obtain ⟨left, middle, hleft, h⟩ := bind_ok_iff.1 h
          obtain ⟨front, level, hfront, hphrase, -, hends⟩ :=
            readLead_sound hgrammar (read_sound hgrammar levels) hmark hform hleft
          obtain ⟨tokens, result, hpasses, hchain⟩ :=
            readChain_phrase hgrammar levels power hphrase (hfront.marked hmark) hends h
          exact ⟨front ++ tokens, result, hfront.trans hpasses, hchain⟩

/-- The span of an expression that is read at any place of a source, and with any power. It reaches
over the tokens that were read for it, without the parentheses of groups that they begin or end
with, and over all of them just if there are no such parentheses. -/
theorem read_extent (settings : Settings) (source : String) (tokens : List Token)
    (htokens : Token.tokenize settings source = .ok tokens) (context : Context)
    (hgrammar : context.grammar = .standard) (levels : Nat) (power : Power) (cursor : Nat)
    (errors : Array ParseError) (expr : Expr) (later : Reading)
    (h : read context levels power (Reading.ofCursor tokens cursor errors) = .ok expr later) :
    ∃ stop, cursor < stop ∧ stop < tokens.length ∧ later = Reading.ofCursor tokens stop errors ∧
      ∃ opened core closed,
        Phrase.Core context.sourceText (tokens.extract cursor stop) opened core closed ∧
        expr.span = Span.ofTokens core ∧
        (expr.span = Span.ofTokens (tokens.extract cursor stop) ↔ opened = [] ∧ closed = []) := by
  obtain ⟨passed, level, hpasses, hphrase⟩ :=
    read_phrase hgrammar (Reading.ofCursor_marked htokens) h
  obtain ⟨stop, hlt, hstop, rfl, rfl⟩ := Reading.ofCursor_passes htokens hphrase.ne_nil hpasses
  have hordered := Reading.inOrder_of_passes htokens hpasses
  obtain ⟨opened, core, closed, hcore, hspan⟩ := hphrase.exists_core hordered
  refine ⟨stop, hlt, hstop, rfl, opened, core, closed, hcore, hspan, ?_⟩
  rw [hspan]
  exact hcore.span_eq_iff hordered

/-- With the power of calls, `-(f(a))` is read and ends in front of the last parenthesis. -/
theorem read_extent_call :
    let tokens : List Token := [⟨.symbol, "-", ⟨0, 1⟩⟩, ⟨.symbol, "(", ⟨1, 2⟩⟩,
      ⟨.identifier, "f", ⟨2, 3⟩⟩, ⟨.symbol, "(", ⟨3, 4⟩⟩, ⟨.identifier, "a", ⟨4, 5⟩⟩,
      ⟨.symbol, ")", ⟨5, 6⟩⟩, ⟨.symbol, ")", ⟨6, 7⟩⟩, ⟨.symbol, ";", ⟨7, 8⟩⟩, Token.endMark 8]
    let context := Context.ofSettings {} "-(f(a));".toList
    let expr : Expr := .unary "-"
      (.call (.identifier "f" ⟨2, 3⟩) [.identifier "a" ⟨4, 5⟩] ⟨2, 6⟩) ⟨0, 6⟩
    Token.tokenize {} "-(f(a));" = .ok tokens ∧
      read context 6 .call (Reading.ofCursor tokens 0 #[]) =
        .ok expr (Reading.ofCursor tokens 7 #[]) ∧
      ∃ stop, 0 < stop ∧ stop < tokens.length ∧
        Reading.ofCursor tokens 7 #[] = Reading.ofCursor tokens stop #[] ∧
        ∃ opened core closed,
          Phrase.Core context.sourceText (tokens.extract 0 stop) opened core closed ∧
          expr.span = Span.ofTokens core ∧
          (expr.span = Span.ofTokens (tokens.extract 0 stop) ↔ opened = [] ∧ closed = []) := by
  intro tokens context expr
  have htokens : Token.tokenize {} "-(f(a));" = .ok tokens := by cbv
  have hread : read context 6 .call (Reading.ofCursor tokens 0 #[]) =
      .ok expr (Reading.ofCursor tokens 7 #[]) := by cbv
  exact ⟨htokens, hread,
    read_extent {} "-(f(a));" tokens htokens context rfl 6 .call 0 #[] expr _ hread⟩

/-- Five tokens are read for the expression in `x=(a);`, and it ends with the fourth. -/
theorem read_drops_parenthesis :
    let tokens : List Token := [⟨.identifier, "x", ⟨0, 1⟩⟩, ⟨.symbol, "=", ⟨1, 2⟩⟩,
      ⟨.symbol, "(", ⟨2, 3⟩⟩, ⟨.identifier, "a", ⟨3, 4⟩⟩, ⟨.symbol, ")", ⟨4, 5⟩⟩,
      ⟨.symbol, ";", ⟨5, 6⟩⟩, Token.endMark 6]
    let context := Context.ofSettings {} "x=(a);".toList
    let expr : Expr :=
      .assignment (.identifier "x" ⟨0, 1⟩) (.identifier "a" ⟨3, 4⟩) ⟨0, 4⟩
    Token.tokenize {} "x=(a);" = .ok tokens ∧
      read context 4 .default (Reading.ofCursor tokens 0 #[]) =
        .ok expr (Reading.ofCursor tokens 5 #[]) ∧
      Span.ofTokens (tokens.extract 0 5) = ⟨0, 5⟩ ∧
      expr.span ≠ Span.ofTokens (tokens.extract 0 5) := by
  intro tokens context expr
  exact ⟨by cbv, by cbv, rfl, by decide⟩

end Expr

end ScriptLint
