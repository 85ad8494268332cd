import ScriptLint.Proofs.Phrase.Grammar
import ScriptLint.Proofs.Token.Places
import ScriptLint.Proofs.Tree.Nodes

/-!
# Spans over tokens

The tokens of a phrase are in order, so the spans of its parts are in the order of their tokens. A
span is among tokens if it begins where one of them begins and ends where one ends. Spans among
tokens on the left and on the right make a span among all of them.
-/

namespace ScriptLint

/-! ## Tokens in order -/

namespace Token

variable {tokens left right : List Token}

/-- Some of the tokens are in order if all are. -/
theorem InOrder.sublist {part : List Token} (h : InOrder tokens) (hsub : part.Sublist tokens) :
    InOrder part :=
  ⟨fun token htoken => h.nonempty token (hsub.subset htoken), h.ordered.sublist hsub⟩

/-- The tokens on the left are in order. -/
theorem InOrder.of_append_left (h : InOrder (left ++ right)) : InOrder left :=
  h.sublist (List.sublist_append_left left right)

/-- The tokens on the right are in order. -/
theorem InOrder.of_append_right (h : InOrder (left ++ right)) : InOrder right :=
  h.sublist (List.sublist_append_right left right)

/-- The tokens behind the first one are in order. -/
theorem InOrder.of_cons {token : Token} (h : InOrder (token :: right)) : InOrder right :=
  h.sublist (List.sublist_cons_self token right)

/-- A token on the left ends before one on the right begins. -/
theorem InOrder.le (h : InOrder (left ++ right)) {first second : Token} (hfirst : first ∈ left)
    (hsecond : second ∈ right) : first.span.stop ≤ second.span.start :=
  (List.pairwise_append.1 h.ordered).2.2 first hfirst second hsecond

/-- Tokens have a first and a last one, if there are any. -/
theorem exists_ends (h : tokens ≠ []) :
    ∃ first last, tokens.head? = some first ∧ tokens.getLast? = some last :=
  ⟨tokens.head h, tokens.getLast h, List.head?_eq_some_head h, List.getLast?_eq_some_getLast h⟩

/-- No token begins before the first one. -/
theorem InOrder.first_le (h : InOrder tokens) {first token : Token}
    (hfirst : tokens.head? = some first) (hmem : token ∈ tokens) :
    first.span.start ≤ token.span.start := by
  obtain ⟨rest, rfl⟩ := List.head?_eq_some_iff.1 hfirst
  rcases List.mem_cons.1 hmem with rfl | hrest
  · exact Nat.le_refl _
  · have hparts : InOrder ([first] ++ rest) := h
    have hle := hparts.le List.mem_cons_self hrest
    have hlong := h.nonempty first List.mem_cons_self
    omega

/-- No token ends behind the last one. -/
theorem InOrder.le_last (h : InOrder tokens) {last token : Token}
    (hlast : tokens.getLast? = some last) (hmem : token ∈ tokens) :
    token.span.stop ≤ last.span.stop := by
  obtain ⟨front, rfl⟩ := List.getLast?_eq_some_iff.1 hlast
  rcases List.mem_append.1 hmem with hfront | hend
  · have hle := h.le hfront List.mem_cons_self
    have hlong := h.nonempty last (List.mem_append_right _ List.mem_cons_self)
    omega
  · exact Nat.le_of_eq (by rw [List.mem_singleton.1 hend])

/-- Tokens in order reach from the start of the first to the stop of the last. -/
theorem InOrder.ofTokens_eq (h : InOrder tokens) {first last : Token}
    (hfirst : tokens.head? = some first) (hlast : tokens.getLast? = some last) :
    Span.ofTokens tokens = ⟨first.span.start, last.span.stop⟩ := by
  have hmem := List.mem_of_mem_head? hfirst
  have hle : first.span.start ≤ last.span.stop :=
    Nat.le_trans (Nat.le_of_lt (h.nonempty first hmem)) (h.le_last hlast hmem)
  obtain ⟨rest, rfl⟩ := List.head?_eq_some_iff.1 hfirst
  have hend : rest.getLastD first = last := by
    rw [List.getLast?_cons] at hlast
    simpa using hlast
  rw [Span.ofTokens, hend, Span.upTo, Nat.max_eq_left hle]

end Token

/-! ## Spans among tokens -/

/-- The span is not empty, begins where a token begins and ends where one ends. -/
structure Span.Among (tokens : List Token) (span : Span) : Prop where
  nonempty : span.start < span.stop
  starts : ∃ token ∈ tokens, token.span.start = span.start
  stops : ∃ token ∈ tokens, token.span.stop = span.stop

namespace Span.Among

variable {tokens left right : List Token} {span first second : Span}

/-- A span among some of the tokens is among all of them. -/
theorem mono (h : span.Among tokens) (hsub : tokens ⊆ left) : span.Among left := by
  obtain ⟨opening, hopening, hstart⟩ := h.starts
  obtain ⟨closing, hclosing, hstop⟩ := h.stops
  exact ⟨h.nonempty, ⟨opening, hsub hopening, hstart⟩, ⟨closing, hsub hclosing, hstop⟩⟩

/-- The span of a token is among the tokens. -/
theorem of_token {token : Token} (h : Token.InOrder tokens) (hmem : token ∈ tokens) :
    token.span.Among tokens :=
  ⟨h.nonempty token hmem, ⟨token, hmem, rfl⟩, ⟨token, hmem, rfl⟩⟩

/-- The span of all tokens is among them. -/
theorem ofTokens (h : Token.InOrder tokens) (hne : tokens ≠ []) :
    (Span.ofTokens tokens).Among tokens := by
  obtain ⟨first, last, hfirst, hlast⟩ := Token.exists_ends hne
  have hopening := List.mem_of_mem_head? hfirst
  have hclosing := List.mem_of_mem_getLast? hlast
  rw [h.ofTokens_eq hfirst hlast]
  refine ⟨?_, ⟨first, hopening, rfl⟩, ⟨last, hclosing, rfl⟩⟩
  exact Nat.lt_of_lt_of_le (h.nonempty first hopening) (h.le_last hlast hopening)

/-- A span among tokens is within the span of all of them. -/
theorem within (hspan : span.Among tokens) (h : Token.InOrder tokens) :
    (Span.ofTokens tokens).start ≤ span.start ∧ span.stop ≤ (Span.ofTokens tokens).stop := by
  obtain ⟨opening, hopening, hstart⟩ := hspan.starts
  obtain ⟨closing, hclosing, hstop⟩ := hspan.stops
  obtain ⟨first, last, hfirst, hlast⟩ := Token.exists_ends (List.ne_nil_of_mem hopening)
  rw [h.ofTokens_eq hfirst hlast, ← hstart, ← hstop]
  exact ⟨h.first_le hfirst hopening, h.le_last hlast hclosing⟩

/-- Spans over tokens on the left and on the right are in the same order. -/
theorem le (hfirst : first.Among left) (hsecond : second.Among right)
    (h : Token.InOrder (left ++ right)) : first.stop ≤ second.start := by
  obtain ⟨last, hlast, hstop⟩ := hfirst.stops
  obtain ⟨next, hnext, hstart⟩ := hsecond.starts
  rw [← hstop, ← hstart]
  exact h.le hlast hnext

/-- The hull of spans over tokens on the left and on the right goes from one to the other. -/
theorem hull_eq (hfirst : first.Among left) (hsecond : second.Among right)
    (h : Token.InOrder (left ++ right)) : first.hull second = ⟨first.start, second.stop⟩ := by
  have hle := hfirst.le hsecond h
  have hlong := hfirst.nonempty
  have hnonempty := hsecond.nonempty
  rw [Span.hull, Nat.min_eq_left (by omega), Nat.max_eq_right (by omega)]

/-- A span that is drawn up to a token further on ends with it. -/
theorem upTo_eq (hfirst : first.Among left) {closing : Token} (hclosing : closing ∈ right)
    (h : Token.InOrder (left ++ right)) :
    Span.upTo first.start closing = ⟨first.start, closing.span.stop⟩ := by
  have hlast : closing.span.Among right := .of_token h.of_append_right hclosing
  have hle := hfirst.le hlast h
  have hlong := hfirst.nonempty
  have hnonempty := hlast.nonempty
  rw [Span.upTo, Nat.max_eq_left (by omega)]

end Span.Among

/-! ## Operations -/

namespace Level

/-- An operation reaches over both of its operands. -/
theorem span_join (level : Level) (operator : String) (left right : Expr) :
    (level.join operator left right).span = left.span.hull right.span := by
  cases level <;> rfl

/-- The operands are the nodes inside an operation. -/
theorem join_nodes (level : Level) (operator : String) (left right : Expr) :
    (level.join operator left right).nodes = [.expr left, .expr right] := by
  cases level <;> rfl

end Level

end ScriptLint
