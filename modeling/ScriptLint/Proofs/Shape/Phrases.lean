import ScriptLint.Proofs.Phrase.Spans
import ScriptLint.Proofs.Token.Tiling

/-!
# The shape of trees

What may be relied on in every tree that is read: which operators, names, targets, types and clauses
can stand where, and which parts of the source are repeated in it. `Node.Shaped` says so of a node
by itself and `Node.WellShaped` of a node with all nodes inside it. An expression that is derived
from tokens of the source is well shaped.
-/

namespace ScriptLint

/-- A word that is no keyword. -/
def IsName (text : String) : Prop :=
  Lexeme.IsWord text.toList ∧ text ∉ Token.keywords

/-- The text stands in the source at the span. -/
def Span.Covers (span : Span) (source : List Char) (text : String) : Prop :=
  Text.slice? source span.start span.stop = some text.toList

/-- The types that can be written in front of a variable. -/
def Ty.annotations : List Ty :=
  [.int, .float, .string, .bool, .array, .object, .any]

/-- The expressions that a value can be assigned to. -/
inductive Expr.IsTarget : Expr → Prop where
  | identifier (name : String) (span : Span) : IsTarget (.identifier name span)
  | member (owner : Expr) (property : Name) (span : Span) : IsTarget (.member owner property span)

/-- The statements that may stand behind `else`. -/
inductive Stmt.IsAlternate : Stmt → Prop where
  | ifElse (test : Expr) (consequent : Block Stmt) (alternate : Option Stmt) (span : Span) :
      IsAlternate (.ifElse test consequent alternate span)
  | block (content : Block Stmt) : IsAlternate (.block content)

/-- The statements that may stand first in the header of a `for` loop. -/
inductive Stmt.IsInit : Stmt → Prop where
  | varDecl (decl : VarDecl) : IsInit (.varDecl decl)
  | expression (value : Expr) (span : Span) : IsInit (.expression value span)

/-- What may be relied on in an expression, apart from the nodes inside it. -/
def Expr.Shaped (source : List Char) : Expr → Prop
  | .literal value raw span => span.Covers source raw ∧ ∀ text, value = .string text →
      ∃ quote, Lexeme.isQuote quote = true ∧ raw.toList = quote :: (text.toList ++ [quote])
  | .identifier name span => IsName name ∧ span.Covers source name
  | .binary operator _ _ _ =>
      operator ∈ ["==", "!=", "<", "<=", ">", ">=", "+", "-", "*", "/", "%"]
  | .logical operator _ _ _ => operator ∈ ["and", "or"]
  | .unary operator _ _ => operator ∈ ["not", "!", "-"]
  | .assignment assignee _ _ => assignee.IsTarget
  | .call _ _ _ | .member _ _ _ | .array _ _ | .object _ _ => True

/-- What may be relied on in a statement, apart from the nodes inside it. -/
def Stmt.Shaped : Stmt → Prop
  | .varDecl decl => IsName decl.name ∧ ∀ ty ∈ decl.declaredType, ty ∈ Ty.annotations
  | .ifElse _ _ alternate _ => ∀ stmt ∈ alternate, stmt.IsAlternate
  | .forLoop init _ _ _ _ => ∀ stmt ∈ init, stmt.IsInit
  | .functionDecl name parameters _ _ => IsName name ∧ ∀ parameter ∈ parameters, IsName parameter
  | .classDecl name _ _ => IsName name
  | _ => True

namespace Node

/-- What may be relied on in a node, apart from the nodes inside it. -/
def Shaped (source : List Char) : Node → Prop
  | .stmt content => content.Shaped
  | .expr content => content.Shaped source
  | .handler content => IsName content.parameter
  | .name content => Lexeme.IsWord content.text.toList ∧ content.span.Covers source content.text
  | .block _ | .finalizer _ | .arm _ | .property _ => True

/-- The node has its shape, and so have all nodes inside it. -/
def WellShaped (source : List Char) (node : Node) : Prop :=
  ∀ part, node.HasPart part → part.Shaped source

variable {source : List Char} {node child : Node}

/-- A well-shaped node has the shape of its kind. -/
theorem WellShaped.shaped (h : node.WellShaped source) : node.Shaped source :=
  h node (.self node)

/-- The nodes inside a well-shaped node are well shaped. -/
theorem WellShaped.inside (h : node.WellShaped source) (hchild : child ∈ node.children) :
    child.WellShaped source :=
  fun part hpart => h part (.child hchild hpart)

/-- A node with the shape of its kind is well shaped if the nodes inside it are. -/
theorem Shaped.wellShaped (h : node.Shaped source)
    (hchildren : ∀ child ∈ node.children, child.WellShaped source) : node.WellShaped source := by
  intro part hpart
  cases hpart with
  | self => exact h
  | child hchild hpart => exact hchildren _ hchild part hpart

end Node

/-! ## Tokens -/

namespace Token

variable {fold : Bool} {back text source : List Char} {kind : TokenKind} {value : String}
  {token : Token}

/-- A string is written as its value between two quotes of one kind. -/
theorem Written.quoted (h : Written fold back .string value text) :
    ∃ quote, Lexeme.isQuote quote = true ∧ text = quote :: (value.toList ++ [quote]) := by
  cases h with
  | @string quote inner hquote _ => exact ⟨quote, hquote, by rw [String.toList_ofList]⟩

/-- Names and keywords are words. -/
theorem Written.isWord (h : Written fold back kind value text)
    (hkind : kind = .identifier ∨ kind = .keyword) : Lexeme.IsWord text := by
  cases h with
  | identifier hlongest _ => exact hlongest.1
  | keyword hlongest _ => exact hlongest.1
  | _ => simp at hkind

/-- A name is not a keyword. -/
theorem Written.not_mem_keywords (h : Written fold back .identifier value text) :
    value ∉ keywords := by
  cases h with
  | identifier _ hmem => exact hmem

/-- A name or a keyword is a word that stands in the source. -/
theorem StandsIn.isWord (h : token.StandsIn fold source)
    (hkind : token.kind = .identifier ∨ token.kind = .keyword) :
    Lexeme.IsWord token.value.toList ∧ token.span.Covers source token.value := by
  obtain ⟨text, back, hslice, hwritten⟩ := h.slice?
  have htext : text = token.value.toList := by
    refine hwritten.text_eq ?_ ?_ <;> rcases hkind with hkind | hkind <;> simp [hkind]
  subst htext
  exact ⟨hwritten.isWord hkind, hslice⟩

/-- A name in the source is spelled as one. -/
theorem StandsIn.isName (h : token.StandsIn fold source) (hkind : token.kind = .identifier) :
    IsName token.value := by
  obtain ⟨text, back, -, hwritten⟩ := h.slice?
  rw [hkind] at hwritten
  exact ⟨(h.isWord (.inl hkind)).1, hwritten.not_mem_keywords⟩

/-- Only strings have strings for their values. -/
theorem kind_of_literal?_string (h : token.literal? = some (.string value)) :
    token.kind = .string ∧ token.value = value := by
  unfold literal? at h
  cases hkind : token.kind with
  | string => simpa [hkind] using h
  | keyword =>
      simp only [hkind] at h
      split_ifs at h
      all_goals simp at h
  | _ => simp [hkind] at h

/-- A literal repeats the text of its token. -/
theorem StandsIn.literal (h : token.StandsIn fold source) {literal : Literal} {raw : String}
    (hliteral : token.literal? = some literal)
    (hraw : raw = String.ofList ((Text.slice? source token.span.start token.span.stop).getD [])) :
    (Expr.literal literal raw token.span).Shaped source := by
  obtain ⟨text, back, hslice, hwritten⟩ := h.slice?
  have htext : raw.toList = text := by rw [hraw, hslice, Option.getD_some, String.toList_ofList]
  subst htext
  refine ⟨hslice, ?_⟩
  rintro value rfl
  obtain ⟨hkind, rfl⟩ := kind_of_literal?_string hliteral
  rw [hkind] at hwritten
  exact hwritten.quoted

end Token

/-! ## Expressions -/

/-- The tokens of a part are among those of all parts. -/
theorem Separated.mem_of_mem {ι : Type} {tokensOf : ι → List Token} {parts : List ι}
    {tokens : List Token} (h : Separated tokensOf parts tokens) {part : ι} (hpart : part ∈ parts)
    {token : Token} (htoken : token ∈ tokensOf part) : token ∈ tokens := by
  induction h with
  | none => cases hpart
  | last other =>
      rw [List.mem_singleton] at hpart
      exact hpart ▸ htoken
  | more other hcomma hrest ih =>
      rcases List.mem_cons.1 hpart with rfl | hpart
      · exact List.mem_append_left _ htoken
      · exact List.mem_append_right _ (List.mem_cons_of_mem _ (ih hpart))

/-- A token that is one of some texts has one of them as its value. -/
theorem Token.value_mem_of_isAny {token : Token} {texts : List String}
    (h : token.isAny texts = true) : token.value ∈ texts := by
  obtain ⟨text, hmem, his⟩ := List.any_eq_true.1 h
  rw [(Token.is_iff.1 his).2]
  exact hmem

namespace Level

/-- An operator of a level makes a node with the shape of its kind. -/
theorem join_shaped {level : Level} {operator : String} (h : operator ∈ level.operators)
    (source : List Char) (left right : Expr) :
    (level.join operator left right).Shaped source := by
  cases level <;>
    simp only [operators, join, Expr.Shaped, List.mem_cons, List.not_mem_nil, or_false] at h ⊢ <;>
    tauto

end Level

/-- Only names and members may be assigned to. -/
theorem Expr.isTarget_of_isAssignable {expr : Expr} (h : expr.isAssignable = true) :
    expr.IsTarget := by
  cases expr with
  | identifier name span => exact .identifier name span
  | member owner property span => exact .member owner property span
  | _ => cases h

/-- An expression that is derived from tokens of the source is well shaped. -/
theorem Phrase.wellShaped {context : Context} {fold : Bool} {level : Level} {tokens : List Token}
    {expr : Expr} (h : Phrase context.sourceText level tokens expr)
    (htokens : ∀ token ∈ tokens, token.StandsIn fold context.source) :
    (Node.expr expr).WellShaped context.source := by
  induction h with
  | tighter _ ih => exact ih htokens
  | @assignment left right equals target value hleft htarget hequals hright ihleft ihright =>
      rw [List.forall_mem_append, List.forall_mem_cons] at htokens
      refine Node.Shaped.wellShaped (Expr.isTarget_of_isAssignable htarget) ?_
      exact List.forall_mem_cons.2 ⟨ihleft htokens.1,
        List.forall_mem_singleton.2 (ihright htokens.2.2)⟩
  | @operation level left right operator first second hleft hoperator hright ihleft ihright =>
      rw [List.forall_mem_append, List.forall_mem_cons] at htokens
      refine Node.Shaped.wellShaped
        (Level.join_shaped (Token.value_mem_of_isAny hoperator) _ first second) ?_
      show ∀ child ∈ (level.join operator.value first second).nodes, _
      rw [Level.join_nodes]
      exact List.forall_mem_cons.2 ⟨ihleft htokens.1,
        List.forall_mem_singleton.2 (ihright htokens.2.2)⟩
  | unary hoperator hargument ih =>
      refine Node.Shaped.wellShaped (Token.value_mem_of_isAny hoperator) ?_
      exact List.forall_mem_singleton.2 (ih (List.forall_mem_cons.1 htokens).2)
  | @call front inside opening closing callee arguments hcallee hopening harguments hinside hclosing
      ihcallee iharguments =>
      rw [List.forall_mem_append, List.forall_mem_cons, List.forall_mem_append] at htokens
      refine Node.Shaped.wellShaped trivial (List.forall_mem_cons.2 ⟨ihcallee htokens.1, ?_⟩)
      simp only [List.map_map, List.forall_mem_map]
      exact fun argument hmem => iharguments argument hmem fun token htoken =>
        htokens.2.2.1 token (hinside.mem_of_mem hmem htoken)
  | @member front point name object hobject hpoint hname ih =>
      rw [List.forall_mem_append] at htokens
      have hword := (htokens.2 name (by simp)).isWord hname
      have hproperty : (Node.name ⟨name.value, name.span⟩).WellShaped context.source :=
        Node.Shaped.wellShaped hword (by simp [Node.children])
      refine Node.Shaped.wellShaped trivial ?_
      exact List.forall_mem_cons.2 ⟨ih htokens.1, List.forall_mem_singleton.2 hproperty⟩
  | literal hliteral =>
      have hstands := List.forall_mem_singleton.1 htokens
      exact Node.Shaped.wellShaped (hstands.literal hliteral rfl)
        (by simp [Node.children, Expr.nodes])
  | @identifier token hkind =>
      have hstands := List.forall_mem_singleton.1 htokens
      refine Node.Shaped.wellShaped ?_ (by simp [Node.children, Expr.nodes])
      exact ⟨hstands.isName hkind, (hstands.isWord (.inl hkind)).2⟩
  | grouping hopening hinside hclosing ih =>
      rw [List.forall_mem_cons, List.forall_mem_append] at htokens
      exact ih htokens.2.1
  | @array opening closing inside elements hopening helements hinside hclosing ih =>
      rw [List.forall_mem_cons, List.forall_mem_append] at htokens
      refine Node.Shaped.wellShaped trivial ?_
      simp only [Node.children, Expr.nodes, List.map_map, List.forall_mem_map]
      exact fun element hmem => ih element hmem fun token htoken =>
        htokens.2.1 token (hinside.mem_of_mem hmem htoken)
  | @object opening closing inside entries hopening hentries hinside hclosing ih =>
      rw [List.forall_mem_cons, List.forall_mem_append] at htokens
      refine Node.Shaped.wellShaped trivial ?_
      simp only [Node.children, Expr.nodes, List.map_map, List.forall_mem_map]
      intro entry hmem
      refine Node.Shaped.wellShaped trivial (List.forall_mem_singleton.2 ?_)
      refine ih entry hmem fun token htoken => htokens.2.1 token (hinside.mem_of_mem hmem ?_)
      exact List.mem_cons_of_mem _ (List.mem_cons_of_mem _ htoken)

end ScriptLint
