import ScriptLint.Proofs.Placement.Laying

/-!
# Phrases are laid over their tokens

An expression that is derived from tokens is a node over them, and all its parts sit where they
should. It need not begin with the first of its tokens or end with the last one, for parentheses
around an operand leave no trace.
-/

namespace ScriptLint

open Node (Laid)

variable {sourceText : Span → String} {level : Level} {tokens : List Token} {expr : Expr}

/-- A property is laid from its key to the end of its value. -/
theorem Entry.laid (entry : Entry) (h : Laid entry.tokens [.expr entry.value]) :
    Laid entry.all [.property entry.property] := by
  have hitems : Laid entry.all [entry.key.node, .expr entry.value] :=
    entry.key.laid.append (h.behind entry.colon)
  exact @Laid.join _ _ entry.key.node (.expr entry.value) [] hitems rfl (fun _ => rfl)
    (List.sublist_cons_self _ _) rfl

/-- From an opening bracket to the closing one. -/
theorem Span.ofTokens_brackets (opening closing : Token) (inside : List Token) :
    Span.ofTokens (opening :: (inside ++ [closing])) = Span.upTo opening.span.start closing := by
  simp [Span.ofTokens]

namespace Phrase

/-- An expression that is derived from tokens is laid over them. -/
theorem laid (h : Phrase sourceText level tokens expr) : Laid tokens [.expr expr] := by
  induction h with
  | tighter _ ih => exact ih
  | @assignment left right equals target value _ _ _ _ ihtarget ihvalue =>
      exact (ihtarget.append (ihvalue.behind equals)).hull rfl (.refl _) rfl
  | @operation level left right operator first second _ _ _ ihfirst ihsecond =>
      have hchildren : (Node.expr (level.join operator.value first second)).children =
          [.expr first, .expr second] := level.join_nodes operator.value first second
      exact (ihfirst.append (ihsecond.behind operator)).hull (level.span_join _ first second)
        (hchildren ▸ .refl _) rfl
  | @unary operator inside argument _ _ ih =>
      exact (operator.laid.append ih).hull rfl (List.sublist_cons_self _ _) rfl
  | @call front inside opening closing callee arguments _ _ _ hinside _ ihcallee iharguments =>
      have hlist : Laid inside (arguments.map (.expr ·.2)) := .separated hinside iharguments
      -- A call ends with its parenthesis, which is an item but no child.
      have hitems := ihcallee.append ((hlist.append closing.laid).behind opening)
      refine hitems.join rfl (fun hle => Nat.max_eq_left hle) ?_ rfl
      simp [Node.children, Expr.nodes, Function.comp_def]
  | @member front point name object _ _ _ ih =>
      exact (ih.append (name.laid.behind point)).hull rfl (.refl _) rfl
  | literal | identifier => exact .leaf rfl rfl rfl
  | @grouping opening closing inside expr _ _ _ ih =>
      exact (ih.before [closing]).behind opening
  | @array opening closing inside elements _ _ hinside _ ih =>
      have hlist : Laid inside (elements.map (.expr ·.2)) := .separated hinside ih
      refine ((hlist.before [closing]).behind opening).cover (List.cons_ne_nil _ _)
        (Span.ofTokens_brackets opening closing inside).symm ?_ ?_
      · simp [Node.children, Expr.nodes]
      · simp [Node.sequence, Node.children, Expr.nodes]
  | @object opening closing inside entries _ _ hinside _ ih =>
      have hlist : Laid inside (entries.map (.property ·.property)) :=
        .separated hinside fun entry hentry => entry.laid (ih entry hentry)
      refine ((hlist.before [closing]).behind opening).cover (List.cons_ne_nil _ _)
        (Span.ofTokens_brackets opening closing inside).symm ?_ ?_
      · simp [Node.children, Expr.nodes]
      · simp [Node.sequence, Node.children, Expr.nodes]

/-- A phrase sits over its tokens, if they are in order. -/
theorem sits (h : Phrase sourceText level tokens expr) (hordered : Token.InOrder tokens) :
    (Node.expr expr).Sits tokens :=
  (h.laid hordered).1 _ List.mem_cons_self

/-- A phrase begins where one of its tokens begins, and ends where one ends. -/
theorem among (h : Phrase sourceText level tokens expr) (hordered : Token.InOrder tokens) :
    expr.span.Among tokens :=
  (h.sits hordered).placed.among

end Phrase

end ScriptLint
