import ScriptLint.Proofs.Nesting.Tower

/-!
# The height of parsed expressions

How high an expression in a program can be that is parsed with a limit on nesting. An operator of a
chain gives back its level when the chain ends, so an operand that is finished counts no more, and
the height is bounded by the sum of the levels and not by their number. `parse_height` gives the
bound, which is reached, and the limits that are themselves a bound.
-/

namespace ScriptLint

/-- The reach of the levels that a statement leaves to its expressions. -/
theorem Expr.reach_pred (depth : Nat) : Expr.reach (depth - 1) = depth * (depth - 1) / 2 := by
  have htwice : ∀ levels, 2 * Expr.reach levels = (levels + 1) * levels := by
    intro levels
    induction levels with
    | zero => rfl
    | succ levels ih =>
        rw [Expr.reach, Nat.mul_add, ih, Nat.mul_comm (levels + 1) levels, ← Nat.add_mul]
  cases depth with
  | zero => rfl
  | succ depth =>
      have htotal := htwice depth
      rw [Nat.add_sub_cancel]
      omega

namespace Program

variable {settings : Settings} {source : String} {parsed : Parsed}

/-- No statement holds an expression above a bound if no expression that is read exceeds it. -/
theorem closed_height (bound : Nat) :
    Stmt.Closed (·.height ≤ bound) fun stmt => ∀ part, stmt.Holds part → part.height ≤ bound := by
  refine Stmt.closed_of_children fun stmt hexprs hchildren part hholds => ?_
  cases hholds with
  | direct hexpr hpart => exact Nat.le_trans hpart.height_le (hexprs _ hexpr)
  | inside hchild hinside => exact hchildren _ hchild part hinside

/-- A program that is parsed was read from the tokens of its source. -/
theorem exists_readStatements (h : parse settings source = .ok parsed) :
    ∃ reading later, readStatements (Context.ofSettings settings source.toList) settings.maxDepth
      reading = .ok parsed.program.statements later := by
  obtain ⟨tokens, stop, later, -, hrun⟩ := exists_run_of_parse h
  exact ⟨_, later, hrun⟩

/-- The expressions of a parsed program are not higher than the levels below a statement allow. -/
theorem parse_height_le (h : parse settings source = .ok parsed) {expr : Expr}
    (hholds : parsed.program.Holds expr) : expr.height ≤ Expr.reach (settings.maxDepth - 1) := by
  obtain ⟨reading, later, hrun⟩ := exists_readStatements h
  obtain ⟨stmt, hstmt, hexpr⟩ := hholds
  have hkeeps := readStatements_keeps (closed_height (Expr.reach (settings.maxDepth - 1)))
    (Context.ofSettings settings source.toList) settings.maxDepth fun context inner hinner =>
      (Expr.read_keeps context inner .default).mono fun expr hexpr =>
        Nat.le_trans hexpr (Expr.reach_mono (by omega))
  exact (hkeeps.of_ok hrun).1 stmt hstmt expr hexpr

/-- With a limit on nesting, the expressions of parsed programs have a height of up to the sum of
the levels below a statement, and there are programs with such expressions. So the limit is itself a
bound on the height exactly if it is not above three. -/
theorem parse_height (depth : Nat) (fold : Bool) :
    (∀ source parsed, parse ⟨depth, fold⟩ source = .ok parsed →
      ∀ expr, parsed.program.Holds expr → expr.height ≤ depth * (depth - 1) / 2) ∧
    (2 ≤ depth → ∃ source parsed, parse ⟨depth, fold⟩ source = .ok parsed ∧ parsed.errors = [] ∧
      ∃ expr, parsed.program.Holds expr ∧ expr.height = depth * (depth - 1) / 2) ∧
    ((∀ source parsed, parse ⟨depth, fold⟩ source = .ok parsed →
      ∀ expr, parsed.program.Holds expr → expr.height ≤ depth) ↔ depth ≤ 3) := by
  have hbound : ∀ source parsed, parse ⟨depth, fold⟩ source = .ok parsed →
      ∀ expr, parsed.program.Holds expr → expr.height ≤ depth * (depth - 1) / 2 := by
    intro source parsed hparse expr hholds
    rw [← Expr.reach_pred]
    exact parse_height_le hparse hholds
  have hreached : 2 ≤ depth → ∃ source parsed, parse ⟨depth, fold⟩ source = .ok parsed ∧
      parsed.errors = [] ∧
      ∃ expr, parsed.program.Holds expr ∧ expr.height = depth * (depth - 1) / 2 := by
    intro hdepth
    obtain ⟨count, rfl⟩ : ∃ count, depth = count + 2 := ⟨depth - 2, by omega⟩
    rw [← Expr.reach_pred]
    exact ⟨towerSource count, parse_towerSource fold count⟩
  refine ⟨hbound, hreached, ?_⟩
  constructor
  · intro hall
    by_contra hgreater
    obtain ⟨source, parsed, hparse, _, expr, hholds, hheight⟩ := hreached (by omega)
    have hle := hall source parsed hparse expr hholds
    -- From four on, half of one level less is more than one.
    have hmore : depth * 3 ≤ depth * (depth - 1) := Nat.mul_le_mul_left depth (by omega)
    omega
  · intro hdepth source parsed hparse expr hholds
    have hheight := hbound source parsed hparse expr hholds
    have hless : depth * (depth - 1) ≤ depth * 2 := Nat.mul_le_mul_left depth (by omega)
    omega

/-- With a limit of four, two members behind two nested arrays make a height of five. -/
theorem parse_height_exceeds :
    ∃ parsed, parse ⟨4, true⟩ "var x=[[a]].b.b;" = .ok parsed ∧ parsed.errors = [] ∧
      ∃ expr, parsed.program.Holds expr ∧ expr.height = 5 := by
  let value : Expr := .member (.member (.array [.array [.identifier "a" ⟨8, 9⟩] ⟨7, 10⟩] ⟨6, 11⟩)
    ⟨"b", ⟨12, 13⟩⟩ ⟨6, 13⟩) ⟨"b", ⟨14, 15⟩⟩ ⟨6, 15⟩
  have hparse : parse ⟨4, true⟩ "var x=[[a]].b.b;" =
      .ok ⟨⟨[.varDecl ⟨"x", false, none, some value, ⟨0, 16⟩⟩], ⟨0, 16⟩⟩, []⟩ := by cbv
  refine ⟨_, hparse, rfl, value, ⟨_, List.mem_singleton_self _, ?_⟩, by decide⟩
  exact .direct (List.mem_singleton_self value) (.self value)

end Program

end ScriptLint
