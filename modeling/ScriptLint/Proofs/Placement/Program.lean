import Mathlib
import ScriptLint.Proofs.Placement.Sentences

/-!
# The spans of a program

`parse_placed` is the main result on spans. Whatever the source, and whether or not there were
errors to recover from, every node of a program that is parsed runs from the start of a token to the
end of one, holds its children, and keeps them apart and in order.
-/

namespace ScriptLint.Program

variable {settings : Settings} {source : String}

/-- The statements of a parsed program sit over the tokens of its source, one behind the other. -/
theorem exists_sits_of_parse {parsed : Parsed} (h : parse settings source = .ok parsed) :
    ∃ tokens, Token.tokenize settings source = .ok tokens ∧
      (∀ stmt ∈ parsed.program.statements,
        (Node.stmt stmt).Sits (tokens.filter (·.kind != .eof))) ∧
      (parsed.program.statements.map Node.stmt).Pairwise Node.Before := by
  obtain ⟨tokens, reports, htokens, hcollected⟩ :=
    exists_collected_of_parse (Node.layingAccounts_closed _) h
  obtain ⟨-, hinorder⟩ := Token.tokenize_places htokens
  obtain ⟨hsits, hordered⟩ := hcollected.laid id hinorder
  exact ⟨tokens, htokens, List.forall_mem_map.1 hsits, hordered⟩

/-- Every node of a parsed program is well placed over the tokens of its source: it is not empty,
begins where a token begins and ends where one ends, lies within its parent, apart from its
siblings, and behind the items in front of it if it is an item of a list. Its ends are inside the
source, and between characters. -/
theorem parse_placed {parsed : Parsed} (h : parse settings source = .ok parsed) :
    ∃ tokens, Token.tokenize settings source = .ok tokens ∧
      (parsed.program.statements.map Node.stmt).Pairwise Node.Before ∧
      ∀ stmt ∈ parsed.program.statements, ∀ part, (Node.stmt stmt).HasPart part →
        part.Placed (tokens.filter (·.kind != .eof)) ∧
          part.span.stop ≤ Text.byteLength source.toList ∧
          (Text.slice? source.toList part.span.start part.span.stop).isSome = true := by
  obtain ⟨tokens, htokens, hsits, hordered⟩ := exists_sits_of_parse h
  refine ⟨tokens, htokens, hordered, fun stmt hstmt part hpart => ?_⟩
  have hplaced := (hsits stmt hstmt part hpart).1
  -- The two tokens at the ends of the node cover parts of the source.
  have hcovers : ∀ token ∈ tokens.filter (·.kind != .eof), token.Covers source.toList := by
    intro token htoken
    rw [List.mem_filter] at htoken
    exact (Token.tokenize_places htokens).1 token htoken.1 (by simpa using htoken.2)
  obtain ⟨first, hfirst, hstart⟩ := hplaced.starts
  obtain ⟨last, hlast, hstop⟩ := hplaced.stops
  have hleft := (hcovers first hfirst).isBoundary_start
  have hright := (hcovers last hlast).isBoundary_stop
  rw [hstart] at hleft
  rw [hstop] at hright
  exact ⟨hplaced, hright.le, Text.slice?_isSome hleft hright (Nat.le_of_lt hplaced.nonempty)⟩

/-- The nodes of a call with an argument that has a character of two bytes in it. -/
theorem parse_placed_call :
    let argument : Expr := .literal (.string "\u00e9") "'\u00e9'" ⟨2, 6⟩
    let call : Expr := .call (.identifier "a" ⟨0, 1⟩) [argument] ⟨0, 7⟩
    let parsed : Parsed := ⟨⟨[.expression call ⟨0, 8⟩], ⟨0, 8⟩⟩, []⟩
    parse ⟨5, true⟩ "a('\u00e9');" = .ok parsed ∧
      ∃ tokens, Token.tokenize ⟨5, true⟩ "a('\u00e9');" = .ok tokens ∧
        (parsed.program.statements.map Node.stmt).Pairwise Node.Before ∧
        ∀ stmt ∈ parsed.program.statements, ∀ part, (Node.stmt stmt).HasPart part →
          part.Placed (tokens.filter (·.kind != .eof)) ∧
            part.span.stop ≤ Text.byteLength "a('\u00e9');".toList ∧
            (Text.slice? "a('\u00e9');".toList part.span.start part.span.stop).isSome = true := by
  intro argument call parsed
  have hparsed : parse ⟨5, true⟩ "a('\u00e9');" = .ok parsed := by cbv
  exact ⟨hparsed, parse_placed hparsed⟩

end ScriptLint.Program
