import Mathlib
import ScriptLint.Proofs.Token.Composition
import ScriptLint.Proofs.Token.Places
import ScriptLint.Proofs.Token.Writing

/-!
# Tokens and gaps tile the source

The tokens of a source and the gaps in front of them make up the whole source. Every gap is made of
blanks and comments, and the text under every token is the written form of that token and of no
other one.
-/

namespace ScriptLint.Token

/-- A gap of the source reaches from the end of one span to the start of another one. -/
def GapBetween (source : List Char) (first second : Span) : Prop :=
  ∃ front gap back, source = front ++ (gap ++ back) ∧ first.stop = Text.byteLength front ∧
    second.start = Text.byteLength front + Text.byteLength gap ∧ Lexeme.Gap back gap

/-- The token stands in the source, written as it should be in front of what follows. -/
def StandsIn (fold : Bool) (source : List Char) (token : Token) : Prop :=
  ∃ front text back, source = front ++ (text ++ back) ∧
    token.span = ⟨Text.byteLength front, Text.byteLength front + Text.byteLength text⟩ ∧
    Written fold back token.kind token.value text

/-- What it means that tokens tile a source. -/
structure Tiling (fold : Bool) (source : List Char) (tokens : List Token) : Prop where
  /-- The end mark is the last token and no other. -/
  ends : ∃ body, tokens = body ++ [endMark (Text.byteLength source)] ∧
    ∀ token ∈ body, token.kind ≠ .eof
  nonempty : ∀ token ∈ tokens, token.kind ≠ .eof → token.span.start < token.span.stop
  disjoint : tokens.Pairwise fun first second => first.span.stop ≤ second.span.start
  increasing : tokens.Pairwise fun first second => first.span.start < second.span.start
  boundaries : ∀ token ∈ tokens,
    Text.IsBoundary source token.span.start ∧ Text.IsBoundary source token.span.stop
  /-- There is a gap in front of the first token and between any two that follow each other. -/
  gaps : (⟨0, 0⟩ :: tokens.map Token.span).IsChain (GapBetween source)
  texts : ∀ token ∈ tokens, token.kind ≠ .eof → token.StandsIn fold source
  /-- Whatever token the text under a token is the written form of, it is that one. -/
  determined : ∀ token ∈ tokens, ∀ text,
    Text.slice? source token.span.start token.span.stop = some text →
      ofText text = (token.kind, token.value)

variable {fold : Bool} {source : List Char} {token : Token}

/-- The text under a token that stands in the source. -/
theorem StandsIn.slice? (h : token.StandsIn fold source) :
    ∃ text back, Text.slice? source token.span.start token.span.stop = some text ∧
      Written fold back token.kind token.value text := by
  obtain ⟨front, text, back, rfl, hspan, hwritten⟩ := h
  refine ⟨text, back, ?_, hwritten⟩
  rw [hspan]
  exact Text.slice?_middle front text back

/-- Every token that scanning gives stands in the source. -/
theorem scan_standsIn {offset : Nat} {text front : List Char} {tokens : List Token}
    (h : scan fold offset text = .ok tokens) (hoffset : Text.byteLength front = offset) :
    ∀ token ∈ tokens, token.kind ≠ .eof → token.StandsIn fold (front ++ text) := by
  fun_induction scan fold offset text generalizing front tokens with
  | case1 offset =>
      cases h
      simp [endMark]
  | case2 offset c rest lexeme stop =>
      rename_i hpiece ih
      have htext : lexeme.text ++ lexeme.rest = c :: rest := Lexeme.text_append_rest fold c rest
      have hlater := @ih (front ++ lexeme.text) tokens h (by rw [Text.byteLength_append, hoffset])
      rwa [List.append_assoc, htext] at hlater
  | case3 offset c rest lexeme stop kind value =>
      rename_i hpiece ih
      have htext : lexeme.text ++ lexeme.rest = c :: rest := Lexeme.text_append_rest fold c rest
      obtain ⟨later, hscan, rfl⟩ := exists_of_map_ok h
      have hlater := @ih (front ++ lexeme.text) later hscan
        (by rw [Text.byteLength_append, hoffset])
      rw [List.append_assoc, htext] at hlater
      refine List.forall_mem_cons.2 ⟨fun _ => ?_, hlater⟩
      refine ⟨front, lexeme.text, lexeme.rest, by rw [htext], by rw [hoffset], ?_⟩
      exact Lexeme.next_written hpiece
  | case4 => cases h

/-- A gap that has been skipped and the tokens behind it make up a chain of gaps. -/
theorem scan_gaps {offset : Nat} {text front gap : List Char} {tokens : List Token}
    (h : scan fold offset text = .ok tokens)
    (hoffset : Text.byteLength front + Text.byteLength gap = offset) (hgap : Lexeme.Gap text gap)
    (start : Nat) :
    (⟨start, Text.byteLength front⟩ :: tokens.map Token.span).IsChain
      (GapBetween (front ++ (gap ++ text))) := by
  fun_induction scan fold offset text generalizing front gap tokens start with
  | case1 offset =>
      cases h
      refine .cons_cons ⟨front, gap, [], rfl, rfl, ?_, hgap⟩ (.singleton _)
      exact hoffset.symm
  | case2 offset c rest lexeme stop =>
      rename_i hpiece ih
      have htext : lexeme.text ++ lexeme.rest = c :: rest := Lexeme.text_append_rest fold c rest
      rw [← htext] at hgap
      have hlater := @ih front (gap ++ lexeme.text) tokens h
        (by rw [Text.byteLength_append, ← Nat.add_assoc, hoffset])
        (hgap.snoc (Lexeme.next_filler hpiece)) start
      rwa [List.append_assoc, htext] at hlater
  | case3 offset c rest lexeme stop kind value =>
      rename_i hpiece ih
      have htext : lexeme.text ++ lexeme.rest = c :: rest := Lexeme.text_append_rest fold c rest
      obtain ⟨later, hscan, rfl⟩ := exists_of_map_ok h
      -- Behind the token a new gap begins, with nothing in it yet.
      have hstop : Text.byteLength (front ++ (gap ++ lexeme.text)) = stop := by
        simp only [Text.byteLength_append]
        omega
      have hlater := @ih (front ++ (gap ++ lexeme.text)) [] later hscan hstop .nil offset
      rw [hstop, List.nil_append, List.append_assoc, List.append_assoc, htext] at hlater
      exact .cons_cons ⟨front, gap, c :: rest, rfl, rfl, hoffset.symm, hgap⟩ hlater
  | case4 => cases h

/-- The tokens that scanning gives tile the text. -/
theorem scan_tiles {tokens : List Token} (h : scan fold 0 source = .ok tokens) :
    Tiling fold source tokens := by
  have hstands := @scan_standsIn _ _ _ [] _ h rfl
  obtain ⟨body, rfl, hbody⟩ := scan_mark h
  rw [Nat.zero_add] at *
  obtain ⟨hcovers, -, hdisjoint⟩ := @scan_places _ _ _ [] _ h rfl
  have hcover : ∀ token ∈ body, token.Covers source := fun token htoken =>
    hcovers token (List.mem_append_left _ htoken) (hbody token htoken)
  constructor
  case ends => exact ⟨body, rfl, hbody⟩
  case nonempty => exact fun token htoken hkind => (hcovers token htoken hkind).nonempty
  case disjoint => exact hdisjoint
  case increasing =>
    obtain ⟨hfront, -, hbefore⟩ := List.pairwise_append.1 hdisjoint
    refine List.pairwise_append.2 ⟨hfront.imp_of_mem ?_, List.pairwise_singleton _ _, ?_⟩
    · exact fun hfirst _ hle => Nat.lt_of_lt_of_le (hcover _ hfirst).nonempty hle
    · exact fun first hfirst second hsecond =>
        Nat.lt_of_lt_of_le (hcover first hfirst).nonempty (hbefore first hfirst second hsecond)
  case boundaries =>
    intro token htoken
    rcases List.mem_append.1 htoken with hmem | hmark
    · exact ⟨(hcover token hmem).isBoundary_start, (hcover token hmem).isBoundary_stop⟩
    · obtain rfl := List.mem_singleton.1 hmark
      have hend : Text.IsBoundary source (Text.byteLength source) :=
        ⟨source, [], by simp, rfl⟩
      exact ⟨hend, hend⟩
  case gaps => exact @scan_gaps _ _ _ [] [] _ h rfl .nil 0
  case texts => exact hstands
  case determined =>
    intro token htoken text htext
    rcases List.mem_append.1 htoken with hmem | hmark
    · obtain ⟨found, back, hfound, hwritten⟩ :=
        (hstands token htoken (hbody token hmem)).slice?
      obtain rfl := Option.some.inj (htext.symm.trans hfound)
      exact hwritten.ofText_eq
    · obtain rfl := List.mem_singleton.1 hmark
      have hempty := Text.slice?_middle source [] []
      simp only [List.append_nil, Text.byteLength_nil, Nat.add_zero] at hempty
      obtain rfl := Option.some.inj (htext.symm.trans hempty)
      rfl

/-- The tokens of a source tile it. -/
theorem tokenize_tiles {settings : Settings} {source : String} {tokens : List Token}
    (h : tokenize settings source = .ok tokens) :
    Tiling settings.foldNegative source.toList tokens :=
  scan_tiles h

theorem tokenize_tiles_open_comment :
    tokenize ⟨8, true⟩ "-1.5== 'a\\'' /*" =
        .ok [⟨.number, "-1.5", ⟨0, 4⟩⟩, ⟨.operator, "==", ⟨4, 6⟩⟩, ⟨.string, "a\\'", ⟨7, 12⟩⟩,
          endMark 15] ∧
      Tiling true "-1.5== 'a\\'' /*".toList [⟨.number, "-1.5", ⟨0, 4⟩⟩,
        ⟨.operator, "==", ⟨4, 6⟩⟩, ⟨.string, "a\\'", ⟨7, 12⟩⟩, endMark 15] := by
  have h : tokenize ⟨8, true⟩ "-1.5== 'a\\'' /*" =
      .ok [⟨.number, "-1.5", ⟨0, 4⟩⟩, ⟨.operator, "==", ⟨4, 6⟩⟩, ⟨.string, "a\\'", ⟨7, 12⟩⟩,
        endMark 15] := by decide +kernel
  exact ⟨h, tokenize_tiles h⟩

end ScriptLint.Token
