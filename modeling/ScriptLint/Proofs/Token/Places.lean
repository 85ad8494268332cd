import ScriptLint.Proofs.Token.Stream

/-!
# Where the tokens of a text stand

Every token covers some characters of its text, and each ends before the next one begins. So its
offsets fall between characters, and so do those of any span from the start of one token to the end
of another.
-/

namespace ScriptLint

namespace Text

/-- An offset between two characters of a text, or at one of its ends. -/
def IsBoundary (text : List Char) (offset : Nat) : Prop :=
  ∃ front back, text = front ++ back ∧ byteLength front = offset

/-- A character has at least one byte. -/
theorem byteLength_pos {text : List Char} (h : text ≠ []) : 0 < byteLength text := by
  cases text with
  | nil => exact absurd rfl h
  | cons c rest => exact Nat.add_pos_left c.utf8Size_pos _

/-- A boundary is inside the text. -/
theorem IsBoundary.le {text : List Char} {offset : Nat} (h : IsBoundary text offset) :
    offset ≤ byteLength text := by
  obtain ⟨front, back, rfl, rfl⟩ := h
  simp

/-- A text can be cut at two boundaries that are in order. -/
theorem slice?_isSome {text : List Char} {start stop : Nat} (hstart : IsBoundary text start)
    (hstop : IsBoundary text stop) (hle : start ≤ stop) :
    (slice? text start stop).isSome = true := by
  obtain ⟨front, back, htext, rfl⟩ := hstart
  obtain ⟨longer, last, htext', rfl⟩ := hstop
  -- One of the parts in front of the two boundaries begins with the other one.
  rcases List.append_eq_append_iff.1 (htext.symm.trans htext') with
    ⟨middle, hlonger, hback⟩ | ⟨middle, hfront, hlast⟩
  · subst htext hlonger hback
    rw [byteLength_append, slice?_middle]
    rfl
  · subst htext hfront hlast
    cases middle with
    | nil =>
        rw [List.append_nil, ← Nat.add_zero (byteLength longer)]
        exact congrArg Option.isSome (slice?_middle longer [] back)
    | cons c rest =>
        have hpos := byteLength_pos (List.cons_ne_nil c rest)
        rw [byteLength_append] at hle
        omega

end Text

namespace Token

/-- The token covers some characters of the text. -/
def Covers (source : List Char) (token : Token) : Prop :=
  ∃ front text back, source = front ++ (text ++ back) ∧ text ≠ [] ∧
    token.span = ⟨Text.byteLength front, Text.byteLength front + Text.byteLength text⟩

/-- The tokens are not empty, and each ends before the next one begins. -/
structure InOrder (tokens : List Token) : Prop where
  nonempty : ∀ token ∈ tokens, token.span.start < token.span.stop
  ordered : tokens.Pairwise fun first second => first.span.stop ≤ second.span.start

/-- What scanning a text gives: every token but the mark covers some of its characters, none begins
before the text does, and each ends before the next one begins. -/
theorem scan_places {fold : Bool} {offset : Nat} {text front : List Char} {tokens : List Token}
    (h : scan fold offset text = .ok tokens) (hoffset : Text.byteLength front = offset) :
    (∀ token ∈ tokens, token.kind ≠ .eof → token.Covers (front ++ text)) ∧
      (∀ token ∈ tokens, offset ≤ token.span.start ∧ token.span.start ≤ token.span.stop) ∧
      tokens.Pairwise fun first second => first.span.stop ≤ second.span.start := by
  fun_induction scan fold offset text generalizing front tokens with
  | case1 offset =>
      cases h
      simp [endMark]
  | case2 offset c rest lexeme stop =>
      rename_i hpiece ih
      have htext : lexeme.text ++ lexeme.rest = c :: rest := Lexeme.text_append_rest fold c rest
      obtain ⟨hcovers, hstarts, hordered⟩ := @ih (front ++ lexeme.text) tokens h
        (by rw [Text.byteLength_append, hoffset])
      refine ⟨?_, fun token htoken => ?_, hordered⟩
      · rwa [List.append_assoc, htext] at hcovers
      · have hstart := hstarts token htoken
        omega
  | case3 offset c rest lexeme stop kind value =>
      rename_i hpiece ih
      have htext : lexeme.text ++ lexeme.rest = c :: rest := Lexeme.text_append_rest fold c rest
      have hpos := Text.byteLength_pos (Lexeme.text_ne_nil fold c rest)
      obtain ⟨later, hscan, rfl⟩ := exists_of_map_ok h
      obtain ⟨hcovers, hstarts, hordered⟩ := @ih (front ++ lexeme.text) later hscan
        (by rw [Text.byteLength_append, hoffset])
      refine ⟨?_, ?_, ?_⟩
      · intro token htoken hkind
        rcases List.mem_cons.1 htoken with rfl | hlater
        · refine ⟨front, lexeme.text, lexeme.rest, by rw [htext], ?_, by rw [hoffset]⟩
          exact Lexeme.text_ne_nil fold c rest
        · have hcover := hcovers token hlater hkind
          rwa [List.append_assoc, htext] at hcover
      · refine List.forall_mem_cons.2 ⟨⟨Nat.le_refl _, Nat.le_add_right _ _⟩, ?_⟩
        intro token htoken
        have hstart := hstarts token htoken
        omega
      · refine List.pairwise_cons.2 ⟨?_, hordered⟩
        exact fun token htoken => (hstarts token htoken).1
  | case4 => cases h

variable {source : List Char} {token : Token}

/-- A token covers at least one byte. -/
theorem Covers.nonempty (h : token.Covers source) : token.span.start < token.span.stop := by
  obtain ⟨front, text, back, -, hne, hspan⟩ := h
  rw [hspan]
  exact Nat.lt_add_of_pos_right (Text.byteLength_pos hne)

/-- A token begins where a character does. -/
theorem Covers.isBoundary_start (h : token.Covers source) :
    Text.IsBoundary source token.span.start := by
  obtain ⟨front, text, back, hsource, -, hspan⟩ := h
  exact ⟨front, text ++ back, hsource, by rw [hspan]⟩

/-- A token ends where a character does. -/
theorem Covers.isBoundary_stop (h : token.Covers source) :
    Text.IsBoundary source token.span.stop := by
  obtain ⟨front, text, back, hsource, -, hspan⟩ := h
  exact ⟨front ++ text, back, by rw [hsource, List.append_assoc],
    by rw [hspan, Text.byteLength_append]⟩

/-- The tokens of a source cover parts of it, in order. -/
theorem tokenize_places {settings : Settings} {source : String} {tokens : List Token}
    (h : tokenize settings source = .ok tokens) :
    (∀ token ∈ tokens, token.kind ≠ .eof → token.Covers source.toList) ∧
      InOrder (tokens.filter (·.kind != .eof)) := by
  obtain ⟨hcovers, -, hordered⟩ := @scan_places _ _ _ [] _ h rfl
  refine ⟨hcovers, ?_, hordered.filter _⟩
  intro token htoken
  obtain ⟨hmem, hkind⟩ := List.mem_filter.1 htoken
  exact (hcovers token hmem (by simpa using hkind)).nonempty

end Token

end ScriptLint
