import Mathlib
import ScriptLint.Proofs.Text.Shown
import ScriptLint.Report.Excerpt

/-!
# Carets under a span

The last two lines of an excerpt are a line of the source, without its indentation and without the
blanks at its end, and a line of carets. Both begin with a margin of the same width.

The carets are placed and counted in bytes, and they are counted before the blanks are removed. A
`Passage` is a span on one line of a source, behind the indentation. `diagnostic_points` says where
the carets for it stand, and when these are the columns of its characters.
-/

namespace ScriptLint

namespace Text

variable {text : List Char}

/-- A text has no more characters than bytes. -/
theorem length_le_byteLength (text : List Char) : text.length ≤ byteLength text := by
  induction text with
  | nil => exact Nat.le_refl 0
  | cons c rest ih =>
      have hpos := c.utf8Size_pos
      rw [List.length_cons, byteLength_cons]
      omega

/-- A text has as many bytes as characters if each of these is one byte long. -/
theorem byteLength_eq_length_iff :
    byteLength text = text.length ↔ ∀ c ∈ text, c.utf8Size = 1 := by
  induction text with
  | nil => simp
  | cons c rest ih =>
      have hpos := c.utf8Size_pos
      have hle := length_le_byteLength rest
      rw [List.forall_mem_cons, ← ih, List.length_cons, byteLength_cons]
      omega

/-- What is removed from the end of a text does not reach into a part without such characters. -/
theorem rdropWhile_append_of_neg {p : Char → Bool} {first : List Char}
    (h : ∀ c ∈ first, p c = false) (second : List Char) :
    (first ++ second).rdropWhile p = first ++ second.rdropWhile p := by
  induction second using List.reverseRecOn with
  | nil =>
      rw [List.append_nil, List.rdropWhile_nil, List.append_nil, List.rdropWhile_eq_self_iff]
      intro hne
      simp [h _ (List.getLast_mem hne)]
  | append_singleton second c ih =>
      rw [← List.append_assoc, List.rdropWhile_concat, List.rdropWhile_concat, ih]
      split
      · rfl
      · rw [List.append_assoc]

/-- No line is shown with a line feed in it. -/
theorem feed_notMem_lineAt (source : String) (position : Nat) :
    '\n' ∉ (lineAt source.toList position).text := by
  obtain ⟨front, line, back, -, hlocated⟩ := exists_located_lineAt source position
  rw [hlocated.shown_eq]
  split
  · exact hlocated.line_plain
  · exact fun hmem => hlocated.line_plain ((List.rdropWhile_prefix _ line).mem hmem)

end Text

namespace Report

open Text

/-! ## The last two lines -/

/-- What stands in front of the source line of an excerpt. -/
def margin (number : Nat) : List Char :=
  (toString number).toList ++ [' ', '|', ' ']

/-- What stands in front of the carets of an excerpt: a margin of the same width, and blanks. -/
def caretMargin (number column : Nat) : List Char :=
  List.replicate ((toString number).length + 1) ' ' ++ ('|' :: List.replicate (column + 1) ' ')

/-- The margin of the carets reaches to their column. -/
theorem length_caretMargin (number column : Nat) :
    (caretMargin number column).length = (margin number).length + column := by
  simp only [caretMargin, margin, List.length_append, List.length_replicate, List.length_cons,
    List.length_nil, String.length_toList]
  omega

/-- The number of a line is written in digits. -/
theorem feed_notMem_margin (number : Nat) : '\n' ∉ margin number := by
  intro hmem
  rcases List.mem_append.1 hmem with hdigit | hrest
  · have hnumber : (toString number).toList = Nat.toDigits 10 number := by
      show number.repr.toList = _
      rw [Nat.repr_eq_ofList_toDigits, String.toList_ofList]
    rw [hnumber] at hdigit
    exact absurd (Nat.isDigit_of_mem_toDigits (by decide) (by decide) hdigit) (by decide)
  · simp at hrest

theorem alignRight_bar (width : Nat) :
    (alignRight (width + 2) "|").toList = List.replicate (width + 1) ' ' ++ ['|'] := by
  rw [alignRight, spaces, String.toList_append, String.toList_ofList]
  rfl

section Excerpt

variable (heading file : String) {source : String} {span : Span} {number column : Nat}
  {indent shown : List Char}

/-- The indentation of a line is split off if it is followed by another character or by nothing. -/
theorem takeWhile_isIndent (hindent : ∀ c ∈ indent, isIndent c = true)
    (hshown : shown.head?.all (!isIndent ·)) :
    (indent ++ shown).takeWhile isIndent = indent ∧
      (indent ++ shown).dropWhile isIndent = shown := by
  rw [List.takeWhile_append_of_pos hindent, List.dropWhile_append_of_pos hindent]
  cases shown with
  | nil => simp
  | cons c rest =>
      have hc : isIndent c = false := by simpa using hshown
      simp [hc]

/-- How an excerpt ends, given the line that the span is on. -/
theorem excerpt_toList (hindent : ∀ c ∈ indent, isIndent c = true)
    (hshown : shown.head?.all (!isIndent ·))
    (hplace : lineAt source.toList span.start =
      ⟨number, indent ++ shown, byteLength indent + column⟩) :
    ∃ first, (excerpt heading span source file).toList =
      first ++ '\n' :: (margin number ++ trimRight shown ++ '\n' :: (caretMargin number column ++
        List.replicate (max (min span.length (byteLength shown - column)) 1) '^')) := by
  obtain ⟨htake, hdrop⟩ := takeWhile_isIndent hindent hshown
  refine ⟨(heading ++ "\n" ++ "-> " ++ file ++ ":" ++ toString number ++ ":" ++
    toString (byteLength indent + column + 1) ++ "\n" ++
    alignRight ((toString number).length + 2) "|").toList, ?_⟩
  unfold excerpt
  simp only [hplace, htake, hdrop, Nat.add_sub_cancel_left, String.toList_append,
    alignRight_bar (toString number).length, spaces, String.toList_ofList, margin, caretMargin,
    List.append_assoc, List.cons_append, List.nil_append]
  rfl

/-- An excerpt ends with the line that is shown and a line of carets. -/
theorem splitOn_excerpt (hindent : ∀ c ∈ indent, isIndent c = true)
    (hshown : shown.head?.all (!isIndent ·))
    (hplace : lineAt source.toList span.start =
      ⟨number, indent ++ shown, byteLength indent + column⟩) :
    ∃ earlier, (excerpt heading span source file).toList.splitOn '\n' =
      earlier ++ [margin number ++ trimRight shown, caretMargin number column ++
        List.replicate (max (min span.length (byteLength shown - column)) 1) '^'] := by
  obtain ⟨first, hexcerpt⟩ := excerpt_toList heading file hindent hshown hplace
  have habove : '\n' ∉ margin number ++ trimRight shown := by
    intro hmem
    rcases List.mem_append.1 hmem with hmargin | htrimmed
    · exact feed_notMem_margin number hmargin
    · have hplain := feed_notMem_lineAt source span.start
      rw [hplace] at hplain
      exact hplain (List.mem_append_right indent ((List.rdropWhile_prefix _ shown).mem htrimmed))
  have hbelow : '\n' ∉ caretMargin number column ++
      List.replicate (max (min span.length (byteLength shown - column)) 1) '^' := by
    simp [caretMargin, List.mem_replicate]
  refine ⟨first.splitOn '\n', ?_⟩
  rw [hexcerpt, splitOn_append_cons, splitOn_append_cons, List.splitOn_eq_singleton habove,
    List.splitOn_eq_singleton hbelow]
  rfl

end Excerpt

/-- The carets of a line stand behind its margin. -/
theorem getElem?_caretMargin (number column count index : Nat) :
    (caretMargin number column ++ List.replicate count '^')[index]? = some '^' ↔
      index ∈ Set.Ico ((margin number).length + column)
        ((margin number).length + column + count) := by
  have hmargin : (caretMargin number column)[index]? ≠ some '^' := by
    intro hcaret
    have hmem := List.mem_of_getElem? hcaret
    simp [caretMargin, List.mem_replicate] at hmem
  rw [← length_caretMargin, Set.mem_Ico, List.getElem?_append]
  split
  next hlt => exact iff_of_false hmargin fun hcolumn => absurd hlt (Nat.not_lt.2 hcolumn.1)
  next hge =>
      rw [List.getElem?_replicate, ite_eq_left_iff]
      simp only [reduceCtorEq, imp_false, Decidable.not_not]
      omega

/-! ## Spans on one line -/

/-- A span on one line of a source. It covers the characters `middle`, at least one, and begins
behind the indentation of the line. The line feed belongs to the line that it ends. -/
structure Passage (source : String) (span : Span) where
  /-- The lines in front. -/
  front : List Char
  /-- The spaces and tabs that the line begins with. -/
  indent : List Char
  /-- What stands between the indentation and the span. -/
  before : List Char
  /-- The characters of the span. -/
  middle : List Char
  /-- The rest of the line. -/
  after : List Char
  /-- The lines behind. -/
  back : List Char
  source_eq : source.toList = front ++ ((indent ++ (before ++ (middle ++ after))) ++ back)
  front_ends : front = [] ∨ ∃ earlier, front = earlier ++ ['\n']
  line_plain : '\n' ∉ (indent ++ (before ++ (middle ++ after))).dropLast
  line_ends : back = [] ∨ (indent ++ (before ++ (middle ++ after))).getLast? = some '\n'
  indent_blank : ∀ c ∈ indent, isIndent c = true
  visible : (before ++ middle).head?.all (!isIndent ·)
  middle_ne_nil : middle ≠ []
  start_eq : span.start = byteLength (front ++ (indent ++ before))
  stop_eq : span.stop = byteLength (front ++ (indent ++ (before ++ middle)))

namespace Passage

variable {source : String} {span : Span} (passage : Passage source span)

/-- The line from behind its indentation, with its line feed. -/
def body : List Char :=
  passage.before ++ (passage.middle ++ passage.after)

/-- The line that the carets are counted in: without the line feed and the carriage returns. -/
def shown : List Char :=
  passage.body.rdropWhile isLineEnd

/-- The line that is printed: also without the blanks at its end. -/
def printed : List Char :=
  passage.shown.rdropWhile isBlank

/-- The number of the line. -/
def number : Nat :=
  passage.front.count '\n' + 1

/-- The length of a passage is that of its text in bytes. -/
theorem length_eq : span.length = byteLength passage.middle := by
  rw [Span.length, passage.start_eq, passage.stop_eq]
  simp only [byteLength_append]
  omega

/-- What is shown does not begin with a space or a tab. -/
theorem shown_visible : passage.shown.head?.all (!isIndent ·) := by
  cases hshown : passage.shown with
  | nil => rfl
  | cons c rest =>
      obtain ⟨removed, hbody⟩ := List.rdropWhile_prefix isLineEnd passage.body
      obtain ⟨first, others, hfirst⟩ := List.exists_cons_of_ne_nil
        (List.append_ne_nil_of_right_ne_nil passage.before passage.middle_ne_nil)
      have hvisible := passage.visible
      -- Both lists begin with the first character of the line behind its indentation.
      rw [show passage.body.rdropWhile isLineEnd = c :: rest from hshown, body,
        ← List.append_assoc, hfirst] at hbody
      rw [hfirst, ← (List.cons.inj hbody).1] at hvisible
      exact hvisible

/-- The line of a passage is shown without the line feed and the carriage returns. -/
theorem rdropWhile_line : (passage.indent ++ passage.body).rdropWhile isLineEnd =
    passage.indent ++ passage.shown := by
  refine rdropWhile_append_of_neg (fun c hc => ?_) passage.body
  have hindent : c = ' ' ∨ c = '\t' := by simpa [isIndent] using passage.indent_blank c hc
  rcases hindent with rfl | rfl
  · rfl
  · rfl

/-- Where a line is cut off in front of its line feed, a passage begins on it. -/
theorem exists_content : ∃ inner ending,
    passage.middle ++ passage.after ++ passage.back = inner ++ ending ∧
      '\n' ∉ passage.indent ++ (passage.before ++ inner) ∧ ending.head?.all (· = '\n') ∧
      trimReturns (passage.indent ++ (passage.before ++ inner)) =
        passage.indent ++ passage.shown := by
  obtain ⟨inner, last, hrest⟩ : ∃ inner last, passage.middle ++ passage.after = inner ++ [last] :=
    (List.eq_nil_or_concat' (passage.middle ++ passage.after)).resolve_left
      (List.append_ne_nil_of_left_ne_nil passage.middle_ne_nil passage.after)
  have hline : passage.indent ++ (passage.before ++ (passage.middle ++ passage.after)) =
      passage.indent ++ (passage.before ++ inner) ++ [last] := by
    rw [hrest, List.append_assoc, List.append_assoc]
  have hplain := passage.line_plain
  rw [hline, List.dropLast_concat] at hplain
  have hshown := passage.rdropWhile_line
  rw [body, hline] at hshown
  by_cases hlast : last = '\n'
  · subst hlast
    refine ⟨inner, '\n' :: passage.back, ?_, hplain, rfl, ?_⟩
    · rw [hrest, List.append_assoc, List.singleton_append]
    · rw [← hshown, ← rdropWhile_isLineEnd hplain, List.rdropWhile_concat_pos _ _ _ rfl]
  · have hends := passage.line_ends
    rw [hline, List.getLast?_concat] at hends
    have hback : passage.back = [] := hends.resolve_right fun h => hlast (Option.some.inj h)
    have hwhole : '\n' ∉ passage.indent ++ (passage.before ++ (inner ++ [last])) := by
      rw [← List.append_assoc passage.before, ← List.append_assoc passage.indent]
      exact fun hmem => (List.mem_append.1 hmem).elim hplain fun h =>
        hlast (List.mem_singleton.1 h).symm
    refine ⟨inner ++ [last], [], by rw [hrest, hback], hwhole, rfl, ?_⟩
    rw [← hshown, ← rdropWhile_isLineEnd hwhole, List.append_assoc, List.append_assoc]

/-- The start of a passage is on its line. -/
theorem lineAt_eq : lineAt source.toList span.start =
    ⟨passage.number, passage.indent ++ passage.shown,
      byteLength passage.indent + byteLength passage.before⟩ := by
  obtain ⟨inner, ending, hrest, hplain, hending, hshown⟩ := passage.exists_content
  have hlengths := congrArg byteLength hrest
  simp only [byteLength_append] at hlengths
  have hmiddle := byteLength_pos passage.middle_ne_nil
  have hlocated : Located 1 span.start passage.front
      (passage.indent ++ (passage.before ++ inner)) ending
      ⟨passage.number, passage.indent ++ passage.shown,
        byteLength passage.indent + byteLength passage.before⟩ := by
    refine ⟨passage.front_ends, hplain, hending, Nat.add_comm _ _, ?_, ?_, ?_⟩
    · rw [passage.start_eq, byteLength_append, byteLength_append]
    · simp only [byteLength_append]
      omega
    · rw [if_neg, hshown]
      rintro ⟨rfl, hcolumn⟩
      simp only [byteLength_append, byteLength_nil] at hcolumn hlengths
      omega
  refine hlocated.lineAt_eq ?_
  rw [passage.source_eq]
  simp only [List.append_assoc] at hrest ⊢
  rw [hrest]

/-- What is printed of a line is its front. -/
theorem printed_prefix : passage.printed <+: passage.shown :=
  List.rdropWhile_prefix isBlank passage.shown

/-- Where a passage begins on the printed line, the line goes on with it. Only its line end may be
missing. -/
theorem exists_tail (h : passage.before.length < passage.printed.length) :
    ∃ tail, passage.shown = passage.before ++ tail ∧
      ((∃ more, tail = passage.middle ++ more) ∨
        ∃ more, passage.middle = tail ++ more ∧ ∀ c ∈ more, c.utf8Size = 1) := by
  have hbody : passage.shown ++ passage.body.rtakeWhile isLineEnd = passage.body :=
    List.rdropWhile_append_rtakeWhile
  have hlength := passage.printed_prefix.length_le
  obtain ⟨tail, htail⟩ : passage.before <+: passage.shown :=
    List.prefix_of_prefix_length_le (List.prefix_append _ _) ⟨_, hbody⟩ (by omega)
  refine ⟨tail, htail.symm, ?_⟩
  rw [← htail, body, List.append_assoc, List.append_cancel_left_eq] at hbody
  rcases List.append_eq_append_iff.1 hbody with ⟨more, hmiddle, hmore⟩ | ⟨more, htail', -⟩
  · refine .inr ⟨more, hmiddle, fun c hc => ?_⟩
    have hend : isLineEnd c = true :=
      List.mem_rtakeWhile_imp (hmore ▸ List.mem_append_left _ hc)
    have hcases : c = '\n' ∨ c = '\r' := by simpa [isLineEnd] using hend
    rcases hcases with rfl | rfl
    · rfl
    · rfl
  · exact .inl ⟨more, htail'⟩

/-- The carets for a passage, which are counted in bytes before blanks are removed. -/
def carets : Nat :=
  max (min (byteLength passage.middle) (byteLength passage.shown - byteLength passage.before)) 1

/-- The carets of the line `below` stand exactly under the characters of the passage in the printed
line `above`, and none of them behind the end of that line. -/
def PointedAt (above below : List Char) : Prop :=
  ∀ column, below[column]? = some '^' ↔
    column ∈ Set.Ico ((margin passage.number).length + passage.before.length)
      ((margin passage.number).length + passage.before.length + passage.middle.length) ∧
    column < above.length

/-- The passage and what is in front of it on its line have one byte a character, the passage begins
on the printed line, and it does not go on in blanks that are removed from its end. -/
def Plain : Prop :=
  (∀ c ∈ passage.before ++ passage.middle, c.utf8Size = 1) ∧
    passage.before.length < passage.printed.length ∧
    (passage.before.length + passage.middle.length ≤ passage.printed.length ∨
      passage.printed = passage.shown)

/-- Bytes do for characters, and the line that is counted in for the one that is printed, exactly if
the passage is plain. -/
theorem plain_iff : passage.Plain ↔
    byteLength passage.before = passage.before.length ∧
      passage.before.length + passage.carets =
        min (passage.before.length + passage.middle.length) passage.printed.length := by
  have hcarets : 1 ≤ passage.carets := Nat.le_max_right _ 1
  by_cases hbegins : passage.before.length < passage.printed.length
  · obtain ⟨tail, hshown, htail⟩ := passage.exists_tail hbegins
    have hwhole : passage.printed = passage.shown ↔
        passage.printed.length = passage.before.length + tail.length := by
      rw [← List.length_append, ← hshown]
      exact ⟨congrArg List.length, passage.printed_prefix.eq_of_length⟩
    have hprinted := passage.printed_prefix.length_le
    have hbefore := length_le_byteLength passage.before
    have hbytes := length_le_byteLength tail
    rw [hshown, List.length_append] at hprinted
    rw [Plain, hwhole, ← byteLength_eq_length_iff, carets, hshown]
    -- A line that goes on behind the passage has a caret for each of its bytes, and one that ends
    -- inside it a caret for each byte that is left.
    rcases htail with ⟨more, rfl⟩ | ⟨more, hmiddle, hmore⟩
    · have hmiddle := length_le_byteLength passage.middle
      have hpos := List.length_pos_iff.2 passage.middle_ne_nil
      simp only [byteLength_append, List.length_append] at hprinted hbytes ⊢
      omega
    · rw [← byteLength_eq_length_iff] at hmore
      rw [hmiddle]
      simp only [byteLength_append, List.length_append]
      omega
  · refine iff_of_false (fun hplain => hbegins hplain.2.1) ?_
    rintro ⟨-, hend⟩
    omega

end Passage

/-- Two ranges of columns, of which the second is cut off at the end of a line, are the same if they
begin and end together. -/
theorem columns_iff {width place start count length limit : Nat} (hcount : 1 ≤ count) :
    (∀ column, column ∈ Set.Ico (width + place) (width + place + count) ↔
      column ∈ Set.Ico (width + start) (width + start + length) ∧ column < width + limit) ↔
      place = start ∧ start + count = min (start + length) limit := by
  simp only [Set.mem_Ico]
  constructor
  · intro hsame
    have hfirst := hsame (width + place)
    have hother := hsame (width + start)
    have hlast := hsame (width + place + count - 1)
    have hbehind := hsame (width + place + count)
    omega
  · rintro ⟨rfl, hend⟩ column
    omega

/-- For a passage the last two lines are the line without its indentation and the blanks at its end,
and carets that begin as many columns behind the margin as there are bytes in front of the passage.
They stand exactly under its characters, as far as these are printed, if it is plain, and only
then. -/
theorem diagnostic_points (source file : String) (diagnostic : Diagnostic)
    (passage : Passage source diagnostic.span) :
    ∃ earlier above below,
      (Report.diagnostic source file diagnostic).toList.splitOn '\n' =
        earlier ++ [above, below] ∧
      above = margin passage.number ++ passage.printed ∧
      (∀ column, below[column]? = some '^' ↔
        column ∈ Set.Ico ((margin passage.number).length + byteLength passage.before)
          ((margin passage.number).length + byteLength passage.before + passage.carets)) ∧
      (passage.PointedAt above below ↔ passage.Plain) := by
  obtain ⟨earlier, hlines⟩ := splitOn_excerpt
    (diagnostic.severity.heading ++ ": " ++ diagnostic.message) file passage.indent_blank
    passage.shown_visible passage.lineAt_eq
  rw [passage.length_eq] at hlines
  refine ⟨earlier, _, _, hlines, rfl, getElem?_caretMargin _ _ _, ?_⟩
  simp only [Passage.PointedAt, getElem?_caretMargin, List.length_append]
  rw [passage.plain_iff]
  exact columns_iff (Nat.le_max_right _ 1)

/-- The end of a statement with a carriage return behind it, on an indented line. -/
theorem diagnostic_points_indented :
    ∃ passage : Passage "a\n\tx=1;\r\n" ⟨5, 8⟩,
      passage.middle = ['1', ';', '\r'] ∧ passage.Plain ∧
      ∃ earlier above below,
        (Report.diagnostic "a\n\tx=1;\r\n" "test.sc" ⟨⟨5, 8⟩, "m", .error⟩).toList.splitOn '\n' =
          earlier ++ [above, below] ∧ passage.PointedAt above below := by
  let passage : Passage "a\n\tx=1;\r\n" ⟨5, 8⟩ :=
    ⟨['a', '\n'], ['\t'], ['x', '='], ['1', ';', '\r'], ['\n'], [], by decide, .inr ⟨['a'], rfl⟩,
      by decide, .inl rfl, List.forall_mem_singleton.2 rfl, rfl, by decide, rfl, rfl⟩
  have hplain : passage.Plain := ⟨byteLength_eq_length_iff.1 rfl, by decide, .inr (by decide)⟩
  obtain ⟨earlier, above, below, hlines, -, -, hpoints⟩ :=
    diagnostic_points "a\n\tx=1;\r\n" "test.sc" ⟨⟨5, 8⟩, "m", .error⟩ passage
  exact ⟨passage, rfl, hplain, earlier, above, below, hlines, hpoints.2 hplain⟩

/-- Blanks at the end of a line get carets though they are not printed, and so does every byte of a
character. -/
theorem diagnostic_exceeds_line :
    (∃ passage : Passage "x  " ⟨0, 3⟩,
      Report.diagnostic "x  " "test.sc" ⟨⟨0, 3⟩, "m", .error⟩ =
        "error: m\n-> test.sc:1:1\n  |\n1 | x\n  | ^^^" ∧
      ¬passage.PointedAt "1 | x".toList "  | ^^^".toList) ∧
    ∃ passage : Passage "é" ⟨0, 2⟩,
      Report.diagnostic "é" "test.sc" ⟨⟨0, 2⟩, "m", .error⟩ =
        "error: m\n-> test.sc:1:1\n  |\n1 | é\n  | ^^" ∧
      ¬passage.PointedAt "1 | é".toList "  | ^^".toList := by
  let blanks : Passage "x  " ⟨0, 3⟩ := ⟨[], [], [], ['x', ' ', ' '], [], [], rfl, .inl rfl,
    by decide, .inl rfl, List.forall_mem_nil _, rfl, by decide, rfl, rfl⟩
  let letter : Passage "é" ⟨0, 2⟩ := ⟨[], [], [], ['é'], [], [], rfl, .inl rfl, by decide, .inl rfl,
    List.forall_mem_nil _, rfl, by decide, rfl, rfl⟩
  refine ⟨⟨blanks, by decide +kernel, fun hpoints => ?_⟩, letter, by decide +kernel,
    fun hpoints => ?_⟩
  -- In both lines the sixth column has a caret, and the printed line has five.
  · exact absurd ((hpoints 5).1 rfl).2 (by decide)
  · exact absurd ((hpoints 5).1 rfl).2 (by decide)

end Report

end ScriptLint
