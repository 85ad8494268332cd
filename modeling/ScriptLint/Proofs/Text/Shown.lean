import Mathlib
import ScriptLint.Proofs.Text.Lines
import ScriptLint.Proofs.Token.Places

/-!
# The text shown for a line

An offset is shown with the text of its line. `Located` fixes everything that is shown: of two ways
to cut a text into whole lines, the line of an offset and the rest, both give the same location
(`Located.lineAt_eq`).

All offsets on a line show it without the line feed and the carriage returns at its end, but for the
end of the text, where a carriage return is kept. `lineAt_shows` says when this makes a difference.
-/

namespace ScriptLint.Text

/-- Whether a character is removed from the end of a line. -/
def isLineEnd (c : Char) : Bool :=
  c == '\n' || c == '\r'

/-- The line of a source with a given number, counted from one, without its line feed. -/
def numbered? (source : String) (number : Nat) : Option (List Char) :=
  (source.toList.splitOn '\n')[number - 1]?

/-- The lines of a text are its pieces between line feeds. -/
theorem pieces_eq_splitOn (separator : Char) (text : List Char) :
    pieces separator text = text.splitOn separator := by
  induction text with
  | nil => rfl
  | cons c rest ih =>
      obtain ⟨piece, later, hpieces⟩ := List.exists_cons_of_ne_nil (pieces_ne_nil separator rest)
      have hrest : rest.splitOnP (· == separator) = piece :: later := ih.symm.trans hpieces
      rw [pieces, hpieces, List.splitOn, List.splitOnP_cons_eq_if_modifyHead, hrest]
      simp only [beq_iff_eq, List.modifyHead_cons]

/-- A separator between two texts separates their pieces. -/
theorem splitOn_append_cons (separator : Char) (first second : List Char) :
    (first ++ separator :: second).splitOn separator =
      first.splitOn separator ++ second.splitOn separator :=
  List.splitOnP_append_cons first second (beq_self_eq_true separator)

/-- There is one piece more than there are separators. -/
theorem length_splitOn (separator : Char) (text : List Char) :
    (text.splitOn separator).length = text.count separator + 1 := by
  rw [← pieces_eq_splitOn, length_pieces]

/-- Only carriage returns are removed from the end of a line that is cut off at its line feed. -/
theorem rdropWhile_isLineEnd {line : List Char} (hplain : '\n' ∉ line) :
    line.rdropWhile isLineEnd = trimReturns line := by
  induction line using List.reverseRecOn with
  | nil => rfl
  | append_singleton line c ih =>
      have hc : c ≠ '\n' := fun hfeed => hplain (by simp [hfeed])
      have hline : '\n' ∉ line := fun hmem => hplain (List.mem_append_left _ hmem)
      have htrim : trimReturns (line ++ [c]) = (line ++ [c]).rdropWhile (· == '\r') := rfl
      have hend : isLineEnd c = (c == '\r') := by simp [isLineEnd, hc]
      rw [htrim, List.rdropWhile_concat, List.rdropWhile_concat, ih hline, hend]
      rfl

/-- Only the empty text has no bytes. -/
theorem byteLength_eq_zero {text : List Char} : byteLength text = 0 ↔ text = [] := by
  constructor
  · intro hzero
    by_contra hne
    exact Nat.ne_of_gt (byteLength_pos hne) hzero
  · rintro rfl
    rfl

namespace Located

variable {source : String} {number offset : Nat} {front line back : List Char} {place : Location}

/-- The line of an offset is the one that its number gives. -/
theorem splitOn_eq (h : Located number offset front line back place) :
    ((front ++ (line ++ back)).splitOn '\n')[front.count '\n']? = some line := by
  have hline : ((line ++ back).splitOn '\n')[0]? = some line := by
    have hfirst : line.splitOn '\n' = [line] := List.splitOn_eq_singleton h.line_plain
    cases back with
    | nil => rw [List.append_nil, hfirst, List.getElem?_cons_zero]
    | cons c rest =>
        obtain rfl : c = '\n' := by simpa using h.back_begins
        rw [splitOn_append_cons, hfirst, List.singleton_append, List.getElem?_cons_zero]
  rcases h.front_ends with rfl | ⟨earlier, rfl⟩
  · exact hline
  · have hcount : (earlier ++ ['\n']).count '\n' = (earlier.splitOn '\n').length := by
      rw [length_splitOn, List.count_append, List.count_singleton_self]
    rw [hcount, List.append_assoc, List.singleton_append, splitOn_append_cons,
      List.getElem?_append_right (Nat.le_refl _), Nat.sub_self, hline]

/-- The line of a location has the number of the location. -/
theorem numbered?_eq (h : Located 1 offset front line back place)
    (hsource : source.toList = front ++ (line ++ back)) :
    numbered? source place.line = some line := by
  rw [numbered?, h.line_eq, Nat.add_sub_cancel_left, hsource, h.splitOn_eq]

/-- The line is shown whole at the end of the text, and without its carriage returns elsewhere. -/
theorem shown_eq (h : Located number offset front line back place) :
    place.text =
      if byteLength (front ++ (line ++ back)) ≤ offset then line else trimReturns line := by
  have hend : byteLength (front ++ (line ++ back)) ≤ offset ↔
      back = [] ∧ place.column = byteLength line := by
    have hcolumn := h.column_le
    rw [h.offset_eq, byteLength_append, byteLength_append, ← byteLength_eq_zero]
    omega
  rw [h.text_eq, if_congr hend rfl rfl]

/-- A text shows an offset in one way. -/
theorem unique (h : Located 1 offset front line back place) {front' line' back' : List Char}
    {place' : Location} (h' : Located 1 offset front' line' back' place')
    (htext : front ++ (line ++ back) = front' ++ (line' ++ back')) : place = place' := by
  let source := String.ofList (front ++ (line ++ back))
  have hsource : source.toList = front ++ (line ++ back) := String.toList_ofList
  have hsource' : source.toList = front' ++ (line' ++ back') := hsource.trans htext
  -- The offset has the same line feeds in front of it in both, so both lines have the same number
  -- and begin at the same byte.
  have hcount : front.count '\n' = front'.count '\n' :=
    (h.count_feedAt hsource).symm.trans (h'.count_feedAt hsource')
  have hfront : byteLength front = byteLength front' := by
    rw [h.byteLength_front hsource, h'.byteLength_front hsource', hcount]
  have hcolumn : place.column = place'.column := by
    have hoffset := h.offset_eq.symm.trans h'.offset_eq
    omega
  have hlines : place.line = place'.line := by rw [h.line_eq, h'.line_eq, hcount]
  obtain rfl : line = line' := by
    have hline := h.numbered?_eq hsource
    rw [hlines, h'.numbered?_eq hsource'] at hline
    exact (Option.some.inj hline).symm
  have hshown : place.text = place'.text := by rw [h.shown_eq, h'.shown_eq, htext]
  cases place
  cases place'
  cases hlines
  cases hcolumn
  cases hshown
  rfl

/-- The location of an offset, given the line that it is on. -/
theorem lineAt_eq (h : Located 1 offset front line back place)
    (hsource : source.toList = front ++ (line ++ back)) : lineAt source.toList offset = place := by
  have hle : offset ≤ byteLength source.toList := by
    have hcolumn := h.column_le
    rw [hsource, h.offset_eq, byteLength_append, byteLength_append]
    omega
  obtain ⟨front', line', back', hsource', hlocated⟩ := exists_located 1 hle
  rw [lineAt, Nat.min_eq_left hle]
  exact hlocated.unique h (hsource'.symm.trans hsource)

end Located

/-! ## The end of the text -/

/-- Where a position is shown, and the line that is shown there. -/
theorem exists_located_lineAt (source : String) (position : Nat) :
    ∃ front line back, source.toList = front ++ (line ++ back) ∧
      Located 1 (min position (byteLength source.toList)) front line back
        (lineAt source.toList position) :=
  exists_located 1 (Nat.min_le_right position (byteLength source.toList))

/-- The text of a location is its line, without the end of the line unless the offset is at the end
of the text. -/
theorem lineAt_text (source : String) (position : Nat) :
    ∃ line, numbered? source (lineAt source.toList position).line = some line ∧
      (lineAt source.toList position).text =
        if source.utf8ByteSize ≤ position then line else line.rdropWhile isLineEnd := by
  obtain ⟨front, line, back, hsource, hlocated⟩ := exists_located_lineAt source position
  have hend : byteLength source.toList ≤ min position (byteLength source.toList) ↔
      source.utf8ByteSize ≤ position := by
    rw [utf8ByteSize_eq]
    omega
  refine ⟨line, hlocated.numbered?_eq hsource, ?_⟩
  rw [hlocated.shown_eq, ← hsource, if_congr hend rfl rfl, rdropWhile_isLineEnd hlocated.line_plain]

/-- A line that is shown whole at the end of the text ends like the text. -/
theorem Located.getLast?_line {offset : Nat} {front line : List Char} {place : Location}
    (h : Located 1 offset front line [] place) :
    line.getLast? = some '\r' ↔ (front ++ line).getLast? = some '\r' := by
  rw [List.getLast?_append]
  cases hlast : line.getLast? with
  | some c => simp
  | none =>
      rcases h.front_ends with rfl | ⟨earlier, rfl⟩
      · simp
      · simp

/-- Nothing is removed from a line that does not end in a carriage return. -/
theorem rdropWhile_isLineEnd_eq_self {line : List Char} (hplain : '\n' ∉ line) :
    line.rdropWhile isLineEnd = line ↔ line.getLast? ≠ some '\r' := by
  rw [List.rdropWhile_eq_self_iff]
  cases line using List.reverseRecOn with
  | nil => simp
  | append_singleton line c =>
      have hc : c ≠ '\n' := fun hfeed => hplain (by simp [hfeed])
      simp [isLineEnd, hc]

/-- The line at the end of the text, which is shown whole, ends in a carriage return if the text
does. -/
theorem numbered?_end (source : String) :
    ∃ line, numbered? source (lineAt source.toList source.utf8ByteSize).line = some line ∧
      (lineAt source.toList source.utf8ByteSize).text = line ∧
      (line.rdropWhile isLineEnd = line ↔ source.toList.getLast? ≠ some '\r') := by
  obtain ⟨front, line, back, hsource, hlocated⟩ := exists_located_lineAt source source.utf8ByteSize
  rw [utf8ByteSize_eq, Nat.min_self] at hlocated
  rw [utf8ByteSize_eq]
  obtain rfl : back = [] := by
    have hoffset := hlocated.offset_eq
    have hcolumn := hlocated.column_le
    have hlength := congrArg byteLength hsource
    rw [byteLength_append, byteLength_append] at hlength
    exact byteLength_eq_zero.1 (by omega)
  rw [List.append_nil] at hsource
  refine ⟨line, hlocated.numbered?_eq (by rw [hsource, List.append_nil]), ?_, ?_⟩
  · rw [hlocated.shown_eq, List.append_nil, if_pos (by rw [hsource])]
  · rw [rdropWhile_isLineEnd_eq_self hlocated.line_plain, ne_eq, hlocated.getLast?_line, hsource]

/-- A carriage return at the end of the text does not begin a line. -/
theorem lineAt_line_of_return {source : String} {front : List Char}
    (h : source.toList = front ++ ['\r']) :
    (lineAt source.toList (byteLength front)).line =
      (lineAt source.toList source.utf8ByteSize).line := by
  have hend := lineAt_line source.toList []
  rw [List.append_nil, ← utf8ByteSize_eq] at hend
  rw [hend, h, lineAt_line, List.count_append]
  rfl

/-- Beyond the end of the text the location is that of the end. -/
theorem lineAt_of_le {source : String} {position : Nat} (h : source.utf8ByteSize ≤ position) :
    lineAt source.toList position = lineAt source.toList source.utf8ByteSize := by
  rw [utf8ByteSize_eq] at h ⊢
  rw [lineAt, lineAt, Nat.min_eq_right h, Nat.min_self]

/-- The text that is shown for an offset is its line without the line feed and the carriage returns
at its end, or the whole line if the offset is the end of the text. So it depends only on the number
of the line, and is always without them, exactly if the text does not end in a carriage return. -/
theorem lineAt_shows (source : String) :
    (∀ position, ∃ line,
      numbered? source (lineAt source.toList position).line = some line ∧
      (lineAt source.toList position).text =
        if source.utf8ByteSize ≤ position then line else line.rdropWhile isLineEnd) ∧
    ((∀ first second,
      (lineAt source.toList first).line = (lineAt source.toList second).line →
        (lineAt source.toList first).text = (lineAt source.toList second).text) ↔
      source.toList.getLast? ≠ some '\r') ∧
    ((∀ position, ∃ line,
      numbered? source (lineAt source.toList position).line = some line ∧
      (lineAt source.toList position).text = line.rdropWhile isLineEnd) ↔
      source.toList.getLast? ≠ some '\r') := by
  have htext := lineAt_text source
  obtain ⟨last, hlast, hshown, hwhole⟩ := numbered?_end source
  have hplain : source.toList.getLast? ≠ some '\r' → ∀ position, ∃ line,
      numbered? source (lineAt source.toList position).line = some line ∧
      (lineAt source.toList position).text = line.rdropWhile isLineEnd := by
    intro hreturn position
    by_cases hend : source.utf8ByteSize ≤ position
    · rw [lineAt_of_le hend]
      exact ⟨last, hlast, hshown.trans (hwhole.2 hreturn).symm⟩
    · obtain ⟨line, hnumbered, hline⟩ := htext position
      exact ⟨line, hnumbered, hline.trans (if_neg hend)⟩
  refine ⟨htext, ⟨?_, ?_⟩, ⟨?_, hplain⟩⟩
  · intro hsame hreturn
    -- The two offsets around the carriage return are on one line, and only the first is shown
    -- without it.
    obtain ⟨front, hfront⟩ := List.getLast?_eq_some_iff.1 hreturn
    have hline := lineAt_line_of_return hfront
    obtain ⟨line, hnumbered, hbefore⟩ := htext (byteLength front)
    rw [hline, hlast] at hnumbered
    cases hnumbered
    have hlt : byteLength front < source.utf8ByteSize := by
      rw [utf8ByteSize_eq, hfront, byteLength_append]
      exact Nat.lt_add_of_pos_right (by decide)
    rw [if_neg (Nat.not_le.2 hlt), hsame _ _ hline, hshown] at hbefore
    exact hwhole.1 hbefore.symm hreturn
  · intro hreturn first second hline
    obtain ⟨line, hnumbered, hfirst⟩ := hplain hreturn first
    obtain ⟨other, hother, hsecond⟩ := hplain hreturn second
    rw [hline, hother] at hnumbered
    cases hnumbered
    rw [hfirst, hsecond]
  · intro hall
    obtain ⟨line, hnumbered, hend⟩ := hall source.utf8ByteSize
    rw [hlast] at hnumbered
    cases hnumbered
    rw [hshown] at hend
    exact hwhole.1 hend.symm

/-- The line `a` with a carriage return behind it is shown with it at its end only. -/
theorem lineAt_end_keeps_return :
    (lineAt "a\r".toList 0).line = (lineAt "a\r".toList 2).line ∧
      (lineAt "a\r".toList 0).text = ['a'] ∧ (lineAt "a\r".toList 2).text = ['a', '\r'] := by
  decide +kernel

end ScriptLint.Text
