import Mathlib
import ScriptLint.Proofs.Text.Embedding

/-!
# Lines and columns

Finding the line of an offset splits the text into the lines in front, that line and what follows:
`exists_located`. So the number of the line counts the line feeds in front of the offset, among the
bytes that the text has in UTF-8, and the column counts the bytes behind the last of them. A line
and a column tell which offset they are of. The end of a line, which is looked for in another way,
is on that line.
-/

namespace ScriptLint.Text

/-! ## The line of an offset -/

/-- The first piece of a text is the text up to the first separator, and the other pieces are those
of what follows it. -/
theorem pieces_cases {separator : Char} {text line : List Char} {later : List (List Char)}
    (h : pieces separator text = line :: later) :
    separator ∉ line ∧ ((later = [] ∧ text = line) ∨
      ∃ rest, text = line ++ separator :: rest ∧ later = pieces separator rest) := by
  induction text generalizing line with
  | nil =>
      cases h
      exact ⟨List.not_mem_nil, .inl ⟨rfl, rfl⟩⟩
  | cons c rest ih =>
      rw [pieces] at h
      split at h
      next hc =>
          subst hc
          cases h
          exact ⟨List.not_mem_nil, .inr ⟨rest, rfl, rfl⟩⟩
      next hc =>
          obtain ⟨piece, more, hpieces⟩ := List.exists_cons_of_ne_nil
            (pieces_ne_nil separator rest)
          rw [hpieces] at h
          cases h
          obtain ⟨hnone, hcases⟩ := ih hpieces
          refine ⟨List.not_mem_cons_of_ne_of_not_mem (Ne.symm hc) hnone, ?_⟩
          rcases hcases with ⟨hlater, rfl⟩ | ⟨after, rfl, hlater⟩
          · exact .inl ⟨hlater, rfl⟩
          · exact .inr ⟨after, rfl, hlater⟩

/-- A line with others behind it owns the line feed that ends it. -/
theorem locate_of_ne_nil {later : List (List Char)} (h : later ≠ []) (number offset : Nat)
    (line : List Char) :
    locate number offset (line :: later) =
      if offset ≤ byteLength line then ⟨number, trimReturns line, offset⟩
      else locate (number + 1) (offset - (byteLength line + 1)) later := by
  cases later with
  | nil => exact absurd rfl h
  | cons next later => rfl

/-- A location is that of an offset into a text which is a whole number of lines `front`, the line
of the offset, and what follows it. The lines are counted from `number`. -/
structure Located (number offset : Nat) (front line back : List Char) (place : Location) :
    Prop where
  front_ends : front = [] ∨ ∃ earlier, front = earlier ++ ['\n']
  line_plain : '\n' ∉ line
  back_begins : back.head?.all (· = '\n')
  line_eq : place.line = number + front.count '\n'
  offset_eq : offset = byteLength front + place.column
  column_le : place.column ≤ byteLength line
  /-- Only at the very end of the text is the line shown with its carriage returns. -/
  text_eq : place.text =
    if back = [] ∧ place.column = byteLength line then line else trimReturns line

/-- A line in front makes the number and the offset greater. -/
theorem Located.behind {number offset : Nat} {front line back first : List Char} {place : Location}
    (h : Located (number + 1) offset front line back place) (hfirst : '\n' ∉ first) :
    Located number (byteLength first + 1 + offset) (first ++ '\n' :: front) line back place where
  front_ends := by
    refine .inr ?_
    rcases h.front_ends with rfl | ⟨earlier, rfl⟩
    · exact ⟨first, rfl⟩
    · exact ⟨first ++ '\n' :: earlier, by simp⟩
  line_plain := h.line_plain
  back_begins := h.back_begins
  line_eq := by
    rw [h.line_eq, List.count_append, List.count_eq_zero_of_not_mem hfirst, List.count_cons_self]
    omega
  offset_eq := by
    have hsize : Char.utf8Size '\n' = 1 := by decide
    rw [byteLength_append, byteLength_cons, hsize, h.offset_eq]
    omega
  column_le := h.column_le
  text_eq := h.text_eq

/-- Every offset into a text lies on one of its lines. -/
theorem exists_located (number : Nat) {offset : Nat} {text : List Char}
    (h : offset ≤ byteLength text) :
    ∃ front line back, text = front ++ (line ++ back) ∧
      Located number offset front line back (locate number offset (pieces '\n' text)) := by
  -- The lines are walked one by one, so the induction is on them and not on the text.
  induction hlines : pieces '\n' text generalizing number offset text with
  | nil => exact absurd hlines (pieces_ne_nil '\n' text)
  | cons line later ih =>
      obtain ⟨hplain, ⟨rfl, rfl⟩ | ⟨rest, rfl, rfl⟩⟩ := pieces_cases hlines
      · rw [locate]
        split
        next hlt =>
            exact ⟨[], text, [], by simp, .inl rfl, hplain, rfl, rfl, (Nat.zero_add _).symm,
              Nat.le_of_lt hlt, by simp [Nat.ne_of_lt hlt]⟩
        next hge =>
            have hend : offset = byteLength text := Nat.le_antisymm h (Nat.le_of_not_lt hge)
            exact ⟨[], text, [], by simp, .inl rfl, hplain, rfl, rfl, by simp [hend], Nat.le_refl _,
              by simp⟩
      · rw [locate_of_ne_nil (pieces_ne_nil '\n' rest)]
        split
        next hle =>
            exact ⟨[], line, '\n' :: rest, rfl, .inl rfl, hplain, rfl, rfl, (Nat.zero_add _).symm,
              hle, by simp⟩
        next hgt =>
            have hsize : Char.utf8Size '\n' = 1 := by decide
            rw [byteLength_append, byteLength_cons, hsize] at h
            have hrest : offset - (byteLength line + 1) ≤ byteLength rest := by omega
            obtain ⟨front, current, back, htext, hlocated⟩ := ih (number + 1) hrest rfl
            refine ⟨line ++ '\n' :: front, current, back, by simp [htext], ?_⟩
            have hbehind := hlocated.behind hplain
            rwa [Nat.add_sub_cancel' (by omega)] at hbehind

/-! ## Bytes and line feeds -/

/-- The bytes of a text in UTF-8. -/
def utf8 (text : List Char) : List UInt8 :=
  text.flatMap String.utf8EncodeChar

/-- The bytes of a text are those of its parts. -/
theorem utf8_append (first second : List Char) :
    utf8 (first ++ second) = utf8 first ++ utf8 second :=
  List.flatMap_append

/-- A text is as long as the number of its bytes. -/
theorem length_utf8 (text : List Char) : (utf8 text).length = byteLength text := by
  induction text with
  | nil => rfl
  | cons c rest ih =>
      rw [byteLength_cons, ← ih, ← String.length_utf8EncodeChar, ← List.length_append]
      rfl

/-- The bytes of a text are its UTF-8 form. -/
theorem toUTF8_eq (source : String) : source.toUTF8.data.toList = utf8 source.toList := by
  rw [String.toUTF8_eq_toByteArray, ← String.utf8Encode_toList]
  simp [List.utf8Encode, utf8]

/-- The size of a text in UTF-8 is its length in bytes. -/
theorem utf8ByteSize_eq (source : String) : source.utf8ByteSize = byteLength source.toList := by
  rw [← length_utf8, ← toUTF8_eq]
  rfl

/-- The byte of a line feed belongs to no other character. -/
theorem ten_notMem_utf8EncodeChar {c : Char} (h : c ≠ '\n') : 10 ∉ String.utf8EncodeChar c := by
  have hne : c.val.toNat ≠ 10 := fun hten => h (Char.ext (UInt32.toNat_inj.1 hten))
  have hbyte : ∀ number : Nat, number ≠ 10 → number < 256 → 10 ≠ UInt8.ofNat number := by
    intro number hnumber hlt heq
    have hten := congrArg UInt8.toNat heq
    rw [UInt8.toNat_ofNat_of_lt' (show number < UInt8.size from hlt)] at hten
    exact hnumber hten.symm
  -- In a form of several bytes all of them are 128 or more.
  unfold String.utf8EncodeChar
  dsimp only
  split
  · exact List.not_mem_cons_of_ne_of_not_mem (hbyte _ hne (by omega)) List.not_mem_nil
  split
  · simp only [List.mem_cons, List.not_mem_nil, or_false, not_or]
    exact ⟨hbyte _ (by omega) (by omega), hbyte _ (by omega) (by omega)⟩
  split
  · simp only [List.mem_cons, List.not_mem_nil, or_false, not_or]
    exact ⟨hbyte _ (by omega) (by omega), hbyte _ (by omega) (by omega),
      hbyte _ (by omega) (by omega)⟩
  · simp only [List.mem_cons, List.not_mem_nil, or_false, not_or]
    exact ⟨hbyte _ (by omega) (by omega), hbyte _ (by omega) (by omega),
      hbyte _ (by omega) (by omega), hbyte _ (by omega) (by omega)⟩

/-- No character but the line feed has its byte. -/
theorem count_utf8 (text : List Char) : (utf8 text).count 10 = text.count '\n' := by
  induction text with
  | nil => rfl
  | cons c rest ih =>
      have hcons : utf8 (c :: rest) = String.utf8EncodeChar c ++ utf8 rest := rfl
      rw [hcons, List.count_append, ih]
      by_cases hc : c = '\n'
      · subst hc
        rw [List.count_cons_self, Nat.add_comm]
        rfl
      · rw [List.count_eq_zero_of_not_mem (ten_notMem_utf8EncodeChar hc), Nat.zero_add,
          List.count_cons_of_ne hc]

/-- A line feed, which is the byte 10, stands at an offset of the source. -/
def FeedAt (source : String) (index : Nat) : Prop :=
  source.toUTF8.data.toList[index]? = some 10

instance (source : String) : DecidablePred (FeedAt source) :=
  fun _ => inferInstanceAs (Decidable (_ = _))

/-- The line feeds in front of an offset, counted as bytes. -/
theorem count_feedAt (source : String) (offset : Nat) :
    Nat.count (FeedAt source) offset = ((utf8 source.toList).take offset).count 10 := by
  induction offset with
  | zero => rfl
  | succ offset ih =>
      have hfeed : FeedAt source offset ↔ (utf8 source.toList)[offset]? = some 10 := by
        rw [FeedAt, toUTF8_eq]
      simp only [Nat.count_succ, ih, List.take_add_one, List.count_append, hfeed]
      cases (utf8 source.toList)[offset]? with
      | none => rfl
      | some byte => simp [List.count_singleton]

section Line

variable {source : String} {number offset : Nat} {front line back : List Char} {place : Location}

/-- The line feeds in front of an offset are those in front of its line. -/
theorem Located.count_feedAt (h : Located number offset front line back place)
    (hsource : source.toList = front ++ (line ++ back)) :
    Nat.count (FeedAt source) offset = front.count '\n' := by
  have hnone : ((utf8 line).take place.column).count 10 = 0 := by
    have hline : 10 ∉ utf8 line := by
      rw [← List.count_eq_zero, count_utf8]
      exact List.count_eq_zero_of_not_mem h.line_plain
    exact List.count_eq_zero_of_not_mem fun hmem => hline (List.mem_of_mem_take hmem)
  have hcolumn : place.column ≤ (utf8 line).length := by
    rw [length_utf8]
    exact h.column_le
  rw [Text.count_feedAt, hsource, utf8_append, utf8_append, h.offset_eq, ← length_utf8,
    List.take_length_add_append, List.take_append_of_le_length hcolumn, List.count_append, hnone,
    count_utf8, Nat.add_zero]

/-- A line that is not the first one begins behind the last line feed in front of it. -/
theorem Located.byteLength_front (h : Located number offset front line back place)
    (hsource : source.toList = front ++ (line ++ back)) :
    byteLength front = if front.count '\n' = 0 then 0
      else Nat.nth (FeedAt source) (front.count '\n' - 1) + 1 := by
  rcases h.front_ends with rfl | ⟨earlier, rfl⟩
  · rfl
  · have hcount : (earlier ++ ['\n']).count '\n' = earlier.count '\n' + 1 := by simp
    have hbytes : source.toUTF8.data.toList = utf8 earlier ++ 10 :: utf8 (line ++ back) := by
      rw [toUTF8_eq, hsource, List.append_assoc, utf8_append]
      rfl
    have hfeed : FeedAt source (byteLength earlier) := by
      rw [FeedAt, hbytes, ← length_utf8]
      simp
    have hbefore : Nat.count (FeedAt source) (byteLength earlier) = earlier.count '\n' := by
      rw [Text.count_feedAt, ← toUTF8_eq, hbytes, ← length_utf8, List.take_left', count_utf8]
      rfl
    have hnth := Nat.nth_count hfeed
    rw [hcount, if_neg (Nat.succ_ne_zero _), Nat.add_sub_cancel, ← hbefore, hnth, byteLength_append]
    rfl

end Line

/-! ## Lines and columns tell offsets apart -/

/-- The line and the column of an offset, in the order of a text: by lines, and by columns on one
line. -/
def rank (source : String) (offset : Nat) : Nat ×ₗ Nat :=
  toLex ((lineAt source.toList offset).line, (lineAt source.toList offset).column)

/-- The number of a line counts the line feeds in front of the offset, and the column the bytes
behind the last of them. -/
theorem lineAt_feeds (source : String) (position : Nat) :
    let offset := min position source.utf8ByteSize
    let place := lineAt source.toList position
    place.line = Nat.count (FeedAt source) offset + 1 ∧ place.column ≤ offset ∧
      offset - place.column =
        if place.line = 1 then 0 else Nat.nth (FeedAt source) (place.line - 2) + 1 := by
  intro offset place
  have hoffset : offset = min position (byteLength source.toList) := by
    rw [← utf8ByteSize_eq]
  obtain ⟨front, line, back, hsource, hlocated⟩ := exists_located 1 (Nat.min_le_right position
    (byteLength source.toList))
  rw [← hoffset] at hlocated
  have hplace : place = locate 1 offset (pieces '\n' source.toList) := by
    rw [hoffset]
    rfl
  rw [← hplace] at hlocated
  have hline : place.line = front.count '\n' + 1 := hlocated.line_eq.trans (Nat.add_comm _ _)
  have hcolumn := hlocated.offset_eq
  refine ⟨by rw [hlocated.count_feedAt hsource, hline], by omega, ?_⟩
  rw [hcolumn, Nat.add_sub_cancel, hlocated.byteLength_front hsource, hline]
  simp

/-- An offset inside a character has a column of its own, and the end of the text may be on a line
of its own. -/
example : rank "é\n" 1 = toLex (1, 1) ∧ rank "é\n" 3 = toLex (2, 0) := by decide +kernel

/-- The number of a line counts the line feeds in front. -/
theorem lineAt_line (front back : List Char) :
    (lineAt (front ++ back) (byteLength front)).line = front.count '\n' + 1 := by
  obtain ⟨hline, -⟩ := lineAt_feeds (String.ofList (front ++ back)) (byteLength front)
  rw [utf8ByteSize_eq, Text.count_feedAt, String.toList_ofList, byteLength_append,
    Nat.min_eq_left (Nat.le_add_right _ _), ← length_utf8, utf8_append, List.take_left',
    count_utf8, length_utf8] at hline
  · exact hline
  · rfl

/-- A later offset is on a later line, or on the same line in a later column. -/
theorem strictMonoOn_rank (source : String) :
    StrictMonoOn (rank source) (Set.Iic source.utf8ByteSize) := by
  intro first hfirst second hsecond hlt
  obtain ⟨hline, hcolumn, hstart⟩ := lineAt_feeds source first
  obtain ⟨hline', hcolumn', hstart'⟩ := lineAt_feeds source second
  rw [Nat.min_eq_left hfirst] at hline hcolumn hstart
  rw [Nat.min_eq_left hsecond] at hline' hcolumn' hstart'
  have hle := Nat.count_monotone (FeedAt source) (Nat.le_of_lt hlt)
  rw [rank, rank, Prod.Lex.toLex_lt_toLex]
  dsimp only
  rcases Nat.lt_or_eq_of_le hle with hless | hsame
  · exact .inl (by omega)
  · -- On one line both columns are counted from the same place.
    have hlines : (lineAt source.toList first).line = (lineAt source.toList second).line := by
      rw [hline, hline', hsame]
    rw [hlines, ← hstart'] at hstart
    exact .inr ⟨hlines, by omega⟩

/-- A line and a column tell which offset they are of. The number of the line counts the line feeds
in front of the offset, which is that of the end if the position is beyond it. The column counts the
bytes from the start of the text or from behind the last of these line feeds. So the offsets of a
text are in the order of their lines and columns, and no two of them have both in common. -/
theorem lineAt_identifies (source : String) :
    (∀ position,
      let offset := min position source.utf8ByteSize
      let place := lineAt source.toList position
      place.line - 1 = Nat.count (FeedAt source) offset ∧ 1 ≤ place.line ∧ place.column ≤ offset ∧
        offset - place.column =
          if place.line = 1 then 0 else Nat.nth (FeedAt source) (place.line - 2) + 1) ∧
      StrictMonoOn (rank source) (Set.Iic source.utf8ByteSize) ∧
      Set.InjOn (rank source) (Set.Iic source.utf8ByteSize) := by
  refine ⟨fun position => ?_, strictMonoOn_rank source, (strictMonoOn_rank source).injOn⟩
  obtain ⟨hline, hcolumn, hstart⟩ := lineAt_feeds source position
  exact ⟨by rw [hline, Nat.add_sub_cancel], by rw [hline]; exact Nat.le_add_left 1 _, hcolumn,
    hstart⟩

/-! ## Ends of lines -/

/-- Behind the offset the line ends at the next line feed. -/
theorem lineEndFrom_of_le {here offset : Nat} (h : offset ≤ here) (text : List Char) :
    lineEndFrom here offset text = here + byteLength (text.takeWhile (· != '\n')) := by
  induction text generalizing here with
  | nil => rfl
  | cons c rest ih =>
      rw [lineEndFrom]
      split
      next hfeed => simp [hfeed.1]
      next hother =>
          have hne : c ≠ '\n' := fun hfeed => hother ⟨hfeed, h⟩
          rw [ih (Nat.le_add_right_of_le h), List.takeWhile_cons_of_pos (by simpa using hne),
            byteLength_cons, Nat.add_assoc]

/-- The line of an offset goes on up to the next line feed. -/
theorem lineEnd_append (front back : List Char) :
    lineEnd (front ++ back) (byteLength front) =
      byteLength front + byteLength (back.takeWhile (· != '\n')) := by
  rw [lineEnd, lineEndFrom_append_left back (Nat.le_of_eq (Nat.zero_add _)), Nat.zero_add,
    lineEndFrom_of_le (Nat.le_refl _)]

end ScriptLint.Text
