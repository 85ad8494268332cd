import ScriptLint.Text.Line

/-!
# Texts inside longer texts

A text that stands inside a longer one keeps its slices, moved by the length of what stands in front
of it. It keeps the ends of its lines too, if nothing follows it or a line feed does.
-/

namespace ScriptLint.Text

variable {count here offset : Nat}

/-- A character is dropped as a whole. -/
theorem dropBytes?_cons (c : Char) (rest : List Char) (count : Nat) :
    dropBytes? (c.utf8Size + count) (c :: rest) = dropBytes? count rest := by
  obtain ⟨size, hsize⟩ := Nat.exists_eq_succ_of_ne_zero (Nat.ne_of_gt c.utf8Size_pos)
  rw [hsize, Nat.succ_eq_add_one, Nat.add_right_comm, dropBytes?, if_pos (by omega)]
  congr 1
  omega

/-- A character is taken as a whole. -/
theorem takeBytes?_cons (c : Char) (rest : List Char) (count : Nat) :
    takeBytes? (c.utf8Size + count) (c :: rest) = (takeBytes? count rest).map (c :: ·) := by
  obtain ⟨size, hsize⟩ := Nat.exists_eq_succ_of_ne_zero (Nat.ne_of_gt c.utf8Size_pos)
  rw [hsize, Nat.succ_eq_add_one, Nat.add_right_comm, takeBytes?, if_pos (by omega)]
  congr 2
  omega

/-- Dropping a first part and more is dropping from the second part. -/
theorem dropBytes?_append_left (front text : List Char) (count : Nat) :
    dropBytes? (byteLength front + count) (front ++ text) = dropBytes? count text := by
  induction front with
  | nil => rw [byteLength_nil, Nat.zero_add, List.nil_append]
  | cons c rest ih =>
      rw [byteLength_cons, Nat.add_assoc, List.cons_append, dropBytes?_cons, ih]

/-- A first character that is longer than the bytes to be dropped is cut in two. -/
theorem dropBytes?_of_lt {c : Char} {rest : List Char} (hpos : 0 < count)
    (h : count < c.utf8Size) : dropBytes? count (c :: rest) = none := by
  obtain ⟨size, rfl⟩ := Nat.exists_eq_succ_of_ne_zero (Nat.ne_of_gt hpos)
  rw [Nat.succ_eq_add_one, dropBytes?, if_neg (by omega)]

/-- A text can not be cut inside a character. -/
theorem takeBytes?_of_lt {c : Char} {rest : List Char} (hpos : 0 < count)
    (h : count < c.utf8Size) : takeBytes? count (c :: rest) = none := by
  obtain ⟨size, rfl⟩ := Nat.exists_eq_succ_of_ne_zero (Nat.ne_of_gt hpos)
  rw [Nat.succ_eq_add_one, takeBytes?, if_neg (by omega)]

/-- What follows a text does not matter for dropping inside it. -/
theorem dropBytes?_append_right {text : List Char} (h : count ≤ byteLength text)
    (back : List Char) :
    dropBytes? count (text ++ back) = (dropBytes? count text).map (· ++ back) := by
  induction text generalizing count with
  | nil =>
      obtain rfl : count = 0 := Nat.le_zero.1 h
      simp [dropBytes?]
  | cons c rest ih =>
      rcases Nat.eq_zero_or_pos count with rfl | hpos
      · simp [dropBytes?]
      rcases Nat.lt_or_ge count c.utf8Size with hlt | hge
      · rw [List.cons_append, dropBytes?_of_lt hpos hlt, dropBytes?_of_lt hpos hlt, Option.map_none]
      · obtain ⟨count, rfl⟩ := Nat.exists_eq_add_of_le hge
        rw [List.cons_append, dropBytes?_cons, dropBytes?_cons,
          ih (Nat.le_of_add_le_add_left h)]

/-- What follows a text does not matter for taking from it. -/
theorem takeBytes?_append_right {text : List Char} (h : count ≤ byteLength text)
    (back : List Char) : takeBytes? count (text ++ back) = takeBytes? count text := by
  induction text generalizing count with
  | nil =>
      obtain rfl : count = 0 := Nat.le_zero.1 h
      simp [takeBytes?]
  | cons c rest ih =>
      rcases Nat.eq_zero_or_pos count with rfl | hpos
      · simp [takeBytes?]
      rcases Nat.lt_or_ge count c.utf8Size with hlt | hge
      · rw [List.cons_append, takeBytes?_of_lt hpos hlt, takeBytes?_of_lt hpos hlt]
      · obtain ⟨count, rfl⟩ := Nat.exists_eq_add_of_le hge
        rw [List.cons_append, takeBytes?_cons, takeBytes?_cons,
          ih (Nat.le_of_add_le_add_left h)]

/-- What is dropped and what is left have the length of the whole. -/
theorem byteLength_of_dropBytes? {text rest : List Char} (h : dropBytes? count text = some rest) :
    count + byteLength rest = byteLength text := by
  induction text generalizing count with
  | nil =>
      cases count with
      | zero =>
          cases h
          rfl
      | succ count => cases h
  | cons c text ih =>
      rcases Nat.eq_zero_or_pos count with rfl | hpos
      · cases h
        exact Nat.zero_add _
      rcases Nat.lt_or_ge count c.utf8Size with hlt | hge
      · rw [dropBytes?_of_lt hpos hlt] at h
        cases h
      · obtain ⟨count, rfl⟩ := Nat.exists_eq_add_of_le hge
        rw [dropBytes?_cons] at h
        rw [byteLength_cons, ← ih h, Nat.add_assoc]

/-- The slices of a text are slices of every text that it stands in. -/
theorem slice?_inside (front back : List Char) {text : List Char} {start stop : Nat}
    (h : stop ≤ byteLength text) :
    slice? (front ++ (text ++ back)) (start + byteLength front) (stop + byteLength front) =
      slice? text start stop := by
  unfold slice?
  by_cases hle : start ≤ stop
  · rw [if_pos hle, if_pos (Nat.add_le_add_right hle _), Nat.add_sub_add_right, Nat.add_comm start,
      dropBytes?_append_left, dropBytes?_append_right (Nat.le_trans hle h)]
    cases hdrop : dropBytes? start text with
    | none => rfl
    | some rest =>
        have hlength := byteLength_of_dropBytes? hdrop
        exact takeBytes?_append_right (by omega) back
  · rw [if_neg hle, if_neg (by omega)]

/-! ## Ends of lines -/

/-- The end of a line is inside the text. -/
theorem lineEndFrom_le (here offset : Nat) (text : List Char) :
    lineEndFrom here offset text ≤ here + byteLength text := by
  induction text generalizing here with
  | nil => exact Nat.le_refl _
  | cons c rest ih =>
      rw [lineEndFrom, byteLength_cons]
      split
      · exact Nat.le_add_right _ _
      · exact Nat.le_trans (ih (here + c.utf8Size)) (Nat.le_of_eq (Nat.add_assoc _ _ _))

/-- The end of a line is inside the text, counted from its start. -/
theorem lineEnd_le (text : List Char) (offset : Nat) : lineEnd text offset ≤ byteLength text := by
  simpa [lineEnd] using lineEndFrom_le 0 offset text

/-- Moving a text moves the ends of its lines. -/
theorem lineEndFrom_add (amount : Nat) (text : List Char) :
    lineEndFrom (here + amount) (offset + amount) text = lineEndFrom here offset text + amount := by
  induction text generalizing here with
  | nil => rfl
  | cons c rest ih =>
      rw [lineEndFrom, lineEndFrom, Nat.add_right_comm, ih]
      simp only [Nat.add_le_add_iff_right]
      split <;> rfl

/-- No line ends in front of the offset that is asked for. -/
theorem lineEndFrom_append_left {front : List Char} (text : List Char)
    (h : here + byteLength front ≤ offset) :
    lineEndFrom here offset (front ++ text) =
      lineEndFrom (here + byteLength front) offset text := by
  induction front generalizing here with
  | nil => rfl
  | cons c rest ih =>
      rw [byteLength_cons, ← Nat.add_assoc] at h ⊢
      have hpos := c.utf8Size_pos
      rw [List.cons_append, lineEndFrom, if_neg (fun hend => by omega), ih h]

/-- A line that ends at the end of a text ends there if a line feed follows. -/
theorem lineEndFrom_append_right {text back : List Char} (hback : back.head?.all (· = '\n'))
    (h : offset ≤ here + byteLength text) :
    lineEndFrom here offset (text ++ back) = lineEndFrom here offset text := by
  induction text generalizing here with
  | nil =>
      cases back with
      | nil => rfl
      | cons c more =>
          have hfeed : c = '\n' := by simpa using hback
          simp only [List.nil_append, lineEndFrom]
          exact if_pos ⟨hfeed, h⟩
  | cons c rest ih =>
      rw [byteLength_cons, ← Nat.add_assoc] at h
      rw [List.cons_append, lineEndFrom, lineEndFrom, ih h]

/-- The lines of a text end where they do in every text that it stands in, if a line feed or nothing
follows it there. -/
theorem lineEnd_inside (front : List Char) {text back : List Char}
    (hback : back.head?.all (· = '\n')) (h : offset ≤ byteLength text) :
    lineEnd (front ++ (text ++ back)) (offset + byteLength front) =
      lineEnd text offset + byteLength front := by
  unfold lineEnd
  rw [lineEndFrom_append_left _ (by omega), lineEndFrom_add,
    lineEndFrom_append_right hback (by omega)]

end ScriptLint.Text
