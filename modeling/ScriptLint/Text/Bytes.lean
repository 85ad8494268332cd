/-!
# Byte offsets into a text

A text is a list of characters; its offsets count the bytes of its UTF-8 form. Cutting a text at an
offset succeeds only where a character begins, or at the very end.
-/

namespace ScriptLint.Text

/-- The number of bytes in the UTF-8 form of a text. -/
def byteLength : List Char → Nat
  | [] => 0
  | c :: rest => c.utf8Size + byteLength rest

/-- The text after its first `count` bytes, if they end at a character boundary. -/
def dropBytes? : Nat → List Char → Option (List Char)
  | 0, text => some text
  | _ + 1, [] => none
  | count + 1, c :: rest =>
      if c.utf8Size ≤ count + 1 then dropBytes? (count + 1 - c.utf8Size) rest else none

/-- The first `count` bytes of a text, if they end at a character boundary. -/
def takeBytes? : Nat → List Char → Option (List Char)
  | 0, _ => some []
  | _ + 1, [] => none
  | count + 1, c :: rest =>
      if c.utf8Size ≤ count + 1 then
        (takeBytes? (count + 1 - c.utf8Size) rest).map (c :: ·)
      else none

/-- The text between two byte offsets, if they are in order and both are character boundaries. -/
def slice? (text : List Char) (start stop : Nat) : Option (List Char) :=
  if start ≤ stop then (dropBytes? start text).bind (takeBytes? (stop - start)) else none

@[simp] theorem byteLength_nil : byteLength [] = 0 := rfl

@[simp] theorem byteLength_cons (c : Char) (rest : List Char) :
    byteLength (c :: rest) = c.utf8Size + byteLength rest := rfl

@[simp] theorem byteLength_append (first second : List Char) :
    byteLength (first ++ second) = byteLength first + byteLength second := by
  induction first with
  | nil => simp
  | cons c rest ih => simp [ih, Nat.add_assoc]

/-- Dropping the bytes of a first part leaves the second part. -/
theorem dropBytes?_byteLength (first second : List Char) :
    dropBytes? (byteLength first) (first ++ second) = some second := by
  induction first with
  | nil => simp [dropBytes?]
  | cons c rest ih =>
      obtain ⟨count, hcount⟩ := Nat.exists_eq_succ_of_ne_zero
        (Nat.ne_of_gt (Nat.add_pos_left c.utf8Size_pos (byteLength rest)))
      rw [byteLength_cons, List.cons_append, hcount, Nat.succ_eq_add_one, dropBytes?,
        if_pos (by omega), show count + 1 - c.utf8Size = byteLength rest by omega, ih]

/-- Taking the bytes of a first part gives that part. -/
theorem takeBytes?_byteLength (first second : List Char) :
    takeBytes? (byteLength first) (first ++ second) = some first := by
  induction first with
  | nil => simp [takeBytes?]
  | cons c rest ih =>
      obtain ⟨count, hcount⟩ := Nat.exists_eq_succ_of_ne_zero
        (Nat.ne_of_gt (Nat.add_pos_left c.utf8Size_pos (byteLength rest)))
      rw [byteLength_cons, List.cons_append, hcount, Nat.succ_eq_add_one, takeBytes?,
        if_pos (by omega), show count + 1 - c.utf8Size = byteLength rest by omega, ih,
        Option.map_some]

/-- The slice between the ends of a middle part is that part. -/
theorem slice?_middle (first middle last : List Char) :
    slice? (first ++ (middle ++ last)) (byteLength first) (byteLength first + byteLength middle) =
      some middle := by
  rw [slice?, if_pos (Nat.le_add_right _ _), dropBytes?_byteLength, Option.bind_some,
    Nat.add_sub_cancel_left, takeBytes?_byteLength]

end ScriptLint.Text
