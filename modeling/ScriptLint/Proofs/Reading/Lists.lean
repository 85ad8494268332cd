import ScriptLint.Proofs.Reading.Passes

/-!
# Lists of phrases

How the tokens of the items of a list stand together, and that the loops over items read exactly
such lists. An item is given by a `part`, which knows its own tokens and the value that is read from
them.
-/

namespace ScriptLint

/-- `Separated tokensOf parts tokens` says that `tokens` are the tokens of the parts with commas
between them. A comma may stand behind the last part. -/
inductive Separated {ι : Type} (tokensOf : ι → List Token) : List ι → List Token → Prop where
  | none : Separated tokensOf [] []
  | last (part : ι) : Separated tokensOf [part] (tokensOf part)
  | more (part : ι) {parts : List ι} {comma : Token} {tokens : List Token} :
      comma.is "," = true → Separated tokensOf parts tokens →
      Separated tokensOf (part :: parts) (tokensOf part ++ comma :: tokens)

/-- There are at most as many commas as tokens. -/
theorem Separated.length_le {ι : Type} {tokensOf : ι → List Token} {parts : List ι}
    {tokens : List Token} (h : Separated tokensOf parts tokens) :
    parts.length ≤ tokens.length + 1 := by
  induction h with
  | none => exact Nat.zero_le _
  | last part => exact Nat.le_add_left 1 _
  | more part hcomma hrest ih =>
      simp only [List.length_cons, List.length_append]
      omega

/-- A reading does not grow by passing tokens. -/
theorem Reading.Passes.length_le {reading later : Reading} {tokens : List Token}
    (h : reading.Passes tokens later) : later.ahead.length ≤ reading.ahead.length := by
  rw [h.ahead, List.length_append]
  omega

namespace Read

variable {α ι : Type} {tokensOf : ι → List Token} {valueOf : ι → α} {Good : ι → Prop}
  {item : Read α} {view : Reading → Bool}

/-- A loop over items with commas between them gives the values of good parts. -/
theorem separatedFrom_sound
    (hitem : ∀ {reading value later}, reading.Marked → item reading = .ok value later →
      ∃ part, Good part ∧ valueOf part = value ∧ reading.Passes (tokensOf part) later)
    {bound : Nat} {reading later : Reading} {values : List α} (hmark : reading.Marked)
    (h : separatedFrom (look view) item bound reading = .ok values later) :
    ∃ tokens, reading.Passes tokens later ∧ ∃ parts, (∀ part ∈ parts, Good part) ∧
      parts.map valueOf = values ∧ Separated tokensOf parts tokens := by
  induction bound generalizing reading values with
  | zero =>
      obtain ⟨rfl, rfl⟩ := pure_ok_iff.1 h
      exact ⟨[], .refl _, [], by simp, rfl, .none⟩
  | succ bound ih =>
      rw [separatedFrom, bind_of_ok (by rfl)] at h
      split at h
      · obtain ⟨rfl, rfl⟩ := pure_ok_iff.1 h
        exact ⟨[], .refl _, [], by simp, rfl, .none⟩
      · obtain ⟨value, middle, hvalue, h⟩ := bind_ok_iff.1 h
        obtain ⟨part, hgood, rfl, hpart⟩ := hitem hmark hvalue
        obtain ⟨seen, after, haccept, h⟩ := bind_ok_iff.1 h
        obtain ⟨rfl, rfl⟩ := accept_ok_iff.1 haccept
        -- Behind a comma the loop goes on, and may find that the list closes there.
        by_cases hcomma : middle.current.is "," = true
        · rw [if_pos hcomma, if_pos hcomma] at h
          obtain ⟨others, last, hothers, h⟩ := bind_ok_iff.1 h
          obtain ⟨rfl, rfl⟩ := pure_ok_iff.1 h
          have hnext := Reading.passes_next
            (Reading.ahead_ne_nil_of_is (hpart.marked hmark) hcomma)
          obtain ⟨tokens, hrest, parts, hparts, rfl, hseparated⟩ :=
            ih (hnext.marked (hpart.marked hmark)) hothers
          exact ⟨_, hpart.trans (hnext.trans hrest), part :: parts,
            List.forall_mem_cons.2 ⟨hgood, hparts⟩, rfl, .more part hcomma hseparated⟩
        · rw [if_neg hcomma, if_neg hcomma] at h
          obtain ⟨rfl, rfl⟩ := pure_ok_iff.1 h
          exact ⟨_, hpart, [part], by simpa using hgood, rfl, .last part⟩

/-- A loop over items with commas between them reads the tokens of parts that each can be read. -/
theorem separatedFrom_complete {size : Nat} {parts : List ι} {tokens : List Token}
    (hseparated : Separated tokensOf parts tokens)
    (hitem : ∀ part ∈ parts, ∀ {reading later}, reading.Marked → reading.ahead.length ≤ size →
      reading.Passes (tokensOf part) later → later.current.is "," = true ∨ view later = true →
      view reading = false ∧ item reading = .ok (valueOf part) later)
    {bound : Nat} (hbound : parts.length ≤ bound) {reading later : Reading}
    (hmark : reading.Marked) (hsize : reading.ahead.length ≤ size)
    (hpasses : reading.Passes tokens later) (hcomma : later.current.is "," = false)
    (hclose : view later = true) :
    separatedFrom (look view) item bound reading = .ok (parts.map valueOf) later := by
  induction hseparated generalizing bound reading with
  | none =>
      obtain rfl := Reading.passes_nil_iff.1 hpasses
      cases bound with
      | zero => rfl
      | succ bound => rw [separatedFrom, bind_of_ok (by rfl), if_pos hclose]; rfl
  | last part =>
      obtain ⟨bound, rfl⟩ : ∃ n, bound = n + 1 := ⟨bound - 1, by simp at hbound; omega⟩
      obtain ⟨hopen, hrun⟩ := hitem part (by simp) hmark hsize hpasses (.inr hclose)
      rw [separatedFrom, bind_of_ok (by rfl), hopen, if_neg (by simp), bind_of_ok hrun,
        bind_of_ok (accept_ok_iff.2 ⟨rfl, rfl⟩), hcomma]
      rfl
  | @more part parts comma tokens hsep hrest ih =>
      obtain ⟨bound, rfl⟩ : ∃ n, bound = n + 1 := ⟨bound - 1, by simp at hbound; omega⟩
      obtain ⟨middle, hpart, hmiddle⟩ := Reading.passes_append_iff.1 hpasses
      obtain ⟨_, rfl, hafter⟩ := Reading.passes_cons_iff.1 hmiddle
      obtain ⟨hopen, hrun⟩ := hitem part (by simp) hmark hsize hpart (.inl hsep)
      have hnext := Reading.passes_next
        (Reading.ahead_ne_nil_of_is (hpart.marked hmark) hsep)
      have hsmaller : middle.next.ahead.length ≤ size :=
        Nat.le_trans (Nat.le_trans hnext.length_le hpart.length_le) hsize
      have hothers : separatedFrom (look view) item bound middle.next =
          .ok (parts.map valueOf) later :=
        ih (fun other hother => hitem other (List.mem_cons_of_mem part hother))
          (by simpa using hbound) (hnext.marked (hpart.marked hmark)) hsmaller hafter
      rw [separatedFrom, bind_of_ok (by rfl), hopen, if_neg (by simp), bind_of_ok hrun,
        bind_of_ok (accept_ok_iff.2 ⟨rfl, rfl⟩), hsep, if_pos rfl, if_pos rfl,
        bind_of_ok hothers]
      rfl

/-- Items with commas between them are read from separated parts. -/
theorem separated_sound
    (hitem : ∀ {reading value later}, reading.Marked → item reading = .ok value later →
      ∃ part, Good part ∧ valueOf part = value ∧ reading.Passes (tokensOf part) later)
    {reading later : Reading} {values : List α} (hmark : reading.Marked)
    (h : separated (look view) item reading = .ok values later) :
    ∃ tokens, reading.Passes tokens later ∧ ∃ parts, (∀ part ∈ parts, Good part) ∧
      parts.map valueOf = values ∧ Separated tokensOf parts tokens :=
  separatedFrom_sound hitem hmark h

/-- Separated parts are read as items, if each of them is read and the closing text follows. -/
theorem separated_complete {parts : List ι} {tokens : List Token}
    (hseparated : Separated tokensOf parts tokens) {reading later : Reading}
    (hitem : ∀ part ∈ parts, ∀ {start stop : Reading}, start.Marked →
      start.ahead.length ≤ reading.ahead.length → start.Passes (tokensOf part) stop →
      stop.current.is "," = true ∨ view stop = true →
      view start = false ∧ item start = .ok (valueOf part) stop)
    (hmark : reading.Marked) (hpasses : reading.Passes tokens later)
    (hcomma : later.current.is "," = false) (hclose : view later = true) :
    separated (look view) item reading = .ok (parts.map valueOf) later := by
  have hlength := congrArg List.length hpasses.ahead
  rw [List.length_append] at hlength
  have hbound := hseparated.length_le
  exact separatedFrom_complete hseparated hitem (by omega) hmark (Nat.le_refl _) hpasses hcomma
    hclose

end Read

end ScriptLint
