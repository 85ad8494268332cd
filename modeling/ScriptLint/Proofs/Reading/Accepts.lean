import ScriptLint.Proofs.Phrase.Completeness
import ScriptLint.Proofs.Reading.Clean

/-!
# Steps that read what is derived

`step.Accepts size G Follow` says that the step reads all tokens that derive a value by `G`, where
at most `size` tokens are ahead and the token behind them may follow. The size is what the levels of
a reader are enough for.
-/

namespace ScriptLint

namespace Reading

variable {reading later : Reading} {tokens : List Token} {token : Token} {size : Nat}

/-- The reading has an end mark and at most `size` tokens ahead of it. -/
def Within (reading : Reading) (size : Nat) : Prop :=
  reading.Marked ∧ reading.ahead.length ≤ size

/-- Passing tokens leaves no more of them ahead. -/
theorem Passes.within (h : reading.Passes tokens later) (hwithin : reading.Within size) :
    later.Within size :=
  ⟨h.marked hwithin.1, Nat.le_trans h.length_le hwithin.2⟩

/-- Behind its first token a form has fewer tokens ahead. -/
theorem Passes.within_of_succ (h : reading.Passes (token :: tokens) later)
    (hwithin : reading.Within (size + 1)) : later.Within size :=
  ⟨h.marked hwithin.1, Nat.le_of_lt_succ (Nat.lt_of_lt_of_le h.length_lt hwithin.2)⟩

/-- Where a token is passed there is room for one. -/
theorem Passes.exists_succ (h : reading.Passes (token :: tokens) later)
    (hwithin : reading.Within size) : ∃ smaller, size = smaller + 1 :=
  ⟨size - 1, by have hlt := h.length_lt; have hle := hwithin.2; omega⟩

/-- To pass tokens is to pass the first one and then the others. -/
theorem passes_cons_split : reading.Passes (token :: tokens) later ↔
    ∃ middle, reading.Passes [token] middle ∧ middle.Passes tokens later := by
  show reading.Passes ([token] ++ tokens) later ↔ _
  exact passes_append_iff

/-- The first token that is passed is the current one. -/
theorem Passes.current_eq (h : reading.Passes (token :: tokens) later) :
    reading.current = token :=
  (passes_cons_iff.1 h).2.1

end Reading

namespace Read

open Reading

variable {α : Type} {reading later : Reading} {token : Token} {text : String} {size : Nat}
  {G : List Token → α → Prop} {Follow : Token → Prop} {step : Read α}

/-- Where at most `size` tokens are ahead, the step reads what tokens derive by `G` if the token
behind them may follow. -/
def Accepts (step : Read α) (size : Nat) (G : List Token → α → Prop) (Follow : Token → Prop) :
    Prop :=
  ∀ reading value later tokens, reading.Within size → G tokens value →
    reading.Passes tokens later → Follow later.current → step reading = .ok value later

/-- What is read of many tokens is read of fewer. -/
theorem Accepts.mono (h : Accepts step size G Follow) {smaller : Nat} (hle : smaller ≤ size) :
    Accepts step smaller G Follow :=
  fun reading value later tokens hwithin =>
    h reading value later tokens ⟨hwithin.1, Nat.le_trans hwithin.2 hle⟩

/-- Taking a token passes it. -/
theorem advance_of_passes (h : reading.Passes [token] later) :
    advance reading = .ok token later := by
  obtain ⟨_, rfl, hlast⟩ := passes_cons_iff.1 h
  obtain rfl := passes_nil_iff.1 hlast
  rfl

/-- A text that is asked for is read where it is the next token. -/
theorem expect_of_passes (his : token.is text = true) (h : reading.Passes [token] later) :
    expect text reading = .ok token later := by
  obtain ⟨_, rfl, hlast⟩ := passes_cons_iff.1 h
  obtain rfl := passes_nil_iff.1 hlast
  exact expect_ok_iff.2 ⟨his, rfl, rfl⟩

/-- A name that is asked for is read where it is the next token. -/
theorem expectIdentifier_of_passes {detail : String} (hkind : token.kind = .identifier)
    (h : reading.Passes [token] later) : expectIdentifier detail reading = .ok token later := by
  obtain ⟨_, rfl, hlast⟩ := passes_cons_iff.1 h
  obtain rfl := passes_nil_iff.1 hlast
  exact expectIdentifier_ok_iff.2 ⟨hkind, rfl, rfl⟩

/-- A text that may come is read where it is the next token. -/
theorem accept_of_passes (his : token.is text = true) (h : reading.Passes [token] later) :
    accept text reading = .ok true later := by
  obtain ⟨_, rfl, hlast⟩ := passes_cons_iff.1 h
  obtain rfl := passes_nil_iff.1 hlast
  exact accept_ok_iff.2 ⟨his.symm, rfl⟩

/-- Where another token is next, nothing is read. -/
theorem accept_of_not (his : reading.current.is text = false) :
    accept text reading = .ok false reading :=
  accept_ok_iff.2 ⟨his.symm, rfl⟩

/-- A success does not depend on whether an error would have been fatal. -/
theorem fatally_of_ok {value : α} (h : step reading = .ok value later) :
    fatally step reading = .ok value later :=
  fatally_ok_iff.2 h

/-- A list that closes at once has no items. -/
theorem separated_nil {item : Read α} {close : String}
    (hclose : reading.current.is close = true) :
    separated (atClose close) item reading = .ok [] reading := by
  show separatedFrom (atClose close) item (reading.ahead.length + 1) reading = _
  rw [separatedFrom, bind_of_ok (by rfl), hclose]
  rfl

/-- A list whose first item is not followed by a comma has one item. -/
theorem separated_single {item : Read α} {value : α} {close : String}
    (hopen : (reading.current.is close || reading.ahead.isEmpty) = false)
    (hitem : item reading = .ok value later) (hcomma : later.current.is "," = false) :
    separated (atClose close) item reading = .ok [value] later := by
  show separatedFrom (atClose close) item (reading.ahead.length + 1) reading = _
  rw [separatedFrom, bind_of_ok (by rfl), hopen, if_neg (by simp), bind_of_ok hitem,
    bind_of_ok (accept_of_not hcomma)]
  rfl

/-- A step that succeeds is not recovered from. -/
theorem Accepts.recovering (h : Accepts step size G Follow) (context : Context) :
    Accepts (Read.recovering context step) size
      (fun tokens found => ∃ value ∈ found, G tokens value) Follow := by
  rintro reading found later tokens hwithin ⟨value, rfl, hgood⟩ hpasses hfollow
  rw [recovering_apply, h reading value later tokens hwithin hgood hpasses hfollow]

end Read

end ScriptLint
