import ScriptLint.Proofs.Token.Writing
import ScriptLint.Number.Numeral

/-!
# Signs of numbers

With folding, a minus sign directly in front of a digit belongs to the number. Without it the same
text gives two tokens, the sign and the number behind it, and everything else is scanned alike:
`Token.scan_split`. The number behind the sign is the negated one.
-/

namespace ScriptLint

/-! ## Negated numbers -/

namespace Double

/-- The number with its sign turned over. -/
def negate (number : Double) : Double :=
  ofMagnitude (!number.isNegative) number.magnitude

variable {magnitude : Nat}

/-- The sign is the highest bit, and the magnitude the bits below it. -/
theorem toNat_bits_ofMagnitude (negative : Bool) (h : magnitude < twoTo 63) :
    (ofMagnitude negative magnitude).bits.toNat =
      (if negative then twoTo 63 else 0) + magnitude := by
  refine UInt64.toNat_ofNat_of_lt' ?_
  have hsum : twoTo 63 + twoTo 63 = UInt64.size := by decide
  split <;> omega

/-- The sign of a number is the one that it was made with. -/
theorem isNegative_ofMagnitude (negative : Bool) (h : magnitude < twoTo 63) :
    (ofMagnitude negative magnitude).isNegative = negative := by
  rw [isNegative, toNat_bits_ofMagnitude negative h]
  cases negative with
  | false => simpa using h
  | true => simp

/-- The magnitude of a number is the one that it was made with. -/
theorem magnitude_ofMagnitude (negative : Bool) (h : magnitude < twoTo 63) :
    (ofMagnitude negative magnitude).magnitude = magnitude := by
  rw [Double.magnitude, toNat_bits_ofMagnitude negative h]
  cases negative with
  | false => simpa using Nat.mod_eq_of_lt h
  | true => simpa using Nat.mod_eq_of_lt h

/-- Negating a number flips its sign and keeps its magnitude. -/
theorem negate_ofMagnitude (negative : Bool) (h : magnitude < twoTo 63) :
    (ofMagnitude negative magnitude).negate = ofMagnitude (!negative) magnitude := by
  rw [negate, isNegative_ofMagnitude negative h, magnitude_ofMagnitude negative h]

/-- The nearest double to a decimal has the wanted sign, and a magnitude that does not depend on
it. -/
theorem exists_ofDecimal (digits : Nat) (exponent : Int) :
    ∃ magnitude < twoTo 63, ∀ negative,
      ofDecimal negative digits exponent = ofMagnitude negative magnitude := by
  have hratio : ∀ num den, ∃ magnitude < twoTo 63, ∀ negative,
      ofRatio negative num den = ofMagnitude negative magnitude := by
    intro num den
    refine ⟨_, ?_, fun negative => rfl⟩
    have hinfinity : infinityBits < twoTo 63 := by decide
    split
    · decide
    · exact Nat.lt_of_le_of_lt (Nat.min_le_left _ _) hinfinity
  unfold ofDecimal
  split
  · exact ⟨0, by decide, fun _ => rfl⟩
  split
  · exact ⟨infinityBits, by decide, fun _ => rfl⟩
  split
  · exact ⟨0, by decide, fun _ => rfl⟩
  split
  · exact hratio _ _
  · exact hratio _ _

end Double

namespace Numeral

/-- A numeral is read into a magnitude, and the sign is put in front of it. -/
theorem exists_unsigned? (text : List Char) :
    ∃ magnitude : Option Nat, (∀ found ∈ magnitude, found < Double.twoTo 63) ∧
      ∀ negative, unsigned? negative text = magnitude.map (Double.ofMagnitude negative) := by
  have hsome : ∀ {magnitude : Nat}, magnitude < Double.twoTo 63 →
      ∀ found ∈ some magnitude, found < Double.twoTo 63 := by
    rintro magnitude hlt _ ⟨⟩
    exact hlt
  unfold unsigned?
  dsimp only
  split
  · exact ⟨some Double.infinityBits, hsome (by decide), fun _ => rfl⟩
  split
  · exact ⟨some Double.nanBits, hsome (by decide), fun _ => rfl⟩
  split
  · exact ⟨none, by simp, fun _ => rfl⟩
  · cases hexponent : exponent? (fraction (text.dropWhile Char.isDigit)).2 with
    | none => exact ⟨none, by simp, fun _ => rfl⟩
    | some exponent =>
        obtain ⟨magnitude, hlt, heq⟩ := Double.exists_ofDecimal
          (ofDigits (text.takeWhile Char.isDigit ++ (fraction (text.dropWhile Char.isDigit)).1))
          (exponent - (fraction (text.dropWhile Char.isDigit)).1.length)
        exact ⟨some magnitude, hsome hlt, fun negative => congrArg some (heq negative)⟩

end Numeral

/-! ## Split tokens -/

/-- A digit is not a blank. -/
theorem Text.isBlank_of_isDigit {c : Char} (h : c.isDigit = true) : Text.isBlank c = false := by
  have hlow : 48 ≤ c.toNat := by
    simp only [Char.isDigit, Bool.and_eq_true, decide_eq_true_eq] at h
    exact UInt32.le_iff_toNat_le.1 h.1
  have hhigh : c.toNat ≤ 57 := by
    simp only [Char.isDigit, Bool.and_eq_true, decide_eq_true_eq] at h
    exact UInt32.le_iff_toNat_le.1 h.2
  simp [Text.isBlank, Text.blankRanges]
  omega

namespace Lexeme

variable {c : Char} {rest : List Char}

/-- Apart from the sign of a number, folding makes no difference to a lexeme. -/
theorem next_of_not_signed (h : ¬ (c = '-' ∧ startsWithDigit rest = true)) :
    next false c rest = next true c rest := by
  unfold next
  simp only [h, and_false, if_false]

/-- With folding, a minus sign in front of a digit is the start of a number. -/
theorem next_signed (h : startsWithDigit rest = true) :
    next true '-' rest = ⟨.token .number (String.ofList ('-' :: (numeral rest).1)),
      '-' :: (numeral rest).1, (numeral rest).2⟩ := by
  rw [next, if_neg (by decide), if_neg (by simp), if_neg (by simp), if_neg (by decide),
    if_pos ⟨rfl, rfl, h⟩]

/-- Where no number is scanned, there is no minus sign in front of a digit. -/
theorem not_signed_of_piece {piece : Piece} (h : (next true c rest).piece = piece)
    (hpiece : ∀ value, piece ≠ .token .number value) :
    ¬ (c = '-' ∧ startsWithDigit rest = true) := by
  rintro ⟨rfl, hdigit⟩
  rw [next_signed hdigit] at h
  exact hpiece _ h.symm

/-- Without folding, a minus sign is a token of its own. -/
theorem next_sign (rest : List Char) :
    next false '-' rest = ⟨.token .symbol "-", ['-'], rest⟩ := by
  rw [next, if_neg (by decide), if_neg (by simp), if_neg (by simp), if_neg (by decide),
    if_neg (by simp), if_neg (by decide), if_neg (by decide)]
  cases rest with
  | nil => rfl
  | cons d after => rfl

/-- A digit is the start of a number, with folding or without it. -/
theorem next_digit (fold : Bool) (h : c.isDigit = true) :
    next fold c rest = ⟨.token .number (String.ofList (numeral (c :: rest)).1),
      (numeral (c :: rest)).1, (numeral (c :: rest)).2⟩ := by
  have hne : ∀ d : Char, d.isDigit = false → c ≠ d := by
    rintro d hd rfl
    rw [h] at hd
    cases hd
  rw [next, if_neg (by simp [Text.isBlank_of_isDigit h]), if_neg (fun h => hne '/' rfl h.1),
    if_neg (fun h => hne '/' rfl h.1), if_neg (by simp [isQuote_of_isDigit h]),
    if_neg (fun h => hne '-' rfl h.2.1), if_pos h]

end Lexeme

namespace Token

/-- Whether a token is a number that begins with a sign. -/
def isFolded (token : Token) : Bool :=
  token.kind == .number && token.value.toList.head? == some '-'

/-- The tokens that stand in the place of a token if signs are not folded into numbers. -/
def split (token : Token) : List Token :=
  if token.isFolded then
    [⟨.symbol, "-", ⟨token.span.start, token.span.start + 1⟩⟩,
      ⟨.number, String.ofList token.value.toList.tail, ⟨token.span.start + 1, token.span.stop⟩⟩]
  else [token]

/-- A token without a folded sign is not split. -/
theorem split_of_not_isFolded {token : Token} (h : token.isFolded = false) :
    token.split = [token] := by
  rw [split, h]
  rfl

/-- A signed number is split into its sign and the number behind it. -/
theorem split_signed (digits : List Char) (span : Span) :
    split ⟨.number, String.ofList ('-' :: digits), span⟩ =
      [⟨.symbol, "-", ⟨span.start, span.start + 1⟩⟩,
        ⟨.number, String.ofList digits, ⟨span.start + 1, span.stop⟩⟩] := by
  simp [split, isFolded]

/-- A token that is no number is not split. -/
theorem isFolded_of_kind {token : Token} (h : token.kind ≠ .number) : token.isFolded = false := by
  simp [isFolded, h]

/-- Scanning a text that begins with a token gives that token, and then those behind it. -/
theorem scan_cons_token {fold : Bool} {c : Char} {rest text after : List Char} {kind : TokenKind}
    {value : String} (h : Lexeme.next fold c rest = ⟨.token kind value, text, after⟩)
    (offset : Nat) :
    scan fold offset (c :: rest) = (scan fold (offset + Text.byteLength text) after).map
      (⟨kind, value, ⟨offset, offset + Text.byteLength text⟩⟩ :: ·) := by
  rw [scan, h]

/-- Without folding, a signed number is scanned as its sign and the number behind it. -/
theorem scan_signed (offset : Nat) {rest : List Char} (h : Lexeme.startsWithDigit rest = true) :
    scan false offset ('-' :: rest) =
      (scan false (offset + 1 + Text.byteLength (Lexeme.numeral rest).1)
        (Lexeme.numeral rest).2).map fun later =>
          ⟨.symbol, "-", ⟨offset, offset + 1⟩⟩ ::
            ⟨.number, String.ofList (Lexeme.numeral rest).1, ⟨offset + 1,
              offset + 1 + Text.byteLength (Lexeme.numeral rest).1⟩⟩ :: later := by
  rw [scan_cons_token (Lexeme.next_sign rest)]
  cases rest with
  | nil => cases h
  | cons d more =>
      rw [show offset + Text.byteLength ['-'] = offset + 1 from rfl,
        scan_cons_token (Lexeme.next_digit false h)]
      cases scan false _ _ <;> rfl

/-- A token that is written without folding has no sign. -/
theorem Written.isFolded_eq_false {back text : List Char} {kind : TokenKind} {value : String}
    (h : Written false back kind value text) (span : Span) :
    isFolded ⟨kind, value, span⟩ = false := by
  cases h with
  | number hlongest =>
      obtain ⟨hnumber, -⟩ := hlongest
      cases hnumber with
      | negative hfold _ => cases hfold
      | plain hplain => simp [isFolded, hplain.head?_ne_sign]
  | _ => rfl

/-- Scanning without folding gives the split tokens of scanning with it. -/
theorem scan_split (offset : Nat) (text : List Char) :
    scan false offset text = (scan true offset text).map (List.flatMap split) := by
  fun_induction scan true offset text with
  | case1 offset => exact scan_nil false offset
  | case2 offset c rest lexeme stop =>
      rename_i hpiece ih
      have hsigned := Lexeme.not_signed_of_piece hpiece (by simp)
      rw [scan, Lexeme.next_of_not_signed hsigned]
      simp only [show (Lexeme.next true c rest).piece = .blank from hpiece]
      exact ih
  | case3 offset c rest lexeme stop kind value =>
      rename_i hpiece ih
      -- Only a signed number is scanned in two steps; both scans then stand at the same place.
      by_cases hsigned : c = '-' ∧ Lexeme.startsWithDigit rest = true
      · obtain ⟨rfl, hdigit⟩ := hsigned
        have hlexeme : lexeme = _ := Lexeme.next_signed hdigit
        obtain ⟨rfl, rfl⟩ := Piece.token.inj (hpiece.symm.trans (congrArg Lexeme.piece hlexeme))
        have hstop : stop = offset + 1 + Text.byteLength (Lexeme.numeral rest).1 := by
          show offset + Text.byteLength lexeme.text = _
          rw [hlexeme, Nat.add_assoc]
          rfl
        have hrest : lexeme.rest = (Lexeme.numeral rest).2 := congrArg Lexeme.rest hlexeme
        rw [scan_signed offset hdigit, ← hstop, ← hrest, ih]
        cases scan true stop lexeme.rest with
        | error error => rfl
        | ok later =>
            show Except.ok _ = Except.ok _
            rw [List.flatMap_cons, split_signed]
            rfl
      · rw [scan, Lexeme.next_of_not_signed hsigned]
        simp only [show (Lexeme.next true c rest).piece = .token kind value from hpiece]
        have hnext : (Lexeme.next false c rest).piece = .token kind value := by
          rw [Lexeme.next_of_not_signed hsigned]
          exact hpiece
        have hsplit := (Lexeme.next_written hnext).isFolded_eq_false ⟨offset, stop⟩
        rw [show scan false _ _ = _ from ih]
        cases scan true stop lexeme.rest with
        | error error => rfl
        | ok later =>
            show Except.ok _ = Except.ok _
            rw [List.flatMap_cons, split_of_not_isFolded hsplit]
            rfl
  | case4 offset c rest lexeme =>
      rename_i hpiece
      have hsigned := Lexeme.not_signed_of_piece hpiece (by simp)
      rw [scan, Lexeme.next_of_not_signed hsigned]
      simp only [show (Lexeme.next true c rest).piece = .openString from hpiece]
      rfl

/-- Scanning a source without folding fails as scanning it with folding does, or it gives the same
tokens, with each signed number split into the sign and the number behind it. -/
theorem tokenize_split (depth more : Nat) (source : String) :
    (∃ error, tokenize ⟨depth, true⟩ source = .error error ∧
      tokenize ⟨more, false⟩ source = .error error) ∨
    ∃ tokens, tokenize ⟨depth, true⟩ source = .ok tokens ∧
      tokenize ⟨more, false⟩ source = .ok (tokens.flatMap split) := by
  have hsplit : tokenize ⟨more, false⟩ source =
      (tokenize ⟨depth, true⟩ source).map (List.flatMap split) := scan_split 0 source.toList
  cases htokens : tokenize ⟨depth, true⟩ source with
  | error error =>
      rw [htokens] at hsplit
      exact .inl ⟨error, rfl, hsplit⟩
  | ok tokens =>
      rw [htokens] at hsplit
      exact .inr ⟨tokens, rfl, hsplit⟩

end Token

end ScriptLint
