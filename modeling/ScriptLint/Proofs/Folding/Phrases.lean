import Mathlib.Data.List.Chain
import ScriptLint.Proofs.Folding.Tokens
import ScriptLint.Proofs.Phrase.Grammar
import ScriptLint.Proofs.Typing.Respelling

/-!
# Phrases without folded signs

`Respelling.unfolded` puts a minus sign and the number behind it in the place of every negative
literal. If tokens derive an expression, their split tokens derive the unfolded one, as long as no
signed number is called or has a member: a sign binds less tightly than a suffix.
-/

namespace ScriptLint

/-- Puts a minus sign and a number in the place of every negative literal. -/
def Respelling.unfolded : Respelling where
  span := id
  literal
    | .number value, raw, span =>
        if value.isNegative then
          .unary "-" (.literal (.number value.negate) (String.ofList (Numeral.sign raw.toList).2)
            ⟨span.start + 1, span.stop⟩) span
        else .literal (.number value) raw span
    | value, raw, span => .literal value raw span

namespace Numeral

variable {text : List Char} {value : Double}

/-- A number that is written without a minus sign is not negative. -/
theorem isNegative_of_toDouble? (hsign : text.head? ≠ some '-') (h : toDouble? text = some value) :
    value.isNegative = false := by
  have hplain : (sign text).1 = false := by
    unfold sign
    split
    · exact absurd rfl hsign
    · rfl
    · rfl
  obtain ⟨magnitude, hlt, heq⟩ := exists_unsigned? (sign text).2
  have hvalue : unsigned? (sign text).1 (sign text).2 = some value := h
  rw [heq, hplain] at hvalue
  obtain ⟨found, hfound, rfl⟩ := Option.map_eq_some_iff.1 hvalue
  exact Double.isNegative_ofMagnitude false (hlt found hfound)

/-- A minus sign in front of digits turns the number over. -/
theorem toDouble?_of_signed (hdigit : Lexeme.startsWithDigit text = true)
    (h : toDouble? ('-' :: text) = some value) :
    value.isNegative = true ∧ toDouble? text = some value.negate := by
  have hsign : sign text = (false, text) := by
    unfold sign
    split
    · exact absurd hdigit (by simp [Lexeme.startsWithDigit])
    · exact absurd hdigit (by simp [Lexeme.startsWithDigit])
    · rfl
  obtain ⟨magnitude, hlt, heq⟩ := exists_unsigned? text
  have hvalue : unsigned? true text = some value := h
  rw [heq] at hvalue
  obtain ⟨found, hfound, rfl⟩ := Option.map_eq_some_iff.1 hvalue
  refine ⟨Double.isNegative_ofMagnitude true (hlt found hfound), ?_⟩
  rw [Double.negate_ofMagnitude true (hlt found hfound), toDouble?, hsign]
  exact (heq false).trans (congrArg _ hfound)

/-- A sign is no point. -/
theorem mem_sign_point (text : List Char) : '.' ∈ (sign text).2 ↔ '.' ∈ text := by
  unfold sign
  split <;> simp

end Numeral

/-- Unfolding changes nothing that the checker of types looks at. -/
theorem Respelling.unfolded_faithful : unfolded.Faithful where
  span_literal value raw span := by
    cases value with
    | number value =>
        simp only [unfolded]
        split <;> rfl
    | _ => rfl
  isAssignable_literal value raw span := by
    cases value with
    | number value =>
        simp only [unfolded]
        split <;> rfl
    | _ => rfl
  infer_literal scope value raw span := by
    cases value with
    | number value =>
        simp only [unfolded]
        split
        · simp [Scope.infer, Literal.ty, Numeral.mem_sign_point]
        · rfl
    | _ => rfl
  writes_literal value raw span := by
    have hliteral : ∀ value raw span, (Node.expr (.literal value raw span)).writes = [] := by
      intro value raw span
      rw [Node.writes_eq]
      rfl
    cases value with
    | number value =>
        simp only [unfolded]
        split
        · rw [Node.writes_eq]
          show List.flatMap Node.writes [Node.expr _] = []
          rw [List.flatMap_singleton, hliteral]
        · exact hliteral _ _ _
    | _ => exact hliteral _ _ _

/-! ## Tokens that may be split -/

/-- The digits behind the sign of a signed number stand in the text one byte behind the sign. -/
def Token.SignStands (sourceText : Span → String) (token : Token) : Prop :=
  ∃ digits, token.value = String.ofList ('-' :: digits) ∧ Lexeme.startsWithDigit digits = true ∧
    sourceText token.span = String.ofList ('-' :: digits) ∧
    sourceText ⟨token.span.start + 1, token.span.stop⟩ = String.ofList digits ∧
    token.span.start + 1 ≤ token.span.stop

/-- Signed numbers stand in the text as they are, and none has a suffix. -/
structure Splittable (sourceText : Span → String) (tokens : List Token) : Prop where
  stands : ∀ token ∈ tokens, token.isFolded = true → token.SignStands sourceText
  apart : tokens.IsChain fun first second =>
    first.isFolded = true → second.isAny ["(", "."] = false

namespace Splittable

variable {sourceText : Span → String} {token : Token} {front back tokens : List Token}

/-- The front of splittable tokens is splittable. -/
theorem left (h : Splittable sourceText (front ++ back)) : Splittable sourceText front :=
  ⟨fun token htoken => h.stands token (List.mem_append_left back htoken),
    (List.isChain_append.1 h.apart).1⟩

/-- What is behind the front is splittable. -/
theorem right (h : Splittable sourceText (front ++ back)) : Splittable sourceText back :=
  ⟨fun token htoken => h.stands token (List.mem_append_right front htoken),
    (List.isChain_append.1 h.apart).2.1⟩

theorem tail (h : Splittable sourceText (token :: tokens)) : Splittable sourceText tokens :=
  @right sourceText [token] tokens h

/-- No signed number stands in front of a suffix. -/
theorem last_not_folded (h : Splittable sourceText (front ++ token :: back))
    (hsuffix : token.isAny ["(", "."] = true) : front.getLast?.all (!·.isFolded) = true := by
  cases hlast : front.getLast? with
  | none => rfl
  | some last =>
      have hapart := (List.isChain_append.1 h.apart).2.2 last hlast token rfl
      rw [Option.all_some, Bool.not_eq_true', Bool.eq_false_iff]
      intro hfolded
      rw [hapart hfolded] at hsuffix
      cases hsuffix

/-- The parts of a list may be split one by one. -/
theorem of_separated {ι : Type} {tokensOf : ι → List Token} {parts : List ι}
    (h : Splittable sourceText tokens) (hparts : Separated tokensOf parts tokens) :
    ∀ part ∈ parts, Splittable sourceText (tokensOf part) := by
  induction hparts with
  | none => simp
  | last part => exact List.forall_mem_singleton.2 h
  | more part _ _ ih => exact List.forall_mem_cons.2 ⟨h.left, ih h.right.tail⟩

end Splittable

/-- The tokens of a phrase when signs are not folded into numbers. -/
def Token.splitAll (tokens : List Token) : List Token :=
  tokens.flatMap Token.split

namespace Token

variable {token : Token} {tokens : List Token}

@[simp] theorem splitAll_nil : splitAll [] = [] := rfl

@[simp] theorem splitAll_append (front back : List Token) :
    splitAll (front ++ back) = splitAll front ++ splitAll back :=
  List.flatMap_append

/-- A token that is not folded stays in front of the others. -/
theorem splitAll_cons (h : token.isFolded = false) :
    splitAll (token :: tokens) = token :: splitAll tokens := by
  rw [splitAll, List.flatMap_cons, split_of_not_isFolded h]
  rfl

/-- Only a number has a sign folded into it. -/
theorem isFolded_of_isSpelled (h : token.isSpelled = true) : token.isFolded = false := by
  refine isFolded_of_kind fun hkind => ?_
  simp [isSpelled, hkind] at h

theorem isFolded_of_is {text : String} (h : token.is text = true) : token.isFolded = false :=
  isFolded_of_isSpelled (is_iff.1 h).1

theorem isFolded_of_isAny {texts : List String} (h : token.isAny texts = true) :
    token.isFolded = false := by
  obtain ⟨text, -, his⟩ := List.any_eq_true.1 h
  exact isFolded_of_is his

/-- The tokens between brackets are split by themselves. -/
theorem splitAll_enclosed {opening closing : Token} {first last : String}
    (hopening : opening.is first = true) (hclosing : closing.is last = true)
    (inside : List Token) :
    splitAll (opening :: (inside ++ [closing])) = opening :: (splitAll inside ++ [closing]) := by
  rw [splitAll_cons (isFolded_of_is hopening), splitAll_append,
    splitAll_cons (isFolded_of_is hclosing), splitAll_nil]

end Token

/-- The tokens of a list with commas are split part by part. -/
theorem Separated.splitAll {ι κ : Type} {tokensOf : ι → List Token} {tokensOf' : κ → List Token}
    {image : ι → κ} {parts : List ι} {tokens : List Token}
    (himage : ∀ part ∈ parts, tokensOf' (image part) = Token.splitAll (tokensOf part))
    (h : Separated tokensOf parts tokens) :
    Separated tokensOf' (parts.map image) (Token.splitAll tokens) := by
  induction h with
  | none => exact .none
  | last part =>
      rw [← himage part List.mem_cons_self]
      exact .last (image part)
  | more part hcomma _ ih =>
      obtain ⟨hpart, hparts⟩ := List.forall_mem_cons.1 himage
      rw [Token.splitAll_append, Token.splitAll_cons (Token.isFolded_of_is hcomma), ← hpart]
      exact .more (image part) hcomma (ih hparts)

/-! ## Phrases -/

/-- Unfolding keeps the span of an expression. -/
theorem Expr.span_unfolded (expr : Expr) : (expr.respell .unfolded).span = expr.span :=
  span_respell Respelling.unfolded_faithful expr

/-- The level of a phrase that may end in a signed number: a sign makes it no tighter than a unary
one. -/
def Level.capped (level : Level) : Level :=
  if level.rank ≤ Level.unary.rank then level else .unary

/-- A capped level does not bind tighter than the level. -/
theorem Level.capped_rank_le (level : Level) : level.capped.rank ≤ level.rank := by
  cases level <;> decide

/-- Nor does it bind tighter than the next level, capped as well. -/
theorem Level.capped_rank_le_next (level : Level) : level.capped.rank ≤ level.next.capped.rank := by
  cases level <;> decide

/-- A level with operators is looser than the unary one. -/
theorem Level.capped_of_operators {level : Level} {token : Token}
    (h : token.isAny level.operators = true) :
    level.capped = level ∧ level.next.capped = level.next := by
  cases level <;> first | exact ⟨rfl, rfl⟩ | cases h

/-- Joined expressions are unfolded one by one. -/
theorem Level.respell_join (level : Level) (operator : String) (first second : Expr) :
    (level.join operator first second).respell .unfolded =
      level.join operator (first.respell .unfolded) (second.respell .unfolded) := by
  cases level <;> simp only [join, Expr.respell, Expr.span_unfolded] <;> rfl

/-- The entry of an object with its tokens split. -/
def Entry.split (entry : Entry) : Entry :=
  { entry with tokens := Token.splitAll entry.tokens, value := entry.value.respell .unfolded }

/-- The tokens of a split entry are the split tokens of the entry. -/
theorem Entry.all_split (entry : Entry) : entry.split.all = Token.splitAll entry.all := by
  have hkey : entry.key.isFolded = false := Token.isFolded_of_kind fun hkind => by
    rcases entry.key_kind with h | h <;> rw [h] at hkind <;> cases hkind
  rw [all, all, Token.splitAll_cons hkey,
    Token.splitAll_cons (Token.isFolded_of_is entry.colon_is)]
  rfl

/-- The property of a split entry is the unfolded property. -/
theorem Entry.property_split (entry : Entry) :
    entry.split.property = entry.property.respell .unfolded := by
  rw [property, Property.respell, Entry.split, Expr.span_unfolded]
  rfl

namespace Phrase

variable {sourceText : Span → String} {level : Level} {tokens : List Token} {expr : Expr}

/-- What is derived at a level is derived at the capped level. -/
theorem capped (h : Phrase sourceText level tokens expr) {p : Prop} :
    (p → Phrase sourceText level tokens expr) ∧ Phrase sourceText level.capped tokens expr :=
  ⟨fun _ => h, h.loosen level.capped_rank_le⟩

/-- A numeric literal is read from a number token. -/
theorem kind_of_literal? {token : Token} {number : Double}
    (h : token.literal? = some (.number number)) :
    token.kind = .number ∧ Numeral.toDouble? token.value.toList = some number := by
  unfold Token.literal? at h
  split at h
  next hkind =>
      obtain ⟨found, hfound, heq⟩ := Option.map_eq_some_iff.1 h
      cases heq
      exact ⟨hkind, hfound⟩
  next => cases h
  next =>
      split_ifs at h
      all_goals cases h
  all_goals cases h

/-- A literal that is no signed number stays as it is. -/
theorem respell_literal {token : Token} {value : Literal} (hvalue : token.literal? = some value)
    (hfolded : token.isFolded = false) (raw : String) (span : Span) :
    Expr.respell .unfolded (.literal value raw span) = .literal value raw span := by
  cases value with
  | number number =>
      obtain ⟨hkind, hnumber⟩ := kind_of_literal? hvalue
      have hnegative : number.isNegative = false := by
        refine Numeral.isNegative_of_toDouble? ?_ hnumber
        simpa [Token.isFolded, hkind] using hfolded
      simp [Expr.respell, Respelling.unfolded, hnegative]
  | _ => rfl

/-- The sign and the number behind it derive the unfolded literal. -/
theorem split_signed {token : Token} {value : Literal} (hvalue : token.literal? = some value)
    (hfolded : token.isFolded = true) (h : token.SignStands sourceText) :
    Phrase sourceText .unary token.split
      (Expr.respell .unfolded (.literal value (sourceText token.span) token.span)) := by
  obtain ⟨kind, text, ⟨start, stop⟩⟩ := token
  obtain ⟨digits, rfl, hdigit, hwhole, hpart, hle⟩ := h
  dsimp only at hwhole hpart hle
  have hkind : kind = .number := by
    simp only [Token.isFolded, Bool.and_eq_true, beq_iff_eq] at hfolded
    exact hfolded.1
  subst hkind
  obtain ⟨number, hnumber, rfl⟩ := Option.map_eq_some_iff.1 hvalue
  rw [String.toList_ofList] at hnumber
  obtain ⟨hnegative, hdigits⟩ := Numeral.toDouble?_of_signed hdigit hnumber
  rw [Token.split_signed]
  have hargument : Phrase sourceText .primary
      [⟨.number, String.ofList digits, ⟨start + 1, stop⟩⟩]
      (.literal (.number number.negate) (sourceText ⟨start + 1, stop⟩) ⟨start + 1, stop⟩) := by
    refine .literal ?_
    simp [Token.literal?, hdigits]
  have hsign : Token.isAny ⟨.symbol, "-", ⟨start, start + 1⟩⟩ ["not", "!", "-"] = true := rfl
  have hphrase := Phrase.unary hsign (hargument.loosen (by decide))
  have hhull : (⟨start, start + 1⟩ : Span).hull ⟨start + 1, stop⟩ = ⟨start, stop⟩ := by
    simp only [Span.hull, Span.mk.injEq]
    omega
  rw [hpart] at hphrase
  simpa [Expr.respell, Respelling.unfolded, hnegative, hwhole, Numeral.sign, Expr.span, hhull]
    using hphrase

/-- A part of a list with its tokens split. -/
def splitPart (part : List Token × Expr) : List Token × Expr :=
  (Token.splitAll part.1, part.2.respell .unfolded)

/-- The expressions of split parts are unfolded one by one. -/
theorem map_snd_splitPart (parts : List (List Token × Expr)) :
    (parts.map splitPart).map Prod.snd = (parts.map Prod.snd).map (Expr.respell .unfolded) := by
  simp [splitPart, Function.comp_def]

/-- The phrases of a list are split one by one. -/
theorem split_parts {parts : List (List Token × Expr)} (hsplit : Splittable sourceText tokens)
    (hparts : Separated Prod.fst parts tokens)
    (h : ∀ part ∈ parts, Splittable sourceText part.1 →
      Phrase sourceText .assign (Token.splitAll part.1) (part.2.respell .unfolded)) :
    (∀ part ∈ parts.map splitPart, Phrase sourceText .assign part.1 part.2) ∧
      Separated Prod.fst (parts.map splitPart) (Token.splitAll tokens) :=
  ⟨List.forall_mem_map.2 fun part hpart => h part hpart (hsplit.of_separated hparts part hpart),
    hparts.splitAll fun _ _ => rfl⟩

/-- The split tokens of a phrase derive the unfolded expression. The level is kept unless the phrase
ends in a signed number. -/
theorem splitAll (h : Phrase sourceText level tokens expr) (hsplit : Splittable sourceText tokens) :
    (tokens.getLast?.all (!·.isFolded) = true →
      Phrase sourceText level (Token.splitAll tokens) (expr.respell .unfolded)) ∧
    Phrase sourceText level.capped (Token.splitAll tokens) (expr.respell .unfolded) := by
  induction h with
  | @tighter level tokens expr _ ih =>
      obtain ⟨hplain, hcapped⟩ := ih hsplit
      exact ⟨fun hlast => .tighter (hplain hlast), hcapped.loosen level.capped_rank_le_next⟩
  | assignment hleft hassignable hequals hright ihLeft ihRight =>
      refine capped ?_
      have hphrase := Phrase.assignment (ihLeft hsplit.left).2
        ((Expr.isAssignable_respell Respelling.unfolded_faithful _).trans hassignable) hequals
        (ihRight hsplit.right.tail).2
      rw [Expr.span_unfolded, Expr.span_unfolded] at hphrase
      rwa [Token.splitAll_append, Token.splitAll_cons (Token.isFolded_of_is hequals)]
  | @operation level _ _ _ _ _ hleft hoperator hright ihLeft ihRight =>
      refine capped ?_
      obtain ⟨hlevel, hnext⟩ := Level.capped_of_operators hoperator
      have hfirst := (ihLeft hsplit.left).2
      have hsecond := (ihRight hsplit.right.tail).2
      rw [hlevel] at hfirst
      rw [hnext] at hsecond
      rw [Token.splitAll_append, Token.splitAll_cons (Token.isFolded_of_isAny hoperator),
        Level.respell_join]
      exact .operation hfirst hoperator hsecond
  | unary hoperator _ ih =>
      refine capped ?_
      have hphrase := Phrase.unary hoperator (ih hsplit.tail).2
      rw [Expr.span_unfolded] at hphrase
      rwa [Token.splitAll_cons (Token.isFolded_of_isAny hoperator)]
  | @call front inside opening closing callee arguments hcallee hopening harguments hinside hclosing
      ihCallee ihArguments =>
      refine capped ?_
      -- A callee binds as tightly as a primary, so it must not have become a unary operation.
      have hlast := hsplit.last_not_folded (by simp [Token.isAny, hopening])
      obtain ⟨hparts, hlist⟩ := split_parts hsplit.right.tail.left hinside
        fun argument hargument hpart => (ihArguments argument hargument hpart).2
      have hphrase := Phrase.call ((ihCallee hsplit.left).1 hlast) hopening hparts hlist hclosing
      rw [map_snd_splitPart, Expr.span_unfolded] at hphrase
      rw [Token.splitAll_append, Token.splitAll_enclosed hopening hclosing, Expr.respell,
        Expr.respellAll_eq_map]
      exact hphrase
  | @member front point name object hobject hpoint hname ih =>
      refine capped ?_
      have hlast := hsplit.last_not_folded (by simp [Token.isAny, hpoint])
      have hkind : name.kind ≠ .number := by
        rcases hname with h | h <;> simp [h]
      have hphrase := Phrase.member ((ih hsplit.left).1 hlast) hpoint hname
      rw [Expr.span_unfolded] at hphrase
      rwa [Token.splitAll_append, Token.splitAll_cons (Token.isFolded_of_is hpoint),
        Token.splitAll_cons (Token.isFolded_of_kind hkind), Token.splitAll_nil]
  | @literal token value hvalue =>
      cases hfolded : token.isFolded with
      | false =>
          refine capped ?_
          rw [Token.splitAll_cons hfolded, Token.splitAll_nil, respell_literal hvalue hfolded]
          exact .literal hvalue
      | true =>
          -- The one case that leaves its level: the literal becomes a negation.
          refine ⟨fun hlast => by simp [hfolded] at hlast, ?_⟩
          have hphrase := split_signed hvalue hfolded
            (hsplit.stands token List.mem_cons_self hfolded)
          rwa [Token.splitAll, List.flatMap_singleton]
  | identifier hkind =>
      refine capped ?_
      rw [Token.splitAll_cons (Token.isFolded_of_kind (by simp [hkind])), Token.splitAll_nil]
      exact .identifier hkind
  | grouping hopening _ hclosing ih =>
      refine capped ?_
      rw [Token.splitAll_enclosed hopening hclosing]
      exact .grouping hopening (ih hsplit.tail.left).2 hclosing
  | array hopening helements hinside hclosing ih =>
      refine capped ?_
      obtain ⟨hparts, hlist⟩ := split_parts hsplit.tail.left hinside
        fun element helement hpart => (ih element helement hpart).2
      have hphrase := Phrase.array hopening hparts hlist hclosing
      rw [map_snd_splitPart] at hphrase
      rw [Token.splitAll_enclosed hopening hclosing, Expr.respell, Expr.respellAll_eq_map]
      exact hphrase
  | @object opening closing inside entries hopening hentries hinside hclosing ih =>
      refine capped ?_
      have hparts := hsplit.tail.left.of_separated hinside
      have hvalues : ∀ entry ∈ entries.map Entry.split,
          Phrase sourceText .assign entry.tokens entry.value :=
        List.forall_mem_map.2 fun entry hentry =>
          (ih entry hentry (hparts entry hentry).tail.tail).2
      have hphrase := Phrase.object hopening hvalues
        (hinside.splitAll fun entry _ => entry.all_split) hclosing
      rw [Token.splitAll_enclosed hopening hclosing, Expr.respell, Expr.respellProperties_eq_map]
      have hproperties : (entries.map Entry.split).map Entry.property =
          (entries.map Entry.property).map (Property.respell .unfolded) := by
        simp [Function.comp_def, Entry.property_split]
      rw [hproperties] at hphrase
      exact hphrase

end Phrase

end ScriptLint
