import PluralForms.Proofs.DigitRuns
import PluralForms.Proofs.Stepwise.Course

/-!
# Conditions, step by step

The index always stands at the first of the tokens that are left, so no token is asked for that is
not there; numbers, ranges and relations are made from parts that make them; and the loops end,
since every turn takes a character or a token.
-/

namespace PluralForms

open Text

namespace Stepwise

/-! ## Tokens -/

section Tokens

variable {source : String} {s : Suffix}

theorem lexeme?_of_sign {c : Char} {kind : TokenKind} (h : sign? c = some kind)
    (tail : List Char) : lexeme? (c :: tail) = some ⟨kind, [c], tail⟩ := by
  unfold sign? at h
  split at h
  · next hc =>
      cases h
      rw [hc]
      rfl
  · split at h
    · next hc =>
        cases h
        rw [hc]
        rfl
    · split at h
      · next hc =>
          cases h
          rw [hc]
          rfl
      · cases h

/-- Where no sign of one character stands, there may be one of two. -/
theorem lexeme?_of_no_sign {c : Char} (hletter : ¬isLetter c = true) (hdigit : ¬isDigit c = true)
    (hnone : sign? c = none) (tail : List Char) :
    lexeme? (c :: tail) =
      if c = '!' ∧ tail.head? = some '=' then some ⟨.notEquals, ['!', '='], tail.tail⟩
      else if c = '.' ∧ tail.head? = some '.' then some ⟨.range, ['.', '.'], tail.tail⟩
      else none := by
  simp only [lexeme?, if_neg hletter, if_neg hdigit]
  split
  · cases hnone
  · cases hnone
  · cases hnone
  · rfl
  · rfl
  · next hexclusion hrange =>
      have hnotExclusion : ¬(c = '!' ∧ tail.head? = some '=') := by
        rintro ⟨hc, hhead⟩
        obtain ⟨rest, htail⟩ := List.head?_eq_some_iff.mp hhead
        exact hexclusion rest hc htail
      have hnotRange : ¬(c = '.' ∧ tail.head? = some '.') := by
        rintro ⟨hc, hhead⟩
        obtain ⟨rest, htail⟩ := List.head?_eq_some_iff.mp hhead
        exact hrange rest hc htail
      rw [if_neg hnotExclusion, if_neg hnotRange]

def frontToken (s : Suffix) (c : Char) : Except Issue (Token × Suffix) :=
  match lexeme? s.chars with
  | none => .error ⟨.unexpected (String.singleton c) none, s.position⟩
  | some piece =>
      .ok (⟨piece.kind, String.ofList piece.text, s.position⟩,
        ⟨s.position + piece.text.length, piece.rest⟩)

theorem drop_two {c d : Char} {tail : List Char} (hchars : s.chars = c :: tail)
    (hhead : tail.head? = some d) : s.drop 2 = ⟨s.position + 2, tail.tail⟩ := by
  obtain ⟨rest, rfl⟩ := List.head?_eq_some_iff.mp hhead
  simp [Suffix.drop, hchars]

theorem readToken_cursorAt (hs : s.Within source.toList) {c : Char} {tail : List Char}
    (hchars : s.chars = c :: tail) :
    readToken (cursorAt source s) = along source (withCursor source) (frontToken s c) := by
  have hadvance : (cursorAt source s).advance 1 = cursorAt source (s.drop 1) :=
    advance_cursorAt hs 1
  have hadvanceTwo : (cursorAt source s).advance 2 = cursorAt source (s.drop 2) :=
    advance_cursorAt hs 2
  have hpeek : peek (cursorAt source s) 1 = pure tail.head? := by
    rw [List.head?_eq_getElem?, ← List.getElem?_cons_succ, ← hchars]
    exact peek_cursorAt hs 1
  rw [readToken, current_cursorAt hs hchars, pure_bind_step, takeWhile_cursorAt hs,
    takeWhile_cursorAt hs]
  by_cases hletter : isLetter c = true
  · have hlexeme : lexeme? s.chars =
        some ⟨.word, s.chars.takeWhile isLetter, s.chars.dropWhile isLetter⟩ := by
      simp [lexeme?, hchars, hletter]
    rw [if_pos hletter, frontToken, hlexeme]
    rfl
  · by_cases hdigit : isDigit c = true
    · have hlexeme : lexeme? s.chars =
          some ⟨.number, s.chars.takeWhile isDigit, s.chars.dropWhile isDigit⟩ := by
        simp [lexeme?, hchars, hletter, hdigit]
      rw [if_neg hletter, if_pos hdigit, frontToken, hlexeme]
      rfl
    · rw [if_neg hletter, if_neg hdigit, hadvance, hadvanceTwo, hpeek]
      cases hsign : sign? c with
      | some kind =>
          have hlexeme := lexeme?_of_sign hsign tail
          have hdrop : s.drop 1 = ⟨s.position + 1, tail⟩ := by
            simp [Suffix.drop, hchars]
          rw [frontToken, hchars, hlexeme, hdrop]
          rfl
      | none =>
          have hlexeme := lexeme?_of_no_sign hletter hdigit hsign tail
          rw [frontToken, hchars, hlexeme, pure_bind_step]
          by_cases hexclusion : c = '!' ∧ tail.head? = some '='
          · have hdrop : s.drop 2 = ⟨s.position + 2, tail.tail⟩ := drop_two hchars hexclusion.2
            rw [if_pos hexclusion, if_pos hexclusion, hdrop]
            rfl
          · by_cases hrange : c = '.' ∧ tail.head? = some '.'
            · have hdrop : s.drop 2 = ⟨s.position + 2, tail.tail⟩ := drop_two hchars hrange.2
              rw [if_neg hexclusion, if_neg hexclusion, if_pos hrange, if_pos hrange, hdrop]
              rfl
            · rw [if_neg hexclusion, if_neg hexclusion, if_neg hrange, if_neg hrange]
              exact unexpectedToken_eq _ s.position _ none

def withStop (source : String) (result : List Token × Nat) : List Token × Cursor :=
  (result.1, ⟨source, result.2⟩)

theorem readTokens_turn {turns : Nat} (hturns : 0 < turns) (hs : s.Within source.toList) :
    readTokens turns (cursorAt source s) =
      match nextToken s with
      | .error issue => along source (withStop source) (.error issue)
      | .ok (none, rest) => pure ([], cursorAt source rest)
      | .ok (some token, rest) => do
          let (tokens, last) ← readTokens (turns - 1) (cursorAt source rest)
          return (token :: tokens, last) := by
  have hskip := hs.behind_skipBlanks.within
  obtain ⟨turns, rfl⟩ := Nat.exists_eq_add_one.mpr hturns
  rw [readTokens, skipBlanks_cursorAt hs, pure_bind_step, atEnd_cursorAt hskip]
  unfold nextToken
  cases hchars : s.skipBlanks.chars with
  | nil => rfl
  | cons c tail =>
      rw [current_cursorAt hskip hchars, readToken_cursorAt hskip hchars]
      by_cases hmarker : c = sampleMarker
      · simp only [List.isEmpty_cons, Bool.false_eq_true, if_false, pure_bind_step, if_pos hmarker]
      · simp only [List.isEmpty_cons, Bool.false_eq_true, if_false, pure_bind_step, if_neg hmarker,
          frontToken, hchars]
        cases lexeme? (c :: tail) <;> rfl

/-- Behind a token there is as much to do as before it, with fewer characters. -/
theorem readTokens_token {turns : Nat} (hturns : s.chars.length < turns)
    (hs : s.Within source.toList) {token : Token} {rest : Suffix}
    (hnext : nextToken s = .ok (some token, rest)) :
    rest.Within source.toList ∧ rest.chars.length < turns - 1 ∧
      readTokens turns (cursorAt source s) =
        readTokens (turns - 1) (cursorAt source rest) >>= fun read =>
          pure (token :: read.1, read.2) := by
  refine ⟨?_, ?_, ?_⟩
  · have hread := (nextToken_staysBehind hs).1
    rw [hnext] at hread
    exact hread.within
  · have hlength := nextToken_length hnext
    omega
  · rw [readTokens_turn (Nat.zero_lt_of_lt hturns) hs, hnext]

/-- With more turns than characters the loop ends, because every token takes a character. -/
theorem readTokens_cursorAt {turns : Nat} (hturns : s.chars.length < turns)
    (hs : s.Within source.toList) :
    readTokens turns (cursorAt source s) = along source (withStop source) (scan s) := by
  fun_induction scan s generalizing turns with
  | case1 s issue hnext => rw [readTokens_turn (Nat.zero_lt_of_lt hturns) hs, hnext]
  | case2 s rest hnext =>
      rw [readTokens_turn (Nat.zero_lt_of_lt hturns) hs, hnext]
      rfl
  | case3 s token rest hnext issue hrest ih =>
      obtain ⟨hwithin, hfewer, hread⟩ := readTokens_token hturns hs hnext
      rw [hread, ih hfewer hwithin, hrest]
      rfl
  | case4 s token rest hnext tokens stop hrest ih =>
      obtain ⟨hwithin, hfewer, hread⟩ := readTokens_token hturns hs hnext
      rw [hread, ih hfewer hwithin, hrest]
      rfl

theorem length_le_of_scan {tokens : List Token} {stop : Nat} (h : scan s = .ok (tokens, stop)) :
    tokens.length ≤ s.chars.length := by
  fun_induction scan s generalizing tokens with
  | case1 => cases h
  | case2 =>
      cases h
      exact Nat.zero_le _
  | case3 => cases h
  | case4 s token rest hnext others last hrest ih =>
      cases h
      have hothers := ih hrest
      have hlength := nextToken_length hnext
      rw [List.length_cons]
      omega

end Tokens

/-! ## Conditions -/

def indexOf (t : Tokenized) (rest : Condition.Tokens) : Nat := t.tokens.length - rest.length

def withIndex {α : Type} (t : Tokenized) (result : α × Condition.Tokens) : α × Nat :=
  (result.1, indexOf t result.2)

section Conditions

variable {α β γ : Type} {t : Tokenized} {rest : Condition.Tokens} {stop : Nat}

theorem indexOf_append {front : Condition.Tokens} (h : front ++ rest = t.tokens) :
    indexOf t rest = front.length := by
  rw [indexOf, ← h, List.length_append]
  omega

theorem indexOf_tail {token : Token} (hrest : token :: rest <:+ t.tokens) :
    indexOf t rest = indexOf t (token :: rest) + 1 := by
  have hle := hrest.length_le
  rw [List.length_cons] at hle
  rw [indexOf, indexOf, List.length_cons]
  omega

theorem tokenAt_indexOf {token : Token} (hrest : token :: rest <:+ t.tokens) :
    tokenAt t (indexOf t (token :: rest)) = pure token := by
  obtain ⟨front, htokens⟩ := hrest
  have hfound : t.tokens[(indexOf t (token :: rest) : Int).toNat]? = some token := by
    rw [indexOf_append htokens, Int.toNat_natCast, ← htokens, List.getElem?_append_right le_rfl,
      Nat.sub_self]
    rfl
  simp only [tokenAt, Int.natCast_nonneg, if_true, hfound]

theorem peekToken_indexOf (hrest : rest <:+ t.tokens) :
    peekToken t (indexOf t rest) = pure rest.head? := by
  have hle := hrest.length_le
  cases rest with
  | nil =>
      have hend : ¬indexOf t [] < t.tokens.length := by
        rw [indexOf, List.length_nil]
        omega
      rw [peekToken, if_neg hend]
      rfl
  | cons token rest =>
      have hlt : indexOf t (token :: rest) < t.tokens.length := by
        rw [List.length_cons] at hle
        rw [indexOf, List.length_cons]
        omega
      rw [peekToken, if_pos hlt, tokenAt_indexOf hrest]
      rfl

theorem unexpected_eq (view : α → β) (token : Token) (expected : Expectation) :
    unexpected t token expected =
      along t.source view (.error (Condition.unexpected token expected)) :=
  unexpectedToken_eq view token.position token.text (some expected)

theorem accept_of_some {test : Token → Bool} {after : Condition.Tokens} (hrest : rest <:+ t.tokens)
    (h : Condition.accept test rest = some after) :
    accept t test (indexOf t rest) = pure (true, indexOf t after) := by
  obtain ⟨token, rfl, htest⟩ := Condition.accept_eq_some h
  rw [accept, peekToken_indexOf hrest, indexOf_tail hrest]
  simp only [List.head?_cons, pure_bind_step, htest, if_true]

theorem accept_of_none {test : Token → Bool} (hrest : rest <:+ t.tokens)
    (h : Condition.accept test rest = none) :
    accept t test (indexOf t rest) = pure (false, indexOf t rest) := by
  rw [accept, peekToken_indexOf hrest]
  cases rest with
  | nil => rfl
  | cons token rest =>
      have htest : test token = false := by
        simpa [Condition.accept] using h
      simp [htest]

/-- As `along_bind`, where the reading leaves tokens. -/
theorem along_bind_tokens {first : Except Issue (α × Condition.Tokens)}
    {next : α × Condition.Tokens → Except Issue β} {view : β → γ} {step : α × Nat → Step γ}
    (hrest : rest <:+ t.tokens) (hfirst : Condition.StaysAmong stop rest first)
    (hnext : ∀ a after, after <:+ t.tokens → first = .ok (a, after) →
      step (a, indexOf t after) = along t.source view (next (a, after))) :
    (along t.source (withIndex t) first >>= step) = along t.source view (first >>= next) := by
  refine along_bind ?_
  rintro ⟨a, after⟩ hread
  rw [hread] at hfirst
  exact hnext a after (List.IsSuffix.trans hfirst hrest) hread


/-! ### Numbers -/

structure Legible (token : Token) : Prop where
  ne_nil : token.text.toList ≠ []
  isDigitRun : IsDigitRun token.text.toList
  length_le : token.text.length ≤ maxNumberDigits

theorem readNumber_of_legible {token : Token} (h : Legible token) :
    readNumber token.text = pure (digitsValue token.text.toList) := by
  have hall : token.text.toList.all isDigit = true := List.all_eq_true.mpr h.isDigitRun
  rw [readNumber, if_pos ⟨h.ne_nil, hall, h.length_le⟩]

/-- What is refused unread is too large indeed. -/
theorem value_eq {token : Token} (h : Legible token) :
    value t token = along t.source id (Condition.literalValue token) := by
  by_cases hlarge : maxInteger < digitsValue token.text.toList
  · have hrefused : Condition.literalValue token =
        .error (Condition.badLiteral token .tooLarge) := by
      simp only [Condition.literalValue, if_pos hlarge]
    rw [value, readNumber_of_legible h, pure_bind_step, if_pos hlarge, ite_self, hrefused]
    exact invalidNumber_eq id token .tooLarge
  · have hlength : ¬(Nat.toDigits 10 maxInteger).length <
        (withoutLeadingZeros token.text.toList).length :=
      Nat.not_lt.mpr (length_withoutLeadingZeros_le h.isDigitRun (Nat.not_lt.mp hlarge))
    have hread : Condition.literalValue token = .ok (digitsValue token.text.toList) := by
      simp only [Condition.literalValue, if_neg hlarge]
    rw [value, if_neg hlength, readNumber_of_legible h, pure_bind_step, if_neg hlarge, hread]
    rfl

theorem ofBounds?_of_le {lower upper : Nat} (h : lower ≤ upper) :
    Interval.ofBounds? lower upper = .ok ⟨lower, upper, h⟩ := by
  have hlower : ¬(lower : Int) < 0 := by omega
  have hupper : ¬(upper : Int) < lower := by omega
  simp only [Interval.ofBounds?, if_neg hlower, dif_neg hupper, Int.toNat_natCast]

def modulusWithIndex (t : Tokenized) (result : Option Modulus × Condition.Tokens) :
    Option Nat × Nat :=
  (result.1.map Modulus.value, indexOf t result.2)

theorem modulus_mapM (modulus : Option Modulus) :
    (modulus.map Modulus.value).mapM (fun (value : Nat) => Modulus.ofInt? value) =
      (.ok modulus : Except TreeError (Option Modulus)) := by
  cases modulus with
  | none => rfl
  | some modulus =>
      have hpos := modulus.pos
      have hread : Modulus.ofInt? (modulus.value : Int) = .ok modulus := by
        rw [Modulus.ofInt?, dif_neg (by omega)]
        rfl
      simp only [Option.map_some, Option.mapM_some, hread]
      rfl

theorem relationOf_eq (operand : Operand) (comparison : Comparison) (modulus : Option Modulus)
    (negated : Bool) :
    relationOf operand comparison.operator comparison.ranges (modulus.map Modulus.value) negated =
      pure { operand, modulus, comparison, negated } := by
  have hcomparison :
      Comparison.ofRanges? comparison.operator comparison.ranges = .ok comparison := by
    cases comparison with
    | equality value =>
        show (if (Interval.single value).isSingle && true then _ else _) = _
        rw [Interval.isSingle_single]
        rfl
    | membership list => rfl
    | within list => rfl
  rw [relationOf, hcomparison, modulus_mapM]
  rfl

structure Tokenized.Readable (t : Tokenized) (stop : Nat) : Prop where
  stop_eq : t.stop = stop
  legible : ∀ token ∈ t.tokens, token.kind = .number → Legible token

/-! ### Items with marks between them -/

/-- With more turns than tokens the loop ends, because every item takes a token. -/
theorem separated_indexOf {item : Nat → Step (α × Nat)} {mark : Token → Bool}
    {one : Condition.Tokens → Except Issue (α × Condition.Tokens)}
    {many : Condition.Tokens → Except Issue (List α × Condition.Tokens)}
    (hmany : Condition.ReadsSeparated one mark many)
    (hstays : ∀ rest, Condition.StaysAmong stop rest (one rest))
    (hprogress : ∀ {rest a after}, one rest = .ok (a, after) → after.length < rest.length)
    (hitem : ∀ rest, rest <:+ t.tokens →
      item (indexOf t rest) = along t.source (withIndex t) (one rest))
    {turns : Nat} (hturns : rest.length < turns) (hrest : rest <:+ t.tokens) :
    separated t item mark turns (indexOf t rest) = along t.source (withIndex t) (many rest) := by
  induction turns generalizing rest with
  | zero => exact absurd hturns (Nat.not_lt_zero _)
  | succ turns ih =>
      have hone := hstays rest
      rw [separated, hitem rest hrest, hmany rest]
      cases hfirst : one rest with
      | error issue => rfl
      | ok result =>
          obtain ⟨first, after⟩ := result
          rw [hfirst] at hone
          have hafter : after <:+ t.tokens := List.IsSuffix.trans hone hrest
          rw [along_pure, pure_bind_step]
          dsimp only [withIndex]
          cases hmore : Condition.accept mark after with
          | none =>
              rw [accept_of_none hafter hmore]
              rfl
          | some more =>
              have hmoreTokens : more <:+ t.tokens := (Condition.accept_suffix hmore).trans hafter
              have hpiece := hprogress hfirst
              have hmark := Condition.accept_length hmore
              have hothers := ih (by omega) hmoreTokens
              rw [accept_of_some hafter hmore, pure_bind_step]
              dsimp only
              rw [if_pos rfl, hothers]
              cases many more <;> rfl

/-! ### Tokens and relations -/

section

variable (ht : t.Readable stop)
include ht

theorem takeToken_indexOf (hrest : rest <:+ t.tokens) (expected : Expectation) :
    takeToken t expected (indexOf t rest) =
      along t.source (withIndex t) (Condition.readToken stop expected rest) := by
  rw [takeToken, peekToken_indexOf hrest]
  cases rest with
  | nil =>
      simp only [List.head?_nil, pure_bind_step, ht.stop_eq]
      exact unexpectedEnd_eq _ stop expected
  | cons token rest =>
      simp only [List.head?_cons, pure_bind_step, ← indexOf_tail hrest]
      rfl

theorem numberToken_indexOf (hrest : rest <:+ t.tokens) :
    numberToken t (indexOf t rest) =
      along t.source (withIndex t) (Condition.readNumber stop rest) := by
  rw [numberToken, takeToken_indexOf ht hrest]
  cases rest with
  | nil => rfl
  | cons token rest =>
      by_cases hkind : token.kind = .number
      · simp only [Condition.readToken, along_pure, withIndex, pure_bind_step, if_pos hkind,
          Condition.readNumber]
      · simp only [Condition.readToken, along_pure, withIndex, pure_bind_step, if_neg hkind,
          Condition.readNumber]
        exact unexpected_eq _ token .number

theorem operand_indexOf (hrest : rest <:+ t.tokens) :
    operand t (indexOf t rest) =
      along t.source (withIndex t) (Condition.readOperand stop rest) := by
  rw [operand, takeToken_indexOf ht hrest]
  refine along_bind_tokens hrest (Condition.readToken_staysAmong .operand rest) ?_
  intro token after _ _
  by_cases hkind : token.kind = .word
  · cases hname : Operand.ofName? token.text with
    | none =>
        simp only [if_pos hkind, hname, Condition.operandOf]
        exact invalidOperand_eq _ token
    | some operand =>
        simp only [if_pos hkind, hname, Condition.operandOf]
        rfl
  · simp only [if_neg hkind, Condition.operandOf]
    exact unexpected_eq _ token .operand

theorem legible_of_readNumber (hrest : rest <:+ t.tokens) {token : Token}
    {after : Condition.Tokens} (h : Condition.readNumber stop rest = .ok (token, after)) :
    Legible token := by
  obtain ⟨rfl, hkind⟩ := Condition.readNumber_eq_ok h
  exact ht.legible token (hrest.mem List.mem_cons_self) hkind

theorem modulus_indexOf (hrest : rest <:+ t.tokens) :
    modulus t (indexOf t rest) =
      along t.source (modulusWithIndex t) (Condition.readModulus stop rest) := by
  rw [modulus, Condition.readModulus]
  cases hnamed : Condition.accept (fun token => token.isWord "mod" || token.isKind .percent)
      rest with
  | none =>
      rw [accept_of_none hrest hnamed]
      rfl
  | some after =>
      have hafter : after <:+ t.tokens := (Condition.accept_suffix hnamed).trans hrest
      rw [accept_of_some hrest hnamed, pure_bind_step]
      dsimp only
      rw [if_pos rfl, numberToken_indexOf ht hafter]
      refine along_bind_tokens hafter (Condition.readNumber_staysAmong after) ?_
      intro token last _ hread
      dsimp only
      rw [value_eq (legible_of_readNumber ht hafter hread), Condition.modulusOf, bind_assoc]
      refine along_bind ?_
      intro value _
      by_cases hzero : value = 0
      · rw [id, if_pos hzero, dif_neg (by omega)]
        exact invalidNumber_eq _ token .zeroModulus
      · rw [id, if_neg hzero, dif_pos (by omega)]
        rfl

theorem interval_indexOf (hrest : rest <:+ t.tokens) :
    interval t (indexOf t rest) =
      along t.source (withIndex t) (Condition.readInterval stop rest) := by
  rw [interval, numberToken_indexOf ht hrest]
  refine along_bind_tokens hrest (Condition.readNumber_staysAmong rest) ?_
  intro low after hafter hlow
  dsimp only
  rw [value_eq (legible_of_readNumber ht hrest hlow)]
  refine along_bind ?_
  intro lower _
  dsimp only [id]
  cases hmore : Condition.accept (·.isKind .range) after with
  | none =>
      rw [accept_of_none hafter hmore, pure_bind_step, ofBounds?_of_le le_rfl]
      rfl
  | some more =>
      have hmoreTokens : more <:+ t.tokens := (Condition.accept_suffix hmore).trans hafter
      rw [accept_of_some hafter hmore, pure_bind_step]
      dsimp only
      rw [if_pos rfl, numberToken_indexOf ht hmoreTokens]
      refine along_bind_tokens hmoreTokens (Condition.readNumber_staysAmong more) ?_
      intro high last _ hhigh
      dsimp only
      rw [value_eq (legible_of_readNumber ht hmoreTokens hhigh)]
      refine along_bind ?_
      intro upper _
      dsimp only [id]
      by_cases hle : lower ≤ upper
      · rw [if_neg (Nat.not_lt.mpr hle), dif_pos hle, ofBounds?_of_le hle]
        rfl
      · rw [if_pos (Nat.not_le.mp hle), dif_neg hle]
        exact invalidNumber_eq _ high .belowLowerBound

/-! ### Relations -/

def relationWithIndex (t : Tokenized) (operand : Operand) (modulus : Option Modulus)
    (result : (Comparison × Bool) × Condition.Tokens) : Relation × Nat :=
  ({ operand, modulus, comparison := result.1.1, negated := result.1.2 }, indexOf t result.2)

theorem equalTo_indexOf (hrest : rest <:+ t.tokens) (subject : Operand)
    (modulus : Option Modulus) (negated : Bool) :
    equalTo t subject (modulus.map Modulus.value) negated (indexOf t rest) =
      along t.source (relationWithIndex t subject modulus)
        (Condition.readNumber stop rest >>= fun read =>
          Condition.literalValue read.1 >>= fun value =>
            pure ((.equality value, negated), read.2)) := by
  rw [equalTo, numberToken_indexOf ht hrest]
  refine along_bind_tokens hrest (Condition.readNumber_staysAmong rest) ?_
  intro token last _ hread
  dsimp only
  rw [value_eq (legible_of_readNumber ht hrest hread)]
  refine along_bind ?_
  intro number _
  have hrelation := relationOf_eq subject (.equality number) modulus negated
  rw [Comparison.operator, Comparison.ranges, Interval.single] at hrelation
  dsimp only [id]
  rw [ofBounds?_of_le le_rfl, checked_ok, pure_bind_step, hrelation]
  rfl

theorem equality_indexOf (hrest : rest <:+ t.tokens) (subject : Operand)
    (modulus : Option Modulus) (negated : Bool) :
    equality t subject (modulus.map Modulus.value) negated (indexOf t rest) =
      along t.source (relationWithIndex t subject modulus)
        (Condition.readEquality stop negated rest) := by
  rw [equality, Condition.readEquality]
  cases hnot : Condition.accept (·.isWord "not") rest with
  | none =>
      have hread : Condition.readIsNot negated rest = .ok (negated, rest) := by
        cases rest with
        | nil => rfl
        | cons token rest =>
            have htoken : token.isWord "not" = false := by
              simpa [Condition.accept] using hnot
            simp [Condition.readIsNot, htoken]
      rw [accept_of_none hrest hnot, hread, pure_bind_step]
      dsimp only
      rw [Bool.false_and, if_neg Bool.false_ne_true, Bool.or_false]
      exact equalTo_indexOf ht hrest subject modulus negated
  | some after =>
      obtain ⟨token, rfl, htoken⟩ := Condition.accept_eq_some hnot
      have hafter : after <:+ t.tokens := (List.suffix_cons token after).trans hrest
      rw [accept_of_some hrest hnot, pure_bind_step]
      dsimp only
      cases negated with
      | true =>
          have hlast : ((indexOf t after : Int) - 1) = indexOf t (token :: after) := by
            rw [indexOf_tail hrest]
            omega
          rw [Bool.true_and, if_pos rfl, hlast, tokenAt_indexOf hrest, pure_bind_step,
            Condition.readIsNot, if_pos htoken]
          exact unexpected_eq _ token .value
      | false =>
          rw [Bool.and_false, if_neg Bool.false_ne_true, Bool.or_true, Condition.readIsNot,
            if_pos htoken]
          exact equalTo_indexOf ht hafter subject modulus true

/-! With more turns than tokens, every loop over the tokens ends. -/

variable {turns : Nat} (hturns : t.tokens.length < turns)
include hturns

theorem ranges_indexOf {operator : Operator} (make : RangeList → Comparison)
    (hrest : rest <:+ t.tokens) (subject : Operand) (modulus : Option Modulus) (negated : Bool)
    (hoperator : ∀ list, (make list).operator = operator)
    (hranges : ∀ list, (make list).ranges = list.toList) :
    ranges t turns subject operator (modulus.map Modulus.value) negated (indexOf t rest) =
      along t.source (relationWithIndex t subject modulus)
        (Condition.readRanges stop rest >>= fun read => pure ((make read.1, negated), read.2)) := by
  have hitems := separated_indexOf (Condition.readIntervals_eq stop)
    Condition.readInterval_staysAmong Condition.readInterval_length
    (fun rest => interval_indexOf ht) (Nat.lt_of_le_of_lt hrest.length_le hturns) hrest
  rw [ranges, hitems, Condition.readIntervals]
  cases Condition.readRanges stop rest with
  | error issue => rfl
  | ok read =>
      have hrelation := relationOf_eq subject (make read.1) modulus negated
      rw [hoperator, hranges] at hrelation
      show (do
        let relation ← relationOf subject operator read.1.toList (modulus.map Modulus.value) negated
        return (relation, indexOf t read.2)) = _
      rw [hrelation]
      rfl

/-- The operators are told apart in another order, but no token is two of them. -/
theorem comparison_indexOf (hrest : rest <:+ t.tokens) (subject : Operand)
    (modulus : Option Modulus) (negated : Bool) :
    comparison t turns subject (modulus.map Modulus.value) negated (indexOf t rest) =
      along t.source (relationWithIndex t subject modulus)
        (Condition.readComparison stop negated rest) := by
  rw [comparison, takeToken_indexOf ht hrest]
  refine along_bind_tokens hrest (Condition.readToken_staysAmong .operator rest) ?_
  intro token after hafter _
  dsimp only
  have hmembership := fun sign => ranges_indexOf ht hturns .membership hafter subject modulus
    sign (fun _ => rfl) (fun _ => rfl)
  by_cases his : token.isWord "is" = true
  · rw [if_pos his, if_pos his]
    exact equality_indexOf ht hafter subject modulus negated
  · rw [if_neg his, if_neg his]
    by_cases hin : token.isWord "in" = true
    · have hwithin : token.isWord "within" = false :=
        Condition.isWord_of_isWord hin (by decide)
      simp only [hin, hwithin, if_true, Bool.false_eq_true, if_false, Bool.true_or]
      exact hmembership negated
    · by_cases hwithin : token.isWord "within" = true
      · rw [if_neg hin, if_pos hwithin, if_pos hwithin]
        exact ranges_indexOf ht hturns .within hafter subject modulus negated (fun _ => rfl)
          (fun _ => rfl)
      · rw [if_neg hin, if_neg hwithin, if_neg hwithin]
        by_cases hequals : token.isKind .equals = true
        · have hnotEquals : token.isKind .notEquals = false :=
            Condition.isKind_of_isKind hequals (by decide)
          simp only [hequals, hnotEquals, Bool.true_or, Bool.or_true, if_true, Bool.bne_false]
          exact hmembership negated
        · by_cases hnotEquals : token.isKind .notEquals = true
          · simp only [hin, hequals, hnotEquals, Bool.or_true, Bool.or_false, if_true,
              Bool.false_eq_true, if_false, Bool.bne_true]
            exact hmembership !negated
          · simp only [hin, hequals, hnotEquals, Bool.or_false, Bool.false_eq_true, if_false]
            exact unexpected_eq _ token .operator

theorem relation_indexOf (hrest : rest <:+ t.tokens) :
    relation t turns (indexOf t rest) =
      along t.source (withIndex t) (Condition.readRelation stop rest) := by
  rw [relation, operand_indexOf ht hrest]
  refine along_bind_tokens hrest (Condition.readOperand_staysAmong rest) ?_
  intro subject afterOperand hoperand _
  dsimp only
  rw [modulus_indexOf ht hoperand]
  refine along_bind ?_
  rintro ⟨modulus, afterModulus⟩ hmodulus
  have hafter : afterModulus <:+ t.tokens := by
    have hstays : Condition.StaysAmong stop afterOperand
        (Condition.readModulus stop afterOperand) := Condition.readModulus_staysAmong afterOperand
    rw [hmodulus] at hstays
    exact List.IsSuffix.trans hstays hoperand
  have hnot : accept t (·.isWord "not") (indexOf t afterModulus) =
      pure ((Condition.readNot afterModulus).1, indexOf t (Condition.readNot afterModulus).2) := by
    unfold Condition.readNot
    cases hnot : Condition.accept (·.isWord "not") afterModulus with
    | none => exact accept_of_none hafter hnot
    | some after => exact accept_of_some hafter hnot
  dsimp only [modulusWithIndex]
  rw [hnot, pure_bind_step]
  dsimp only
  rw [comparison_indexOf ht hturns ((Condition.readNot_suffix afterModulus).trans hafter)]
  cases Condition.readComparison stop (Condition.readNot afterModulus).1
    (Condition.readNot afterModulus).2 <;> rfl

theorem conjunction_indexOf (hrest : rest <:+ t.tokens) :
    conjunction t turns (indexOf t rest) =
      along t.source (withIndex t) (Condition.readConjunction stop rest) :=
  separated_indexOf (Condition.readConjunction_eq stop) Condition.readRelation_staysAmong
    Condition.readRelation_length (fun _ => relation_indexOf ht hturns)
    (Nat.lt_of_le_of_lt hrest.length_le hturns) hrest

omit ht hturns in
/-- Where there are tokens, none may be left behind the alternatives. -/
theorem ofTokens_of_ne_nil {tokens : Condition.Tokens} (hne : tokens ≠ []) :
    Condition.ofTokens stop tokens =
      Condition.readDisjunction stop tokens >>= fun read =>
        read.2.head?.elim (.ok ⟨read.1⟩) fun token =>
          .error (Condition.unexpected token .continuation) := by
  cases tokens with
  | nil => exact absurd rfl hne
  | cons first others =>
      simp only [Condition.ofTokens]
      cases Condition.readDisjunction stop (first :: others) with
      | error issue => rfl
      | ok read =>
          obtain ⟨groups, rest⟩ := read
          cases rest <;> rfl

theorem ofTokens_eq :
    ofTokens t turns = along t.source id (Condition.ofTokens stop t.tokens) := by
  by_cases hempty : t.tokens = []
  · rw [ofTokens, hempty]
    rfl
  · have hread := separated_indexOf (Condition.readDisjunction_eq stop)
      Condition.readConjunction_staysAmong Condition.readConjunction_length
      (fun _ => conjunction_indexOf ht hturns) hturns (List.suffix_refl _)
    have hstart : indexOf t t.tokens = 0 := Nat.sub_self _
    rw [hstart] at hread
    rw [ofTokens, if_neg (mt List.isEmpty_iff.mp hempty), hread, ofTokens_of_ne_nil hempty]
    refine along_bind_tokens (List.suffix_refl _)
      (Condition.readDisjunction_staysAmong t.tokens) ?_
    intro groups rest hrest _
    dsimp only
    rw [peekToken_indexOf hrest, pure_bind_step]
    cases rest with
    | nil => rfl
    | cons token rest => exact unexpected_eq id token .continuation

end

end Conditions

/-! ## Texts of conditions -/

/-- A number of a rule that is not too long can be read. -/
theorem legible_of_scan {text : List Char} (hlength : text.length ≤ maxRuleLength)
    {tokens : List Token} {stop : Nat} (h : scan (.whole text) = .ok (tokens, stop)) :
    ∀ token ∈ tokens, token.kind = .number → Legible token := by
  intro token hmem hkind
  have hstands := standsIn_of_scan (Suffix.whole_within text) h token hmem
  have hlexeme := hstands.isLexeme
  rw [hkind] at hlexeme
  have hpiece := hstands.text_begins.length_le
  rw [List.length_drop, String.length_toList] at hpiece
  cases hlexeme with
  | number hne hall =>
      constructor
      · exact hne
      · exact hall
      · rw [maxNumberDigits]
        rw [maxRuleLength] at hlength
        omega

def withOffset (result : Condition × Nat) : Condition × Int := (result.1, result.2)

theorem readCondition_eq {source : String} {turns : Nat} (hturns : source.length < turns) :
    readCondition turns source = along source withOffset (Condition.readText source.toList) := by
  rw [← String.length_toList] at hturns
  have hwhole : (Suffix.whole source.toList).Within source.toList := Suffix.whole_within _
  rw [readCondition, checkLength_eq]
  refine along_bind ?_
  intro _ hlength
  have hshort := checkLength_eq_ok_iff.mp hlength
  have htokens : readTokens turns ⟨source, 0⟩ =
      along source (withStop source) (scan (.whole source.toList)) :=
    readTokens_cursorAt hturns hwhole
  dsimp only
  rw [htokens]
  refine along_bind ?_
  rintro ⟨tokens, stop⟩ hscan
  dsimp only [withStop]
  have hreadable : Tokenized.Readable ⟨source, tokens, stop⟩ stop :=
    ⟨rfl, legible_of_scan hshort hscan⟩
  have hfewer : tokens.length ≤ source.toList.length := length_le_of_scan hscan
  rw [ofTokens_eq hreadable (Nat.lt_of_le_of_lt hfewer hturns)]
  refine along_bind ?_
  intro condition _
  rfl

end Stepwise

end PluralForms
