import PluralForms.Proofs.Annotations
import PluralForms.Proofs.DigitRuns
import PluralForms.Proofs.Lookahead

/-!
# The first hopeless token

Where a condition is refused because its end comes too early, tokens can be added that complete it.
Where a token is refused, the tokens before it can still be completed, but no longer together with
it.  So a refusal points at the first token after which nothing can help.
-/

namespace PluralForms

open Text

/-- The token has the spelling of its kind. -/
def Symbol.Lexical (symbol : Symbol) : Prop := IsLexeme symbol.kind symbol.text.toList

namespace Condition

/-! ## Tokens to complete with -/

def Lexical (tokens : Tokens) : Prop := ∀ token ∈ tokens, token.symbol.Lexical

theorem Lexical.append {s t : Tokens} (hs : Lexical s) (ht : Lexical t) : Lexical (s ++ t) := by
  intro token hmem
  rcases List.mem_append.mp hmem with hmem | hmem
  · exact hs token hmem
  · exact ht token hmem

/-- Tokens can be added that complete a piece. -/
def Completable (Piece : Tokens → α → Prop) (tokens : Tokens) : Prop :=
  ∃ more a, Lexical more ∧ Piece (tokens ++ more) a

def numberToken (value : Nat) : Token := ⟨.number, String.ofList (Nat.toDigits 10 value), 0⟩

theorem lexical_numberToken (value : Nat) : Lexical [numberToken value] := by
  refine List.forall_mem_singleton.mpr ?_
  show IsLexeme .number (String.ofList (Nat.toDigits 10 value)).toList
  rw [String.toList_ofList]
  exact .number Nat.toDigits_ne_nil (isDigitRun_toDigits value)

theorem literal_numberToken {value : Nat} (h : value ≤ maxInteger) :
    Literal (numberToken value) value where
  isNumber := rfl
  value_eq := by
    show digitsValue (String.ofList (Nat.toDigits 10 value)).toList = value
    rw [String.toList_ofList, digitsValue_toDigits]
  le_max := h

theorem one_le_maxInteger : 1 ≤ maxInteger := by
  decide

def equalsOne : Tokens := [⟨.equals, "=", 0⟩, numberToken 1]

theorem lexical_equalsOne : Lexical equalsOne :=
  List.forall_mem_cons.mpr ⟨.equals, lexical_numberToken 1⟩

def nToken : Token := ⟨.word, "n", 0⟩

theorem lexical_nToken : nToken.symbol.Lexical := by
  have hletter : ∀ c ∈ ['n'], isLetter c = true := List.forall_mem_singleton.mpr rfl
  exact .word (List.cons_ne_nil _ _) hletter

theorem derivesRanges_one : DerivesRanges [numberToken 1] ⟨.single 1, []⟩ :=
  .last (.single (literal_numberToken one_le_maxInteger))

theorem derivesComparison_equalsOne (outer : Bool) :
    DerivesComparison outer equalsOne (.membership ⟨.single 1, []⟩) false :=
  .membership (by decide) derivesRanges_one

/-! ## Where a reader misses a token -/

/-- Where the reader misses a token, tokens can be added that complete the piece. -/
def Completes (read : Reader α) (Piece : Tokens → α → Prop) : Prop :=
  ∀ {stop tokens issue}, read stop tokens = .error issue →
    issue.problem.kind = .unexpectedEnd → Completable Piece tokens

theorem error_of_bind_eq_error {x : Except Issue α} {f : α → Except Issue β} {issue : Issue}
    (h : (x >>= f) = .error issue) : x = .error issue ∨ ∃ a, x = .ok a ∧ f a = .error issue := by
  cases x with
  | error other =>
      cases h
      exact .inl rfl
  | ok a => exact .inr ⟨a, rfl, h⟩

section

variable {stop : Nat} {tokens rest : Tokens} {issue : Issue}

theorem readNumberAs_ended {judge : Token → Except Issue α} (hjudge : Judges judge)
    (h : readNumberAs judge stop tokens = .error issue)
    (hend : issue.problem.kind = .unexpectedEnd) : tokens = [] := by
  cases tokens with
  | nil => rfl
  | cons token rest =>
      rcases error_of_bind_eq_error h with hnumber | ⟨⟨number, after⟩, -, h⟩
      · simp only [readNumber] at hnumber
        split at hnumber <;> cases hnumber
        cases hend
      · rcases error_of_bind_eq_error h with hvalue | ⟨a, -, h⟩
        · exact absurd hend (hjudge.kind_ne hvalue)
        · cases h

theorem readNumberAs_literal {value : Nat}
    (h : readNumberAs literalValue stop tokens = .ok (value, rest)) :
    ∃ token, tokens = token :: rest ∧ Literal token value := by
  obtain ⟨⟨token, after⟩, hnumber, h⟩ := ok_of_bind_eq_ok h
  obtain ⟨found, hvalue, h⟩ := ok_of_bind_eq_ok h
  cases h
  obtain ⟨htokens, hkind⟩ := readNumber_eq_ok hnumber
  exact ⟨token, htokens, (literalValue_eq_ok_iff hkind).mp hvalue⟩

theorem readOperand_ended (h : readOperand stop tokens = .error issue)
    (hend : issue.problem.kind = .unexpectedEnd) : tokens = [] := by
  cases tokens with
  | nil => rfl
  | cons token rest =>
      rcases error_of_bind_eq_error h with htoken | ⟨⟨first, after⟩, htoken, h⟩
      · cases htoken
      · rcases error_of_bind_eq_error h with hoperand | ⟨operand, -, h⟩
        · exact absurd hend (operandOf_judges.kind_ne hoperand)
        · cases h

theorem readModulus_ended (h : readModulus stop tokens = .error issue)
    (hend : issue.problem.kind = .unexpectedEnd) :
    ∃ mark, tokens = [mark] ∧ isModulusMark mark = true := by
  cases haccept : accept isModulusMark tokens with
  | none =>
      rw [readModulus_of_no_mark haccept] at h
      cases h
  | some rest =>
      obtain ⟨mark, rfl, hmark⟩ := accept_eq_some haccept
      rw [readModulus_of_mark haccept] at h
      rcases error_of_bind_eq_error h with hnumber | ⟨r, -, h⟩
      · rw [readNumberAs_ended modulusOf_judges hnumber hend]
        exact ⟨mark, rfl, hmark⟩
      · cases h

/-! ### Ranges -/

theorem readInterval_completes : Completes readInterval DerivesInterval := by
  intro stop tokens issue h hend
  rw [readInterval_eq] at h
  rcases error_of_bind_eq_error h with hlower | ⟨⟨lower, after⟩, hlower, hupper⟩
  · rw [readNumberAs_ended literalValue_judges hlower hend]
    exact ⟨[numberToken 1], .single 1, lexical_numberToken 1,
      .single (literal_numberToken one_le_maxInteger)⟩
  · obtain ⟨low, rfl, hlow⟩ := readNumberAs_literal hlower
    simp only [readUpper] at hupper
    split at hupper
    · cases hupper
    · next rest haccept =>
        obtain ⟨sign, rfl, hsign⟩ := accept_eq_some haccept
        rw [readNumberAs_ended (upperOf_judges lower) hupper hend]
        -- The lower bound itself is not too small for an upper one.
        have hinterval : DerivesInterval [low, sign, numberToken lower] (.single lower) :=
          .range hlow hsign (literal_numberToken hlow.le_max)
        exact ⟨[numberToken lower], .single lower, lexical_numberToken lower, hinterval⟩

theorem separated_completes {one : Reader α} {many : Reader (List α)} {Piece : Tokens → α → Prop}
    {stops : Token → Prop} {separator : Token → Bool}
    (hone : ∀ stop, Recognizes (one stop) Piece stops) (hcompletes : Completes one Piece)
    (hmany : ∀ stop, ReadsSeparated (one stop) separator (many stop)) (tokens : Tokens)
    (h : many stop tokens = .error issue) (hend : issue.problem.kind = .unexpectedEnd) :
    Completable (Separated Piece separator) tokens := by
  rw [hmany stop tokens] at h
  split at h
  · next other hfirst =>
      cases h
      obtain ⟨more, a, hmore, hpiece⟩ := hcompletes hfirst hend
      exact ⟨more, [a], hmore, .last hpiece⟩
  · next first afterFirst hfirst =>
      obtain ⟨taken, htokens, hpiece⟩ := (hone stop).sound hfirst
      split at h
      · cases h
      · next rest haccept =>
          -- After a separator fewer tokens are left; the induction is on their number.
          obtain ⟨mark, hafter, hmark⟩ := accept_eq_some haccept
          have hlt : rest.length < tokens.length := by
            simp only [htokens, hafter, List.length_append, List.length_cons]
            omega
          split at h
          · next other hothers =>
              cases h
              obtain ⟨more, others, hmore, hderived⟩ :=
                separated_completes hone hcompletes hmany rest hothers hend
              refine ⟨more, first :: others, hmore, ?_⟩
              rw [htokens, hafter, List.append_assoc, List.cons_append]
              exact .more hpiece hmark hderived
          · cases h
termination_by tokens.length

theorem readRanges_completes : Completes readRanges DerivesRanges := by
  intro stop tokens issue h hend
  have hlist : readIntervals stop tokens = .error issue := by
    rw [readIntervals, h]
    rfl
  obtain ⟨more, intervals, hmore, hderived⟩ := separated_completes readInterval_recognizes
    readInterval_completes readIntervals_eq tokens hlist hend
  obtain ⟨first, others, rfl⟩ := List.exists_cons_of_ne_nil hderived.ne_nil
  exact ⟨more, ⟨first, others⟩, hmore, hderived⟩

/-! ### Relations -/

theorem readIsNot_kind_ne {outer : Bool} (h : readIsNot outer tokens = .error issue) :
    issue.problem.kind ≠ .unexpectedEnd := by
  cases tokens with
  | nil => cases h
  | cons token rest =>
      simp only [readIsNot] at h
      split at h
      · split at h <;> cases h
        exact kind_unexpected_ne _ _
      · cases h

def DerivesSigned (outer : Bool) (tokens : Tokens) (test : Comparison × Bool) : Prop :=
  DerivesComparison outer tokens test.1 test.2

theorem readEquality_completes {outer : Bool} (h : readEquality stop outer tokens = .error issue)
    (hend : issue.problem.kind = .unexpectedEnd) {token : Token}
    (hword : token.isWord "is" = true) : Completable (DerivesSigned outer) (token :: tokens) := by
  rw [readEquality_eq] at h
  rcases error_of_bind_eq_error h with hnot | ⟨⟨sign, rest⟩, hnot, hnumber⟩
  · exact absurd hend (readIsNot_kind_ne hnot)
  · obtain ⟨nots, inner, rfl, hnots, hone, -⟩ := readIsNot_sound hnot
    rcases error_of_bind_eq_error hnumber with hvalue | ⟨r, -, hnumber⟩
    · obtain rfl : rest = [] := readNumberAs_ended literalValue_judges hvalue hend
      rw [List.append_nil]
      exact ⟨[numberToken 1], (.equality 1, inner), lexical_numberToken 1,
        .equality hword hnots hone (literal_numberToken one_le_maxInteger)⟩
    · cases hnumber

/-- The three tests with ranges differ in their first token and in what they make of the ranges. -/
theorem readRanges_bind_completes {outer : Bool} {make : RangeList → Comparison} {sign : Bool}
    {inner : Bool} {token : Token}
    (hderives : ∀ tokens ranges, DerivesRanges tokens ranges →
      DerivesComparison outer (token :: tokens) (make ranges) inner)
    (h : (readRanges stop tokens >>= fun found => pure ((make found.1, sign), found.2)) =
      .error issue) (hend : issue.problem.kind = .unexpectedEnd) :
    Completable (DerivesSigned outer) (token :: tokens) := by
  rcases error_of_bind_eq_error h with hranges | ⟨r, -, h⟩
  · obtain ⟨more, ranges, hmore, hderived⟩ := readRanges_completes hranges hend
    exact ⟨more, (make ranges, inner), hmore, hderives _ ranges hderived⟩
  · cases h

theorem readComparison_completes (outer : Bool) :
    Completes (fun stop => readComparison stop outer) (DerivesSigned outer) := by
  intro stop tokens issue h hend
  cases tokens with
  | nil => exact ⟨equalsOne, (_, false), lexical_equalsOne, derivesComparison_equalsOne outer⟩
  | cons token rest =>
      rcases error_of_bind_eq_error h with htoken | ⟨⟨first, after⟩, htoken, htest⟩
      · cases htoken
      · cases htoken
        dsimp only at htest
        split at htest
        · next hword => exact readEquality_completes htest hend hword
        · split at htest
          · next hword =>
              exact readRanges_bind_completes (fun _ _ h => .within hword h) htest hend
          · split at htest
            · next hmark =>
                exact readRanges_bind_completes (fun _ _ h => .membership hmark h) htest hend
            · split at htest
              · next hsign =>
                  exact readRanges_bind_completes (fun _ _ h => .exclusion hsign h) htest hend
              · cases htest
                cases hend

theorem readRelation_completes : Completes readRelation DerivesRelation := by
  intro stop tokens issue h hend
  rcases error_of_bind_eq_error h with hoperand | ⟨⟨operand, afterOperand⟩, hoperand, h⟩
  · rw [readOperand_ended hoperand hend]
    have hexpression : DerivesExpression [nToken] .n none := .plain (by decide)
    have hlexical : Lexical (nToken :: equalsOne) :=
      List.forall_mem_cons.mpr ⟨lexical_nToken, lexical_equalsOne⟩
    exact ⟨nToken :: equalsOne, _, hlexical,
      .intro hexpression .absent (derivesComparison_equalsOne false)⟩
  rcases error_of_bind_eq_error h with hmodulus | ⟨⟨modulus, afterModulus⟩, hmodulus, h⟩
  · obtain ⟨taken, htokens, token, rfl, hname⟩ := (readOperand_recognizes stop).sound hoperand
    obtain ⟨mark, rfl, hmark⟩ := readModulus_ended hmodulus hend
    have hone : Literal (numberToken 1) (Modulus.mk 1 Nat.one_pos).value :=
      literal_numberToken one_le_maxInteger
    have hexpression := DerivesExpression.remainder hname hmark hone
    rw [htokens]
    exact ⟨numberToken 1 :: equalsOne, _, (lexical_numberToken 1).append lexical_equalsOne,
      .intro hexpression .absent (derivesComparison_equalsOne false)⟩
  rcases error_of_bind_eq_error h with hcomparison | ⟨r, -, h⟩
  · obtain ⟨expression, htokens, hexpression⟩ := readExpression_sound hoperand hmodulus
    obtain ⟨nots, hafter, hnot⟩ := readNot_sound afterModulus
    obtain ⟨more, test, hmore, htest⟩ := readComparison_completes _ hcomparison hend
    have hrelation := DerivesRelation.intro hexpression hnot htest
    have hall : tokens ++ more =
        expression ++ (nots ++ ((readNot afterModulus).2 ++ more)) := by
      rw [← List.append_assoc nots, ← hafter, htokens, List.append_assoc]
    exact ⟨more, _, hmore, hall ▸ hrelation⟩
  · cases h

/-! ### Conditions -/

theorem readConjunction_completes : Completes readConjunction DerivesConjunction := by
  intro stop tokens issue
  exact separated_completes readRelation_recognizes readRelation_completes readConjunction_eq tokens

theorem readDisjunction_completes : Completes readDisjunction DerivesDisjunction := by
  intro stop tokens issue
  exact separated_completes readConjunction_recognizes readConjunction_completes readDisjunction_eq
    tokens

theorem ofTokens_completes (h : ofTokens stop tokens = .error issue)
    (hend : issue.problem.kind = .unexpectedEnd) : Completable Derives tokens := by
  cases tokens with
  | nil => cases h
  | cons token rest =>
      simp only [ofTokens] at h
      split at h
      · next other hread =>
          cases h
          obtain ⟨more, groups, hmore, hderived⟩ := readDisjunction_completes hread hend
          exact ⟨more, ⟨groups⟩, hmore, .groups hderived⟩
      · cases h
        cases hend
      · cases h

end

/-! ## Refusals -/

def Accepted (symbols : List Symbol) : Prop :=
  ∃ stop tokens condition, tokens.map Token.symbol = symbols ∧
    ofTokens stop tokens = .ok condition

/-- Something follows after which a condition is made up. -/
def Promising (symbols : List Symbol) : Prop :=
  ∃ more, (∀ symbol ∈ more, symbol.Lexical) ∧ Accepted (symbols ++ more)

theorem accepted_map_iff (stop : Nat) {tokens : Tokens} :
    Accepted (tokens.map Token.symbol) ↔ ∃ condition, ofTokens stop tokens = .ok condition := by
  constructor
  · rintro ⟨stop', tokens', condition, hsymbols, h⟩
    exact ⟨condition, ofTokens_of_alike h hsymbols.symm⟩
  · rintro ⟨condition, h⟩
    exact ⟨stop, tokens, condition, rfl, h⟩

theorem Completable.promising {tokens : Tokens} (h : Completable Derives tokens) :
    Promising (tokens.map Token.symbol) := by
  obtain ⟨more, condition, hmore, hderived⟩ := h
  refine ⟨more.map Token.symbol, ?_, ?_⟩
  · intro symbol hmem
    obtain ⟨token, htoken, rfl⟩ := List.mem_map.mp hmem
    exact hmore token htoken
  · rw [← List.map_append]
    exact ⟨0, tokens ++ more, condition, rfl, (ofTokens_eq_ok_iff 0).mpr hderived⟩

/-- Unless one of the tokens is refused, they can be completed. -/
theorem promising_of_not_refused {stop : Nat} {tokens : Tokens}
    (h : ∀ issue, ofTokens stop tokens = .error issue → issue.problem.kind = .unexpectedEnd) :
    Promising (tokens.map Token.symbol) := by
  cases hread : ofTokens stop tokens with
  | ok condition =>
      refine ⟨[], nofun, ?_⟩
      rw [List.append_nil]
      exact (accepted_map_iff stop).mpr ⟨condition, hread⟩
  | error issue => exact (ofTokens_completes hread (h issue hread)).promising

/-- Whatever follows, no condition is made up. -/
def Hopeless (symbols : List Symbol) : Prop := ∀ more, ¬Accepted (symbols ++ more)

/-- A token that is refused wherever it stands after tokens like these leaves no hope. -/
theorem hopeless_of_refused {before : Tokens} {token : Token}
    (h : ∀ stop before' token' after', Alike before' before → token'.symbol = token.symbol →
      ∃ issue, ofTokens stop (before' ++ token' :: after') = .error issue) :
    Hopeless ((before ++ [token]).map Token.symbol) := by
  rintro more ⟨stop, tokens, condition, hsymbols, hread⟩
  obtain ⟨taken, after, rfl, htaken, -⟩ := List.map_eq_append_iff.mp hsymbols
  obtain ⟨before', last, rfl, hbefore, hlast⟩ := Alike.exists_append htaken
  obtain ⟨token', nothing, rfl, htoken, hnothing⟩ := hlast.exists_cons
  rw [hnothing.eq_nil, List.append_assoc, List.singleton_append] at hread
  obtain ⟨issue, hrefused⟩ := h stop before' token' after hbefore htoken
  rw [hrefused] at hread
  cases hread

/-- There is a first token that leaves no hope, and the refusal is about it. -/
theorem exists_first_hopeless {stop : Nat} (tokens : Tokens) {issue : Issue}
    (h : ofTokens stop tokens = .error issue) (hkind : issue.problem.kind ≠ .unexpectedEnd) :
    ∃ before token after, tokens = before ++ token :: after ∧ issue.position = token.position ∧
      Promising (before.map Token.symbol) ∧ Hopeless ((before ++ [token]).map Token.symbol) := by
  rcases ofTokens_refused h with ⟨hend, -⟩ | ⟨-, before, token, after, htokens, hposition, hagain⟩
  · exact absurd hend hkind
  by_cases hbefore : ∀ other, ofTokens stop before = .error other →
      other.problem.kind = .unexpectedEnd
  · refine ⟨before, token, after, htokens, hposition, promising_of_not_refused hbefore, ?_⟩
    refine hopeless_of_refused ?_
    intro stop' before' token' after' halike hsymbol
    exact ⟨_, hagain stop' before' token' after' halike hsymbol⟩
  · -- The tokens before it are refused on their own already: with the same refusal, since what is
    -- refused stays refused; and there are fewer of them.
    obtain ⟨other, hother, hotherKind⟩ : ∃ other, ofTokens stop before = .error other ∧
        other.problem.kind ≠ .unexpectedEnd := by
      simpa only [not_forall, exists_prop] using hbefore
    have hlt : before.length < tokens.length := by
      simp only [htokens, List.length_append, List.length_cons]
      omega
    have hsame : issue = other := by
      rcases ofTokens_refused hother with
        ⟨hend, -⟩ | ⟨-, first, culprit, last, hfirst, hplace, hfix⟩
      · exact absurd hend hotherKind
      · have hwhole := hfix stop first culprit (last ++ token :: after) rfl rfl
        have hsplit : first ++ culprit :: (last ++ token :: after) = tokens := by
          rw [htokens, hfirst, List.append_assoc, List.cons_append]
        rw [hsplit, h, ← hplace] at hwhole
        exact Except.error.inj hwhole
    obtain ⟨first, culprit, last, hfirst, hplace, hpromising, hhopeless⟩ :=
      exists_first_hopeless before hother hotherKind
    have hsplit : tokens = first ++ culprit :: (last ++ token :: after) := by
      rw [htokens, hfirst, List.append_assoc, List.cons_append]
    exact ⟨first, culprit, last ++ token :: after, hsplit, hsame ▸ hplace, hpromising, hhopeless⟩
termination_by tokens.length

/-- A refusal that misses a token is about the end of tokens that more can complete. -/
theorem ended_completable {stop : Nat} {tokens : Tokens} {issue : Issue}
    (h : ofTokens stop tokens = .error issue) (hend : issue.problem.kind = .unexpectedEnd) :
    issue.position = stop ∧ ∃ more, more ≠ [] ∧ (∀ symbol ∈ more, symbol.Lexical) ∧
      Accepted (tokens.map Token.symbol ++ more) := by
  have hposition : issue.position = stop := by
    rcases ofTokens_refused h with ⟨-, hposition⟩ | ⟨hkind, -⟩
    · exact hposition
    · exact absurd hend hkind
  obtain ⟨more, hmore, haccepted⟩ := (ofTokens_completes h hend).promising
  refine ⟨hposition, more, ?_, hmore, haccepted⟩
  rintro rfl
  rw [List.append_nil] at haccepted
  obtain ⟨condition, hread⟩ := (accepted_map_iff stop).mp haccepted
  rw [h] at hread
  cases hread

theorem ofTokens_of_parse_error {source : String} {tokens : Tokens} {stop : Nat} {e : RuleError}
    (hlength : source.length ≤ maxRuleLength) (htokens : tokenize source = .ok (tokens, stop))
    (h : parse source = .error e) : ofTokens stop tokens = .error e.toIssue := by
  obtain ⟨hread, -⟩ := parse_eq_error_iff.mp h
  have hchecked : checkLength source.toList = .ok () :=
    checkLength_eq_ok_iff.mpr (String.length_toList ▸ hlength)
  simp only [readText, hchecked, tokenize_eq_ok_iff.mp htokens, bind, Except.bind] at hread
  cases hout : ofTokens stop tokens with
  | ok condition =>
      rw [hout] at hread
      cases hread
  | error issue =>
      rw [hout] at hread
      exact congrArg Except.error (Except.error.inj hread)

/-- A condition is refused at the first token that leaves no hope, and if there is none, at its
end. -/
theorem parse_error_at_first_hopeless {source : String} {tokens : Tokens} {stop : Nat}
    {e : RuleError} (hlength : source.length ≤ maxRuleLength)
    (htokens : tokenize source = .ok (tokens, stop)) (h : parse source = .error e) :
    (e.kind = .unexpectedEnd → e.position = stop ∧
      ∃ more, more ≠ [] ∧ (∀ symbol ∈ more, symbol.Lexical) ∧
        Accepted (tokens.map Token.symbol ++ more)) ∧
    (e.kind ≠ .unexpectedEnd → ∃ before token after, tokens = before ++ token :: after ∧
      e.position = token.position ∧ Promising (before.map Token.symbol) ∧
      Hopeless ((before ++ [token]).map Token.symbol)) := by
  have hrefused := ofTokens_of_parse_error hlength htokens h
  exact ⟨ended_completable hrefused, exists_first_hopeless tokens hrefused⟩

/-- The second number of the range is too small, and the tokens before it are not to blame. -/
theorem parse_error_at_upper_bound :
    "n = 5..3 or".length ≤ maxRuleLength ∧
    ∃ tokens e, tokenize "n = 5..3 or" = .ok (tokens, 11) ∧ parse "n = 5..3 or" = .error e ∧
      e.kind ≠ .unexpectedEnd ∧
      ∃ before token after, tokens = before ++ token :: after ∧ e.position = token.position ∧
        Promising (before.map Token.symbol) ∧
        Hopeless ((before ++ [token]).map Token.symbol) := by
  have hlength : "n = 5..3 or".length ≤ maxRuleLength := by decide
  have htokens : tokenize "n = 5..3 or" = .ok ([⟨.word, "n", 0⟩, ⟨.equals, "=", 2⟩,
      ⟨.number, "5", 4⟩, ⟨.range, "..", 5⟩, ⟨.number, "3", 7⟩, ⟨.word, "or", 9⟩], 11) := by
    decide +kernel
  have hparse : parse "n = 5..3 or" =
      .error ⟨⟨.literal "3" .belowLowerBound, 7⟩, "n = 5..3 or"⟩ := by
    decide +kernel
  exact ⟨hlength, _, _, htokens, hparse, nofun,
    (parse_error_at_first_hopeless hlength htokens hparse).2 nofun⟩

end Condition

end PluralForms
