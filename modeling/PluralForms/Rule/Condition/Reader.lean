import PluralForms.Number.Limits
import PluralForms.Rule.Condition
import PluralForms.Rule.Token

/-!
# Reading conditions

The grammar, over the tokens of a condition:

* condition: conjunctions, with `or` between them;
* conjunction: relations, with `and` between them;
* relation: expression, `not` at will, then `is` and a number (`not` may stand before the
  number), or `in`, `=`, `!=` or `within` and ranges;
* expression: an operand, and at will `mod` or `%` and a number;
* ranges: numbers and pairs of numbers around `..`, with commas between them.

Each function reads from the front of a token list and gives back the tokens that follow.
`stop` is the offset at which the condition ends, where a missing token is reported.
-/

namespace PluralForms.Condition

open Text

abbrev Tokens := List Token

/-! ## Tokens -/

def unexpected (token : Token) (expected : Expectation) : Issue :=
  ⟨.unexpected token.text (some expected), token.position⟩

def badLiteral (token : Token) (fault : LiteralFault) : Issue :=
  ⟨.literal token.text fault, token.position⟩

def accept (test : Token → Bool) : Tokens → Option Tokens
  | [] => none
  | token :: rest => if test token then some rest else none

def readToken (stop : Nat) (expected : Expectation) : Tokens → Except Issue (Token × Tokens)
  | [] => .error ⟨.ended expected, stop⟩
  | token :: rest => .ok (token, rest)

def readNumber (stop : Nat) : Tokens → Except Issue (Token × Tokens)
  | [] => .error ⟨.ended .number, stop⟩
  | token :: rest =>
      if token.kind = .number then .ok (token, rest) else .error (unexpected token .number)

/-- The value of a number; zeros in front do not count. -/
def literalValue (token : Token) : Except Issue Nat :=
  let value := digitsValue token.text.toList
  if maxInteger < value then .error (badLiteral token .tooLarge) else .ok value

/-! ## Expressions -/

def modulusOf (token : Token) : Except Issue Modulus := do
  let value ← literalValue token
  if h : 0 < value then .ok ⟨value, h⟩ else .error (badLiteral token .zeroModulus)

def readModulus (stop : Nat) (tokens : Tokens) : Except Issue (Option Modulus × Tokens) :=
  match accept (fun token => token.isWord "mod" || token.isKind .percent) tokens with
  | none => .ok (none, tokens)
  | some rest => do
      let (token, rest) ← readNumber stop rest
      let modulus ← modulusOf token
      return (some modulus, rest)

def operandOf (token : Token) : Except Issue Operand :=
  if token.kind = .word then
    match Operand.ofName? token.text with
    | some operand => .ok operand
    | none => .error ⟨.unknownOperand token.text, token.position⟩
  else .error (unexpected token .operand)

def readOperand (stop : Nat) (tokens : Tokens) : Except Issue (Operand × Tokens) := do
  let (token, rest) ← readToken stop .operand tokens
  let operand ← operandOf token
  return (operand, rest)

/-! ## Ranges -/

def readInterval (stop : Nat) (tokens : Tokens) : Except Issue (Interval × Tokens) := do
  let (token, rest) ← readNumber stop tokens
  let lower ← literalValue token
  match accept (·.isKind .range) rest with
  | none => .ok (.single lower, rest)
  | some rest => do
      let (token, rest) ← readNumber stop rest
      let upper ← literalValue token
      if h : lower ≤ upper then .ok (⟨lower, upper, h⟩, rest)
      else .error (badLiteral token .belowLowerBound)

/-! ### Progress

Every reader of something that cannot be empty leaves fewer tokens than it was given. -/

theorem accept_length {test : Token → Bool} {tokens rest : Tokens}
    (h : accept test tokens = some rest) : rest.length < tokens.length := by
  cases tokens with
  | nil => cases h
  | cons token tail =>
      simp only [accept] at h
      split at h
      · cases h
        simp
      · cases h

theorem readToken_length {stop : Nat} {expected : Expectation} {tokens rest : Tokens}
    {token : Token} (h : readToken stop expected tokens = .ok (token, rest)) :
    rest.length < tokens.length := by
  cases tokens with
  | nil => cases h
  | cons first tail =>
      cases h
      simp

theorem readNumber_length {stop : Nat} {tokens rest : Tokens} {token : Token}
    (h : readNumber stop tokens = .ok (token, rest)) : rest.length < tokens.length := by
  cases tokens with
  | nil => cases h
  | cons first tail =>
      simp only [readNumber] at h
      split at h
      · cases h
        simp
      · cases h

theorem readInterval_length {stop : Nat} {tokens rest : Tokens} {interval : Interval}
    (h : readInterval stop tokens = .ok (interval, rest)) : rest.length < tokens.length := by
  obtain ⟨⟨token, after⟩, hnumber, h⟩ := ok_of_bind_eq_ok h
  have hlt := readNumber_length hnumber
  obtain ⟨lower, hlower, h⟩ := ok_of_bind_eq_ok h
  simp only at h
  split at h
  · cases h
    exact hlt
  · rename_i afterDots hdots
    have hdotsLt := accept_length hdots
    obtain ⟨⟨upperToken, afterUpper⟩, hupper, h⟩ := ok_of_bind_eq_ok h
    have hupperLt := readNumber_length hupper
    obtain ⟨upper, hvalue, h⟩ := ok_of_bind_eq_ok h
    simp only at h
    split at h
    · cases h
      omega
    · cases h

/-! ## Relations -/

def readRanges (stop : Nat) (tokens : Tokens) : Except Issue (RangeList × Tokens) :=
  match _hfirst : readInterval stop tokens with
  | .error issue => .error issue
  | .ok (first, rest) =>
      match _hcomma : accept (·.isKind .comma) rest with
      | none => .ok (⟨first, []⟩, rest)
      | some more =>
          match readRanges stop more with
          | .error issue => .error issue
          | .ok (ranges, rest) => .ok (ranges.cons first, rest)
termination_by tokens.length
decreasing_by
  have hfirst := readInterval_length _hfirst
  have hcomma := accept_length _hcomma
  omega

/-- After `is`, a `not` negates, but not for the second time. -/
def readIsNot (negated : Bool) : Tokens → Except Issue (Bool × Tokens)
  | [] => .ok (negated, [])
  | token :: rest =>
      if token.isWord "not" then
        if negated then .error (unexpected token .value) else .ok (true, rest)
      else .ok (negated, token :: rest)

def readEquality (stop : Nat) (negated : Bool) (tokens : Tokens) :
    Except Issue ((Comparison × Bool) × Tokens) := do
  let (negated, tokens) ← readIsNot negated tokens
  let (token, rest) ← readNumber stop tokens
  let value ← literalValue token
  return ((.equality value, negated), rest)

def readComparison (stop : Nat) (negated : Bool) (tokens : Tokens) :
    Except Issue ((Comparison × Bool) × Tokens) := do
  let (token, rest) ← readToken stop .operator tokens
  if token.isWord "is" then readEquality stop negated rest
  else if token.isWord "within" then
    let (ranges, rest) ← readRanges stop rest
    return ((.within ranges, negated), rest)
  else if token.isWord "in" || token.isKind .equals then
    let (ranges, rest) ← readRanges stop rest
    return ((.membership ranges, negated), rest)
  else if token.isKind .notEquals then
    let (ranges, rest) ← readRanges stop rest
    return ((.membership ranges, !negated), rest)
  else .error (unexpected token .operator)

def readNot (tokens : Tokens) : Bool × Tokens :=
  match accept (·.isWord "not") tokens with
  | some rest => (true, rest)
  | none => (false, tokens)

def readRelation (stop : Nat) (tokens : Tokens) : Except Issue (Relation × Tokens) := do
  let (operand, tokens) ← readOperand stop tokens
  let (modulus, tokens) ← readModulus stop tokens
  let ((comparison, negated), rest) ←
    readComparison stop (readNot tokens).1 (readNot tokens).2
  return ({ operand, modulus, comparison, negated }, rest)

/-! ### Progress of relations -/

theorem readRanges_length {stop : Nat} {tokens rest : Tokens} {ranges : RangeList}
    (h : readRanges stop tokens = .ok (ranges, rest)) : rest.length < tokens.length := by
  fun_induction readRanges stop tokens generalizing ranges rest with
  | case1 => cases h
  | case2 tokens first after hfirst hcomma =>
      cases h
      exact readInterval_length hfirst
  | case3 => cases h
  | case4 tokens first after hfirst more hcomma others last hmore ih =>
      cases h
      have h1 := readInterval_length hfirst
      have h2 := accept_length hcomma
      have h3 := ih hmore
      omega

theorem readOperand_length {stop : Nat} {tokens rest : Tokens} {operand : Operand}
    (h : readOperand stop tokens = .ok (operand, rest)) : rest.length < tokens.length := by
  obtain ⟨⟨token, after⟩, htoken, h⟩ := ok_of_bind_eq_ok h
  obtain ⟨_, _, h⟩ := ok_of_bind_eq_ok h
  cases h
  exact readToken_length htoken

theorem readModulus_length {stop : Nat} {tokens rest : Tokens} {modulus : Option Modulus}
    (h : readModulus stop tokens = .ok (modulus, rest)) : rest.length ≤ tokens.length := by
  unfold readModulus at h
  split at h
  · cases h
    exact Nat.le_refl _
  · rename_i after haccept
    have hlt := accept_length haccept
    obtain ⟨⟨token, afterNumber⟩, hnumber, h⟩ := ok_of_bind_eq_ok h
    obtain ⟨_, _, h⟩ := ok_of_bind_eq_ok h
    cases h
    have hnum := readNumber_length hnumber
    omega

theorem readNot_length (tokens : Tokens) : (readNot tokens).2.length ≤ tokens.length := by
  unfold readNot
  split
  · rename_i rest h
    exact Nat.le_of_lt (accept_length h)
  · exact Nat.le_refl _

theorem readIsNot_length {negated sign : Bool} {tokens rest : Tokens}
    (h : readIsNot negated tokens = .ok (sign, rest)) : rest.length ≤ tokens.length := by
  cases tokens with
  | nil =>
      cases h
      exact Nat.le_refl _
  | cons token tail =>
      simp only [readIsNot] at h
      split at h
      · split at h <;> cases h
        simp
      · cases h
        exact Nat.le_refl _

theorem readEquality_length {stop : Nat} {negated : Bool} {tokens rest : Tokens}
    {result : Comparison × Bool} (h : readEquality stop negated tokens = .ok (result, rest)) :
    rest.length < tokens.length := by
  obtain ⟨⟨sign, after⟩, hnot, h⟩ := ok_of_bind_eq_ok h
  obtain ⟨⟨token, last⟩, hnumber, h⟩ := ok_of_bind_eq_ok h
  obtain ⟨_, _, h⟩ := ok_of_bind_eq_ok h
  cases h
  have h1 := readIsNot_length hnot
  have h2 := readNumber_length hnumber
  omega

theorem readComparison_length {stop : Nat} {negated : Bool} {tokens rest : Tokens}
    {result : Comparison × Bool} (h : readComparison stop negated tokens = .ok (result, rest)) :
    rest.length < tokens.length := by
  obtain ⟨⟨token, after⟩, htoken, h⟩ := ok_of_bind_eq_ok h
  have hlt := readToken_length htoken
  simp only at h
  split at h
  · have heq := readEquality_length h
    omega
  · split at h
    · obtain ⟨⟨ranges, last⟩, hranges, h⟩ := ok_of_bind_eq_ok h
      cases h
      have hr := readRanges_length hranges
      dsimp only
      omega
    · split at h
      · obtain ⟨⟨ranges, last⟩, hranges, h⟩ := ok_of_bind_eq_ok h
        cases h
        have hr := readRanges_length hranges
        dsimp only
        omega
      · split at h
        · obtain ⟨⟨ranges, last⟩, hranges, h⟩ := ok_of_bind_eq_ok h
          cases h
          have hr := readRanges_length hranges
          dsimp only
          omega
        · cases h

theorem readRelation_length {stop : Nat} {tokens rest : Tokens} {relation : Relation}
    (h : readRelation stop tokens = .ok (relation, rest)) : rest.length < tokens.length := by
  obtain ⟨⟨operand, afterOperand⟩, hoperand, h⟩ := ok_of_bind_eq_ok h
  obtain ⟨⟨modulus, afterModulus⟩, hmodulus, h⟩ := ok_of_bind_eq_ok h
  obtain ⟨⟨⟨comparison, negated⟩, last⟩, hcomparison, h⟩ := ok_of_bind_eq_ok h
  cases h
  have h1 := readOperand_length hoperand
  have h2 := readModulus_length hmodulus
  have h3 := readNot_length afterModulus
  have h4 := readComparison_length hcomparison
  omega

/-! ## Conjunctions and disjunctions -/

def readConjunction (stop : Nat) (tokens : Tokens) : Except Issue (List Relation × Tokens) :=
  match _hfirst : readRelation stop tokens with
  | .error issue => .error issue
  | .ok (first, rest) =>
      match _hand : accept (·.isWord "and") rest with
      | none => .ok ([first], rest)
      | some more =>
          match readConjunction stop more with
          | .error issue => .error issue
          | .ok (relations, rest) => .ok (first :: relations, rest)
termination_by tokens.length
decreasing_by
  have hfirst := readRelation_length _hfirst
  have hand := accept_length _hand
  omega

theorem readConjunction_length {stop : Nat} {tokens rest : Tokens} {group : List Relation}
    (h : readConjunction stop tokens = .ok (group, rest)) : rest.length < tokens.length := by
  fun_induction readConjunction stop tokens generalizing group rest with
  | case1 => cases h
  | case2 tokens first after hfirst hand =>
      cases h
      exact readRelation_length hfirst
  | case3 => cases h
  | case4 tokens first after hfirst more hand others last hmore ih =>
      cases h
      have h1 := readRelation_length hfirst
      have h2 := accept_length hand
      have h3 := ih hmore
      omega

def readDisjunction (stop : Nat) (tokens : Tokens) :
    Except Issue (List (List Relation) × Tokens) :=
  match _hfirst : readConjunction stop tokens with
  | .error issue => .error issue
  | .ok (first, rest) =>
      match _hor : accept (·.isWord "or") rest with
      | none => .ok ([first], rest)
      | some more =>
          match readDisjunction stop more with
          | .error issue => .error issue
          | .ok (groups, rest) => .ok (first :: groups, rest)
termination_by tokens.length
decreasing_by
  have hfirst := readConjunction_length _hfirst
  have hor := accept_length _hor
  omega

/-! ## Conditions -/

/-- The condition that a token list writes; no tokens write the one that is always true. -/
def ofTokens (stop : Nat) (tokens : Tokens) : Except Issue Condition :=
  match tokens with
  | [] => .ok always
  | _ :: _ =>
      match readDisjunction stop tokens with
      | .error issue => .error issue
      | .ok (_, token :: _) => .error (unexpected token .continuation)
      | .ok (groups, []) => .ok ⟨groups⟩

/-- Reads a condition, and gives the offset at which it ends. -/
def readText (text : List Char) : Except Issue (Condition × Nat) := do
  checkLength text
  let (tokens, stop) ← scan (.whole text)
  let condition ← ofTokens stop tokens
  return (condition, stop)

/-- The condition of a rule; what stands from the first `@` on is not looked at. -/
def parse (source : String) : Except RuleError Condition :=
  refusedIn source ((readText source.toList).map (·.1))

end PluralForms.Condition
