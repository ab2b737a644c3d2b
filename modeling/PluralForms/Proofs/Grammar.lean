import PluralForms.Proofs.Cutting
import PluralForms.Rule.Condition.Reader

/-!
# The grammar of conditions

The grammar is stated over token lists, one relation for each production, with the value that a
derivation gives.  Positions play no part in it.  The readers take from the front of a token list
exactly what the grammar derives, so a text is a condition just when its tokens have a derivation.
-/

namespace PluralForms.Condition

open Text

/-! ## Productions -/

/-- A number token that is small enough, and its value. -/
structure Literal (token : Token) (value : Nat) : Prop where
  isNumber : token.kind = .number
  value_eq : digitsValue token.text.toList = value
  le_max : value ≤ maxInteger

inductive Separated (Piece : Tokens → α → Prop) (separator : Token → Bool) :
    Tokens → List α → Prop where
  | last {tokens a} (piece : Piece tokens a) : Separated Piece separator tokens [a]
  | more {tokens mark rest a others} (piece : Piece tokens a) (hmark : separator mark = true)
      (hrest : Separated Piece separator rest others) :
      Separated Piece separator (tokens ++ mark :: rest) (a :: others)

def isModulusMark (token : Token) : Bool := token.isWord "mod" || token.isKind .percent

def isMembershipMark (token : Token) : Bool := token.isWord "in" || token.isKind .equals

inductive DerivesExpression : Tokens → Operand → Option Modulus → Prop where
  | plain {token operand} (hname : token.isWord operand.name = true) :
      DerivesExpression [token] operand none
  | remainder {token mark number operand modulus} (hname : token.isWord operand.name = true)
      (hmark : isModulusMark mark = true) (hvalue : Literal number modulus.value) :
      DerivesExpression [token, mark, number] operand (some modulus)

/-- A value, or two around a range sign; the order of the two is a part of the interval. -/
inductive DerivesInterval : Tokens → Interval → Prop where
  | single {token value} (hvalue : Literal token value) : DerivesInterval [token] (.single value)
  | range {low sign high interval} (hlow : Literal low interval.lower)
      (hsign : sign.isKind .range = true) (hhigh : Literal high interval.upper) :
      DerivesInterval [low, sign, high] interval

def DerivesRanges (tokens : Tokens) (ranges : RangeList) : Prop :=
  Separated DerivesInterval (·.isKind .comma) tokens ranges.toList

inductive DerivesNot : Tokens → Bool → Prop where
  | absent : DerivesNot [] false
  | present {token} (hword : token.isWord "not" = true) : DerivesNot [token] true

/-- An operator and what it compares with, and whether the operator itself negates.  Where a `not`
stands before it, as `outer` says, there is none after `is`. -/
inductive DerivesComparison (outer : Bool) : Tokens → Comparison → Bool → Prop where
  | equality {token nots number value inner} (hword : token.isWord "is" = true)
      (hnot : DerivesNot nots inner) (hone : ¬(outer = true ∧ inner = true))
      (hvalue : Literal number value) :
      DerivesComparison outer (token :: (nots ++ [number])) (.equality value) inner
  | membership {token tokens ranges} (hmark : isMembershipMark token = true)
      (hranges : DerivesRanges tokens ranges) :
      DerivesComparison outer (token :: tokens) (.membership ranges) false
  | exclusion {token tokens ranges} (hsign : token.isKind .notEquals = true)
      (hranges : DerivesRanges tokens ranges) :
      DerivesComparison outer (token :: tokens) (.membership ranges) true
  | within {token tokens ranges} (hword : token.isWord "within" = true)
      (hranges : DerivesRanges tokens ranges) :
      DerivesComparison outer (token :: tokens) (.within ranges) false

/-- Two negations cancel. -/
inductive DerivesRelation : Tokens → Relation → Prop where
  | intro {expression nots test operand modulus comparison outer inner}
      (hexpression : DerivesExpression expression operand modulus)
      (hnot : DerivesNot nots outer) (htest : DerivesComparison outer test comparison inner) :
      DerivesRelation (expression ++ (nots ++ test))
        { operand, modulus, comparison, negated := outer ^^ inner }

def DerivesConjunction : Tokens → List Relation → Prop :=
  Separated DerivesRelation (·.isWord "and")

def DerivesDisjunction : Tokens → List (List Relation) → Prop :=
  Separated DerivesConjunction (·.isWord "or")

inductive Derives : Tokens → Condition → Prop where
  | always : Derives [] .always
  | groups {tokens groups} (h : DerivesDisjunction tokens groups) : Derives tokens ⟨groups⟩

/-! ## Readers -/

/-- A reader takes what has a derivation, and takes every derivation that is followed by a token
of the class `stops` or by nothing. -/
structure Recognizes (read : Tokens → Except Issue (α × Tokens)) (Piece : Tokens → α → Prop)
    (stops : Token → Prop) : Prop where
  sound : ∀ {tokens rest a}, read tokens = .ok (a, rest) →
    ∃ taken, tokens = taken ++ rest ∧ Piece taken a
  complete : ∀ {taken a} (rest : Tokens), Piece taken a → Ahead stops rest →
    read (taken ++ rest) = .ok (a, rest)

theorem accept_cons_of_pos {test : Token → Bool} {token : Token} (h : test token = true)
    (rest : Tokens) : accept test (token :: rest) = some rest := by
  simp [accept, h]

theorem accept_eq_none_iff {test : Token → Bool} {tokens : Tokens} :
    accept test tokens = none ↔ Ahead (fun token => test token = false) tokens := by
  cases tokens with
  | nil => simp [accept, Ahead]
  | cons token rest => simp [accept, Ahead]

theorem accept_eq_some {test : Token → Bool} {tokens rest : Tokens}
    (h : accept test tokens = some rest) :
    ∃ token, tokens = token :: rest ∧ test token = true := by
  cases tokens with
  | nil => cases h
  | cons token tail =>
      simp only [accept] at h
      split at h
      · rename_i htest
        cases h
        exact ⟨token, rfl, htest⟩
      · cases h

/-! ### Pieces with separators -/

def ReadsSeparated (one : Tokens → Except Issue (α × Tokens)) (separator : Token → Bool)
    (many : Tokens → Except Issue (List α × Tokens)) : Prop :=
  ∀ tokens, many tokens =
    match one tokens with
    | .error issue => .error issue
    | .ok (first, rest) =>
        match accept separator rest with
        | none => .ok ([first], rest)
        | some more =>
            match many more with
            | .error issue => .error issue
            | .ok (others, rest) => .ok (first :: others, rest)

section Separated

variable {one : Tokens → Except Issue (α × Tokens)} {many : Tokens → Except Issue (List α × Tokens)}
variable {Piece : Tokens → α → Prop} {stops : Token → Prop} {separator : Token → Bool}

theorem separated_sound (hone : Recognizes one Piece stops)
    (hmany : ReadsSeparated one separator many) (tokens : Tokens) {rest : Tokens} {as : List α}
    (h : many tokens = .ok (as, rest)) :
    ∃ taken, tokens = taken ++ rest ∧ Separated Piece separator taken as := by
  rw [hmany tokens] at h
  split at h
  · cases h
  · rename_i first afterFirst hfirst
    rcases hone.sound hfirst with ⟨taken, htokens, hpiece⟩
    split at h
    · cases h
      exact ⟨taken, htokens, .last hpiece⟩
    · rename_i more hmark
      -- After a separator fewer tokens are left; the induction is on their number.
      obtain ⟨mark, hafter, hseparator⟩ := accept_eq_some hmark
      have hlt : more.length < tokens.length := by
        simp only [htokens, hafter, List.length_append, List.length_cons]
        omega
      split at h
      · cases h
      · rename_i others last hothers
        cases h
        obtain ⟨takenMore, hmoreTokens, hderived⟩ :=
          separated_sound hone hmany more hothers
        refine ⟨taken ++ mark :: takenMore, ?_, .more hpiece hseparator hderived⟩
        rw [htokens, hafter, hmoreTokens, List.append_assoc, List.cons_append]
termination_by tokens.length

theorem separated_complete (hone : Recognizes one Piece stops)
    (hmany : ReadsSeparated one separator many)
    (hstops : ∀ token, separator token = true → stops token) {taken : Tokens} {as : List α}
    (h : Separated Piece separator taken as) (rest : Tokens)
    (hrest : Ahead (fun token => stops token ∧ separator token = false) rest) :
    many (taken ++ rest) = .ok (as, rest) := by
  induction h with
  | last piece =>
      have hread := hone.complete rest piece (hrest.mono fun _ h => h.1)
      have hnone := accept_eq_none_iff.mpr (hrest.mono fun _ h => h.2)
      rw [hmany, hread]
      simp only [hnone]
  | @more tokens mark others a as piece hmark hothers ih =>
      have hread := hone.complete (mark :: (others ++ rest)) piece
        (ahead_cons.mpr (hstops mark hmark))
      rw [List.append_assoc, List.cons_append, hmany, hread]
      simp only [accept_cons_of_pos hmark, ih]

theorem Recognizes.separated (hone : Recognizes one Piece stops)
    (hmany : ReadsSeparated one separator many)
    (hstops : ∀ token, separator token = true → stops token) :
    Recognizes many (Separated Piece separator)
      (fun token => stops token ∧ separator token = false) where
  sound := fun h => separated_sound hone hmany _ h
  complete := fun rest h hrest => separated_complete hone hmany hstops h rest hrest

end Separated

/-! ### Numbers and operands -/

theorem readNumber_cons {token : Token} (h : token.kind = .number) (stop : Nat) (rest : Tokens) :
    readNumber stop (token :: rest) = .ok (token, rest) := by
  simp [readNumber, h]

theorem literalValue_eq_ok_iff {token : Token} {value : Nat} (h : token.kind = .number) :
    literalValue token = .ok value ↔ Literal token value := by
  constructor
  · intro hread
    simp only [literalValue] at hread
    split at hread
    · cases hread
    · rename_i hle
      cases hread
      exact ⟨h, rfl, Nat.le_of_not_lt hle⟩
  · intro hliteral
    have hle : ¬maxInteger < value := Nat.not_lt.mpr hliteral.le_max
    simp only [literalValue, hliteral.value_eq, if_neg hle]

theorem readNumber_eq_ok {stop : Nat} {tokens rest : Tokens} {token : Token}
    (h : readNumber stop tokens = .ok (token, rest)) :
    tokens = token :: rest ∧ token.kind = .number := by
  cases tokens with
  | nil => cases h
  | cons first tail =>
      simp only [readNumber] at h
      split at h
      · rename_i hkind
        cases h
        exact ⟨rfl, hkind⟩
      · cases h

theorem readOperand_recognizes (stop : Nat) :
    Recognizes (readOperand stop)
      (fun tokens operand => ∃ token, tokens = [token] ∧ token.isWord operand.name = true)
      (fun _ => True) where
  sound := by
    intro tokens rest operand h
    obtain ⟨⟨token, after⟩, htoken, h⟩ := ok_of_bind_eq_ok h
    obtain ⟨found, hfound, h⟩ := ok_of_bind_eq_ok h
    cases h
    cases tokens with
    | nil => cases htoken
    | cons first tail =>
        cases htoken
        refine ⟨[token], rfl, token, rfl, ?_⟩
        simp only [operandOf] at hfound
        split at hfound
        · rename_i hkind
          split at hfound
          · rename_i hname
            cases hfound
            have htext := Operand.name_of_ofName? hname
            simp [Token.isWord, hkind, htext]
          · cases hfound
        · cases hfound
  complete := by
    intro taken operand rest h _
    rcases h with ⟨token, rfl, hword⟩
    obtain ⟨hkind, htext⟩ : token.kind = .word ∧ token.text = operand.name := by
      simpa [Token.isWord] using hword
    have hoperand : operandOf token = .ok operand := by
      simp [operandOf, hkind, htext, Operand.ofName?_name]
    have htoken : readToken stop .operand ([token] ++ rest) = .ok (token, rest) := rfl
    rw [readOperand, htoken]
    simp only [bind, Except.bind, hoperand]
    rfl

theorem readInterval_recognizes (stop : Nat) :
    Recognizes (readInterval stop) DerivesInterval (fun token => token.isKind .range = false) where
  sound := by
    intro tokens rest interval h
    obtain ⟨⟨low, after⟩, hlow, hbounds⟩ := ok_of_bind_eq_ok h
    obtain ⟨lower, hlower, hupper⟩ := ok_of_bind_eq_ok hbounds
    obtain ⟨htokens, hkind⟩ := readNumber_eq_ok hlow
    have hliteral := (literalValue_eq_ok_iff hkind).mp hlower
    rw [htokens]
    dsimp only at hupper
    split at hupper
    · cases hupper
      exact ⟨[low], rfl, .single hliteral⟩
    · rename_i afterSign haccept
      obtain ⟨sign, hafter, hsign⟩ := accept_eq_some haccept
      obtain ⟨⟨high, last⟩, hhigh, hvalue⟩ := ok_of_bind_eq_ok hupper
      obtain ⟨upper, hvalue, hordered⟩ := ok_of_bind_eq_ok hvalue
      obtain ⟨hafterSign, hhighKind⟩ := readNumber_eq_ok hhigh
      have hhighLiteral := (literalValue_eq_ok_iff hhighKind).mp hvalue
      rw [hafter, hafterSign]
      dsimp only at hordered
      split at hordered
      · cases hordered
        exact ⟨[low, sign, high], rfl, .range hliteral hsign hhighLiteral⟩
      · cases hordered
  complete := by
    intro taken interval rest h hrest
    cases h with
    | single hvalue =>
        rename_i token value
        have hread := readNumber_cons hvalue.isNumber stop rest
        have hliteral := (literalValue_eq_ok_iff hvalue.isNumber).mpr hvalue
        have hnone := accept_eq_none_iff.mpr hrest
        rw [readInterval, List.singleton_append, hread]
        simp only [bind, Except.bind, hliteral, hnone]
    | range hlow hsign hhigh =>
        rename_i low sign high
        have hreadLow := readNumber_cons hlow.isNumber stop (sign :: high :: rest)
        have hlower := (literalValue_eq_ok_iff hlow.isNumber).mpr hlow
        have hmark : accept (·.isKind .range) (sign :: high :: rest) = some (high :: rest) :=
          accept_cons_of_pos hsign _
        have hreadHigh := readNumber_cons hhigh.isNumber stop rest
        have hupper := (literalValue_eq_ok_iff hhigh.isNumber).mpr hhigh
        simp only [List.cons_append, List.nil_append, readInterval, hreadLow, bind, Except.bind,
          hlower, hmark, hreadHigh, hupper, dif_pos interval.lower_le_upper]

/-! ### Ranges -/

/-- The readers of lists differ in the shape of their result; here it is a plain list. -/
def readIntervals (stop : Nat) (tokens : Tokens) : Except Issue (List Interval × Tokens) :=
  (readRanges stop tokens).map fun result => (result.1.toList, result.2)

theorem readIntervals_eq (stop : Nat) :
    ReadsSeparated (readInterval stop) (·.isKind .comma) (readIntervals stop) := by
  intro tokens
  rw [readIntervals, readRanges]
  cases hfirst : readInterval stop tokens with
  | error issue => rfl
  | ok result =>
      obtain ⟨first, rest⟩ := result
      dsimp only
      cases hcomma : accept (·.isKind .comma) rest with
      | none => rfl
      | some more =>
          simp only [readIntervals]
          cases hmore : readRanges stop more with
          | error issue => rfl
          | ok others => rfl

theorem toList_injective {a b : RangeList} (h : a.toList = b.toList) : a = b := by
  obtain ⟨first, others⟩ := a
  simp only [RangeList.toList, List.cons.injEq] at h
  rw [h.1, h.2]

def EndsRanges (token : Token) : Prop :=
  token.isKind .range = false ∧ token.isKind .comma = false

theorem isKind_of_isKind {token : Token} {kind other : TokenKind} (h : token.isKind kind = true)
    (hne : kind ≠ other) : token.isKind other = false := by
  have hkind : token.kind = kind := by simpa [Token.isKind] using h
  simpa [Token.isKind, hkind] using hne

theorem isKind_of_isWord {token : Token} {word : String} (h : token.isWord word = true)
    {kind : TokenKind} (hne : kind ≠ .word) : token.isKind kind = false := by
  obtain ⟨hkind, -⟩ : token.kind = .word ∧ token.text = word := by
    simpa [Token.isWord] using h
  simpa [Token.isKind, hkind] using hne.symm

theorem isWord_of_isWord {token : Token} {word other : String} (h : token.isWord word = true)
    (hne : word ≠ other) : token.isWord other = false := by
  obtain ⟨hkind, htext⟩ : token.kind = .word ∧ token.text = word := by
    simpa [Token.isWord] using h
  simpa [Token.isWord, hkind, htext] using hne

theorem isWord_of_isKind {token : Token} {kind : TokenKind} (h : token.isKind kind = true)
    (hne : kind ≠ .word) (word : String) : token.isWord word = false := by
  have hkind : token.kind = kind := by simpa [Token.isKind] using h
  simp [Token.isWord, hkind, hne]

theorem readRanges_recognizes (stop : Nat) :
    Recognizes (readRanges stop) DerivesRanges EndsRanges where
  sound := by
    intro tokens rest ranges h
    have hlist : readIntervals stop tokens = .ok (ranges.toList, rest) := by
      rw [readIntervals, h]
      rfl
    exact separated_sound (readInterval_recognizes stop) (readIntervals_eq stop) tokens hlist
  complete := by
    intro taken ranges rest h hrest
    have hlist := separated_complete (readInterval_recognizes stop) (readIntervals_eq stop)
      (fun token hcomma => isKind_of_isKind hcomma (by decide)) h rest hrest
    rw [readIntervals] at hlist
    cases hread : readRanges stop (taken ++ rest) with
    | error issue =>
        rw [hread] at hlist
        cases hlist
    | ok result =>
        rw [hread] at hlist
        simp only [Except.map, Except.ok.injEq, Prod.mk.injEq] at hlist
        rw [← toList_injective hlist.1, ← hlist.2]

/-! ### Expressions -/

theorem readExpression_sound {stop : Nat} {tokens rest : Tokens} {operand : Operand}
    {modulus : Option Modulus} {middle : Tokens}
    (hoperand : readOperand stop tokens = .ok (operand, middle))
    (hmodulus : readModulus stop middle = .ok (modulus, rest)) :
    ∃ taken, tokens = taken ++ rest ∧ DerivesExpression taken operand modulus := by
  obtain ⟨taken, htokens, token, htaken, hname⟩ := (readOperand_recognizes stop).sound hoperand
  rw [htokens, htaken]
  simp only [readModulus] at hmodulus
  split at hmodulus
  · cases hmodulus
    exact ⟨[token], rfl, .plain hname⟩
  · rename_i afterMark haccept
    obtain ⟨mark, hmiddle, hmark⟩ := accept_eq_some haccept
    obtain ⟨⟨number, last⟩, hnumber, hvalue⟩ := ok_of_bind_eq_ok hmodulus
    obtain ⟨found, hfound, hresult⟩ := ok_of_bind_eq_ok hvalue
    cases hresult
    obtain ⟨hafter, hkind⟩ := readNumber_eq_ok hnumber
    obtain ⟨value, hvalue, hpositive⟩ := ok_of_bind_eq_ok hfound
    have hliteral := (literalValue_eq_ok_iff hkind).mp hvalue
    rw [hmiddle, hafter]
    split at hpositive
    · cases hpositive
      exact ⟨[token, mark, number], rfl, .remainder hname hmark hliteral⟩
    · cases hpositive

theorem readExpression_complete {taken : Tokens} {operand : Operand} {modulus : Option Modulus}
    (h : DerivesExpression taken operand modulus) (stop : Nat) (rest : Tokens)
    (hrest : Ahead (fun token => isModulusMark token = false) rest) :
    ∃ middle, readOperand stop (taken ++ rest) = .ok (operand, middle) ∧
      readModulus stop middle = .ok (modulus, rest) := by
  cases h with
  | plain hname =>
      rename_i token
      refine ⟨rest, ?_, ?_⟩
      · exact (readOperand_recognizes stop).complete rest ⟨token, rfl, hname⟩ fun _ _ => trivial
      · have hnone : accept (fun token => token.isWord "mod" || token.isKind .percent) rest =
            none := accept_eq_none_iff.mpr hrest
        simp only [readModulus, hnone]
  | remainder hname hmark hvalue =>
      rename_i token mark number modulus
      refine ⟨mark :: number :: rest, ?_, ?_⟩
      · exact (readOperand_recognizes stop).complete _ ⟨token, rfl, hname⟩ fun _ _ => trivial
      · have hsome : accept (fun token => token.isWord "mod" || token.isKind .percent)
            (mark :: number :: rest) = some (number :: rest) := accept_cons_of_pos hmark _
        have hnumber := readNumber_cons hvalue.isNumber stop rest
        have hliteral := (literalValue_eq_ok_iff hvalue.isNumber).mpr hvalue
        have hfound : modulusOf number = .ok modulus := by
          simp only [modulusOf, hliteral, bind, Except.bind, dif_pos modulus.pos]
        simp only [readModulus, hsome, hnumber, hfound, bind, Except.bind]
        rfl

/-! ### Comparisons -/

theorem readIsNot_sound {outer sign : Bool} {tokens rest : Tokens}
    (h : readIsNot outer tokens = .ok (sign, rest)) :
    ∃ nots inner, tokens = nots ++ rest ∧ DerivesNot nots inner ∧ ¬(outer = true ∧ inner = true) ∧
      sign = (outer ^^ inner) := by
  cases tokens with
  | nil =>
      cases h
      exact ⟨[], false, rfl, .absent, by simp, by simp⟩
  | cons token tail =>
      simp only [readIsNot] at h
      split at h
      · rename_i hword
        split at h
        · cases h
        · rename_i houter
          cases h
          exact ⟨[token], true, rfl, .present hword, by simp [houter], by simp [houter]⟩
      · cases h
        exact ⟨[], false, rfl, .absent, by simp, by simp⟩

theorem readIsNot_complete {outer inner : Bool} {nots : Tokens} (h : DerivesNot nots inner)
    (hone : ¬(outer = true ∧ inner = true)) {rest : Tokens}
    (hrest : Ahead (fun token => token.isWord "not" = false) rest) :
    readIsNot outer (nots ++ rest) = .ok (outer ^^ inner, rest) := by
  cases h with
  | absent =>
      cases rest with
      | nil => simp [readIsNot]
      | cons token tail =>
          have hword : token.isWord "not" = false := hrest token rfl
          simp [readIsNot, hword]
  | present hword =>
      have houter : outer = false := by simpa using hone
      simp [readIsNot, hword, houter]

/-- What `readComparison` gives back: the comparison, and both negations taken together. -/
def ComparisonAfter (outer : Bool) (tokens : Tokens) (result : Comparison × Bool) : Prop :=
  ∃ inner, DerivesComparison outer tokens result.1 inner ∧ result.2 = (outer ^^ inner)

theorem readEquality_sound {stop : Nat} {outer : Bool} {tokens rest : Tokens}
    {result : Comparison × Bool} (h : readEquality stop outer tokens = .ok (result, rest))
    {token : Token} (hword : token.isWord "is" = true) :
    ∃ taken, tokens = taken ++ rest ∧ ComparisonAfter outer (token :: taken) result := by
  obtain ⟨⟨sign, afterNot⟩, hnot, hnumber⟩ := ok_of_bind_eq_ok h
  obtain ⟨⟨number, last⟩, hnumber, hvalue⟩ := ok_of_bind_eq_ok hnumber
  obtain ⟨value, hvalue, hresult⟩ := ok_of_bind_eq_ok hvalue
  obtain ⟨nots, inner, htokens, hnots, hone, hsign⟩ := readIsNot_sound hnot
  obtain ⟨hafter, hkind⟩ := readNumber_eq_ok hnumber
  have hliteral := (literalValue_eq_ok_iff hkind).mp hvalue
  cases hresult
  refine ⟨nots ++ [number], ?_, inner, .equality hword hnots hone hliteral, hsign⟩
  rw [htokens, hafter, List.append_assoc, List.singleton_append]

theorem readEquality_complete {outer inner : Bool} {nots : Tokens} {number : Token} {value : Nat}
    (hnot : DerivesNot nots inner) (hone : ¬(outer = true ∧ inner = true))
    (hvalue : Literal number value) (stop : Nat) (rest : Tokens) :
    readEquality stop outer (nots ++ [number] ++ rest) =
      .ok ((.equality value, outer ^^ inner), rest) := by
  have hnext : number.isWord "not" = false := by
    simp [Token.isWord, hvalue.isNumber]
  have hahead : Ahead (fun token => token.isWord "not" = false) (number :: rest) :=
    ahead_cons.mpr hnext
  have hnots := readIsNot_complete hnot hone hahead
  have hnumber := readNumber_cons hvalue.isNumber stop rest
  have hliteral := (literalValue_eq_ok_iff hvalue.isNumber).mpr hvalue
  rw [List.append_assoc, List.singleton_append, readEquality, hnots]
  simp only [bind, Except.bind, hnumber, hliteral]
  rfl

/-- The three tests with ranges differ in the comparison they make and in the sign. -/
theorem readRanges_bind_sound {stop : Nat} {tokens rest : Tokens} {sign : Bool}
    {make : RangeList → Comparison} {result : Comparison × Bool}
    (h : (readRanges stop tokens >>= fun found => pure ((make found.1, sign), found.2)) =
      .ok (result, rest)) :
    ∃ taken ranges, tokens = taken ++ rest ∧ DerivesRanges taken ranges ∧
      result = (make ranges, sign) := by
  obtain ⟨⟨ranges, last⟩, hranges, hresult⟩ := ok_of_bind_eq_ok h
  obtain ⟨taken, htaken, hderived⟩ := (readRanges_recognizes stop).sound hranges
  cases hresult
  exact ⟨taken, ranges, htaken, hderived, rfl⟩

theorem readComparison_sound {stop : Nat} {outer : Bool} {tokens rest : Tokens}
    {result : Comparison × Bool} (h : readComparison stop outer tokens = .ok (result, rest)) :
    ∃ taken, tokens = taken ++ rest ∧ ComparisonAfter outer taken result := by
  obtain ⟨⟨token, afterToken⟩, htoken, hrest⟩ := ok_of_bind_eq_ok h
  cases tokens with
  | nil => cases htoken
  | cons first tail =>
      cases htoken
      dsimp only at hrest
      split at hrest
      · rename_i hword
        obtain ⟨taken, rfl, hderived⟩ := readEquality_sound hrest hword
        exact ⟨token :: taken, rfl, hderived⟩
      · split at hrest
        · rename_i hword
          obtain ⟨taken, ranges, rfl, hderived, rfl⟩ := readRanges_bind_sound hrest
          exact ⟨token :: taken, rfl, false, .within hword hderived, by simp⟩
        · split at hrest
          · rename_i hmark
            obtain ⟨taken, ranges, rfl, hderived, rfl⟩ := readRanges_bind_sound hrest
            exact ⟨token :: taken, rfl, false, .membership hmark hderived, by simp⟩
          · split at hrest
            · rename_i hsign
              obtain ⟨taken, ranges, rfl, hderived, rfl⟩ := readRanges_bind_sound hrest
              exact ⟨token :: taken, rfl, true, .exclusion hsign hderived, by simp⟩
            · cases hrest

theorem readComparison_complete {outer inner : Bool} {taken : Tokens} {comparison : Comparison}
    (h : DerivesComparison outer taken comparison inner) (stop : Nat) {rest : Tokens}
    (hrest : Ahead EndsRanges rest) :
    readComparison stop outer (taken ++ rest) = .ok ((comparison, outer ^^ inner), rest) := by
  cases h with
  | equality hword hnot hone hvalue =>
      have hread := readEquality_complete hnot hone hvalue stop rest
      simp only [readComparison, readToken, List.cons_append, bind, Except.bind, hword, if_true]
      exact hread
  | membership hmark hranges =>
      rename_i token tokens ranges
      have hread := (readRanges_recognizes stop).complete rest hranges hrest
      have hnot : token.isWord "is" = false ∧ token.isWord "within" = false := by
        rcases Bool.or_eq_true_iff.mp hmark with hword | hsign
        · exact ⟨isWord_of_isWord hword (by decide), isWord_of_isWord hword (by decide)⟩
        · exact ⟨isWord_of_isKind hsign (by decide) _, isWord_of_isKind hsign (by decide) _⟩
      simp only [isMembershipMark] at hmark
      simp [readComparison, readToken, bind, Except.bind, hnot, hmark, hread]
      rfl
  | exclusion hsign hranges =>
      rename_i token tokens ranges
      have hread := (readRanges_recognizes stop).complete rest hranges hrest
      have hword := isWord_of_isKind hsign (by decide)
      have hequals : token.isKind .equals = false := isKind_of_isKind hsign (by decide)
      simp [readComparison, readToken, bind, Except.bind, hword, hequals, hsign, hread]
      rfl
  | within hword hranges =>
      rename_i token tokens ranges
      have hread := (readRanges_recognizes stop).complete rest hranges hrest
      have his : token.isWord "is" = false := isWord_of_isWord hword (by decide)
      simp [readComparison, readToken, bind, Except.bind, his, hword, hread]
      rfl

/-! ### Relations -/

theorem readNot_sound (tokens : Tokens) :
    ∃ nots, tokens = nots ++ (readNot tokens).2 ∧ DerivesNot nots (readNot tokens).1 := by
  unfold readNot
  split
  · rename_i rest haccept
    obtain ⟨token, htokens, hword⟩ := accept_eq_some haccept
    exact ⟨[token], htokens, .present hword⟩
  · exact ⟨[], rfl, .absent⟩

theorem readNot_complete {nots : Tokens} {outer : Bool} (h : DerivesNot nots outer) {rest : Tokens}
    (hrest : Ahead (fun token => token.isWord "not" = false) rest) :
    readNot (nots ++ rest) = (outer, rest) := by
  cases h with
  | absent =>
      have hnone := accept_eq_none_iff.mpr hrest
      simp only [readNot, List.nil_append, hnone]
  | present hword =>
      have hsome : accept (·.isWord "not") (_ :: rest) = some rest := accept_cons_of_pos hword rest
      simp only [readNot, List.singleton_append, hsome]

/-- A comparison begins with its operator, so it is not taken for what may stand before it. -/
theorem DerivesComparison.ahead {outer inner : Bool} {taken : Tokens} {comparison : Comparison}
    (h : DerivesComparison outer taken comparison inner) (rest : Tokens) :
    Ahead (fun token => isModulusMark token = false ∧ token.isWord "not" = false)
      (taken ++ rest) := by
  have hword : ∀ {token : Token} {word : String}, token.isWord word = true → word ≠ "mod" →
      word ≠ "not" → isModulusMark token = false ∧ token.isWord "not" = false := by
    intro token word h hmod hnot
    simp [isModulusMark, isWord_of_isWord h hmod, isWord_of_isWord h hnot, isKind_of_isWord h]
  have hkind : ∀ {token : Token} {kind : TokenKind}, token.isKind kind = true → kind ≠ .word →
      kind ≠ .percent → isModulusMark token = false ∧ token.isWord "not" = false := by
    intro token kind h hne hpercent
    simp [isModulusMark, isWord_of_isKind h hne, isKind_of_isKind h hpercent]
  cases h with
  | equality his => exact ahead_cons.mpr (hword his (by decide) (by decide))
  | membership hmark =>
      rcases Bool.or_eq_true_iff.mp hmark with hin | hequals
      · exact ahead_cons.mpr (hword hin (by decide) (by decide))
      · exact ahead_cons.mpr (hkind hequals (by decide) (by decide))
  | exclusion hsign => exact ahead_cons.mpr (hkind hsign (by decide) (by decide))
  | within hwithin => exact ahead_cons.mpr (hword hwithin (by decide) (by decide))

theorem DerivesNot.ahead {nots : Tokens} {outer : Bool} (h : DerivesNot nots outer) {rest : Tokens}
    (hrest : Ahead (fun token => isModulusMark token = false) rest) :
    Ahead (fun token => isModulusMark token = false) (nots ++ rest) := by
  cases h with
  | absent => exact hrest
  | present hword =>
      refine ahead_cons.mpr ?_
      simp [isModulusMark, isWord_of_isWord hword, isKind_of_isWord hword]

theorem readRelation_recognizes (stop : Nat) :
    Recognizes (readRelation stop) DerivesRelation EndsRanges where
  sound := by
    intro tokens rest relation h
    obtain ⟨⟨operand, afterOperand⟩, hoperand, h⟩ := ok_of_bind_eq_ok h
    obtain ⟨⟨modulus, afterModulus⟩, hmodulus, h⟩ := ok_of_bind_eq_ok h
    obtain ⟨⟨⟨comparison, negated⟩, last⟩, hcomparison, h⟩ := ok_of_bind_eq_ok h
    obtain ⟨expression, htokens, hexpression⟩ := readExpression_sound hoperand hmodulus
    obtain ⟨nots, hafter, hnot⟩ := readNot_sound afterModulus
    obtain ⟨test, htest, inner, hderived, hnegated⟩ := readComparison_sound hcomparison
    cases h
    dsimp only at hnegated
    subst hnegated
    refine ⟨expression ++ (nots ++ test), ?_, .intro hexpression hnot hderived⟩
    rw [htokens, hafter, htest, List.append_assoc, List.append_assoc]
  complete := by
    intro taken relation rest h hrest
    cases h with
    | @intro expression nots test operand modulus comparison outer inner hexpression hnot htest =>
        have hahead := htest.ahead rest
        have hread := readComparison_complete htest stop hrest
        have hnots := readNot_complete hnot (hahead.mono fun _ h => h.2)
        obtain ⟨middle, hoperand, hmodulus⟩ := readExpression_complete hexpression stop
          (nots ++ (test ++ rest)) (hnot.ahead (hahead.mono fun _ h => h.1))
        rw [List.append_assoc, List.append_assoc, readRelation, hoperand]
        simp only [bind, Except.bind, hmodulus, hnots, hread]
        rfl

/-! ### Conditions -/

theorem readConjunction_eq (stop : Nat) :
    ReadsSeparated (readRelation stop) (·.isWord "and") (readConjunction stop) := by
  intro tokens
  rw [readConjunction]
  cases readRelation stop tokens with
  | error issue => rfl
  | ok result =>
      dsimp only
      cases accept (·.isWord "and") result.2 with
      | none => rfl
      | some more =>
          dsimp only
          cases readConjunction stop more <;> rfl

theorem readDisjunction_eq (stop : Nat) :
    ReadsSeparated (readConjunction stop) (·.isWord "or") (readDisjunction stop) := by
  intro tokens
  rw [readDisjunction]
  cases readConjunction stop tokens with
  | error issue => rfl
  | ok result =>
      dsimp only
      cases accept (·.isWord "or") result.2 with
      | none => rfl
      | some more =>
          dsimp only
          cases readDisjunction stop more <;> rfl

theorem endsRanges_of_isWord {token : Token} {word : String} (h : token.isWord word = true) :
    EndsRanges token :=
  ⟨isKind_of_isWord h (by decide), isKind_of_isWord h (by decide)⟩

theorem readConjunction_recognizes (stop : Nat) :
    Recognizes (readConjunction stop) DerivesConjunction
      (fun token => EndsRanges token ∧ token.isWord "and" = false) :=
  (readRelation_recognizes stop).separated (readConjunction_eq stop) fun _ => endsRanges_of_isWord

theorem readDisjunction_recognizes (stop : Nat) :
    Recognizes (readDisjunction stop) DerivesDisjunction
      (fun token => (EndsRanges token ∧ token.isWord "and" = false) ∧
        token.isWord "or" = false) :=
  (readConjunction_recognizes stop).separated (readDisjunction_eq stop) fun _ hor =>
    ⟨endsRanges_of_isWord hor, isWord_of_isWord hor (by decide)⟩

theorem not_derivesDisjunction_nil (groups : List (List Relation)) :
    ¬DerivesDisjunction [] groups := by
  intro h
  have hread := (readDisjunction_recognizes 0).complete [] h (ahead_nil _)
  rw [List.append_nil, readDisjunction_eq] at hread
  split at hread
  · cases hread
  · rename_i first rest hfirst
    have hlt := readConjunction_length hfirst
    exact absurd hlt (Nat.not_lt_zero _)

theorem Separated.ne_nil {Piece : Tokens → α → Prop} {separator : Token → Bool} {tokens : Tokens}
    {as : List α} (h : Separated Piece separator tokens as) : as ≠ [] := by
  cases h <;> simp

theorem ofTokens_eq_ok_iff (stop : Nat) {tokens : Tokens} {condition : Condition} :
    ofTokens stop tokens = .ok condition ↔ Derives tokens condition := by
  cases tokens with
  | nil =>
      constructor
      · intro h
        cases h
        exact .always
      · intro h
        cases h with
        | always => rfl
        | groups h => exact absurd h (not_derivesDisjunction_nil _)
  | cons token tail =>
      constructor
      · intro h
        simp only [ofTokens] at h
        split at h
        · cases h
        · cases h
        · rename_i groups hread
          cases h
          obtain ⟨taken, htokens, hderived⟩ := (readDisjunction_recognizes stop).sound hread
          rw [htokens, List.append_nil]
          exact .groups hderived
      · intro h
        cases h with
        | groups h =>
            have hread := (readDisjunction_recognizes stop).complete [] h (ahead_nil _)
            rw [List.append_nil] at hread
            simp only [ofTokens, hread]

/-- A token list writes one condition at most. -/
theorem Derives.unique {tokens : Tokens} {c d : Condition} (hc : Derives tokens c)
    (hd : Derives tokens d) : c = d := by
  have hreadC := (ofTokens_eq_ok_iff 0).mpr hc
  have hreadD := (ofTokens_eq_ok_iff 0).mpr hd
  rw [hreadC] at hreadD
  cases hreadD
  rfl

theorem readText_eq_ok_iff {text : List Char} {condition : Condition} {stop : Nat} :
    readText text = .ok (condition, stop) ↔
      text.length ≤ maxRuleLength ∧
        ∃ tokens, scan (.whole text) = .ok (tokens, stop) ∧ Derives tokens condition := by
  constructor
  · intro h
    obtain ⟨_, hlength, h⟩ := ok_of_bind_eq_ok h
    obtain ⟨⟨tokens, last⟩, hscan, h⟩ := ok_of_bind_eq_ok h
    obtain ⟨found, hfound, h⟩ := ok_of_bind_eq_ok h
    cases h
    exact ⟨checkLength_eq_ok_iff.mp hlength, tokens, hscan, (ofTokens_eq_ok_iff _).mp hfound⟩
  · rintro ⟨hlength, tokens, hscan, hderived⟩
    have hfound := (ofTokens_eq_ok_iff stop).mpr hderived
    simp only [readText, checkLength_eq_ok_iff.mpr hlength, bind, Except.bind, hscan, hfound]
    rfl

theorem parse_eq_ok_iff {source : String} {condition : Condition} :
    parse source = .ok condition ↔ ∃ stop, readText source.toList = .ok (condition, stop) := by
  rw [parse, refusedIn_eq_ok_iff]
  cases readText source.toList with
  | error issue => simp [Except.map]
  | ok result =>
      obtain ⟨found, stop⟩ := result
      simp [Except.map]

theorem tokenize_eq_ok_iff {source : String} {tokens : List Token} {stop : Nat} :
    tokenize source = .ok (tokens, stop) ↔ scan (.whole source.toList) = .ok (tokens, stop) :=
  refusedIn_eq_ok_iff

/-- Reading gives a condition just when the text is short enough and cut into tokens that derive
it; no tokens derive two conditions, and every other text is refused. -/
theorem parse_eq_ok_iff_derives (source : String) :
    (∀ condition, parse source = .ok condition ↔
      source.length ≤ maxRuleLength ∧
        ∃ tokens stop, tokenize source = .ok (tokens, stop) ∧ Derives tokens condition) ∧
    (∀ tokens c d, Derives tokens c → Derives tokens d → c = d) ∧
    ((∃ refusal, parse source = .error refusal) ↔
      ¬(source.length ≤ maxRuleLength ∧
        ∃ tokens stop condition, tokenize source = .ok (tokens, stop) ∧
          Derives tokens condition)) := by
  have hiff : ∀ condition, parse source = .ok condition ↔
      source.length ≤ maxRuleLength ∧
        ∃ tokens stop, tokenize source = .ok (tokens, stop) ∧ Derives tokens condition := by
    intro condition
    rw [parse_eq_ok_iff]
    simp only [readText_eq_ok_iff, tokenize_eq_ok_iff, String.length_toList]
    constructor
    · rintro ⟨stop, hlength, tokens, hscan, hderived⟩
      exact ⟨hlength, tokens, stop, hscan, hderived⟩
    · rintro ⟨hlength, tokens, stop, hscan, hderived⟩
      exact ⟨stop, hlength, tokens, hscan, hderived⟩
  refine ⟨hiff, fun _ _ _ hc hd => hc.unique hd, ?_⟩
  constructor
  · rintro ⟨refusal, hrefused⟩ ⟨hlength, tokens, stop, condition, hscan, hderived⟩
    have hread := (hiff condition).mpr ⟨hlength, tokens, stop, hscan, hderived⟩
    rw [hrefused] at hread
    cases hread
  · intro hnone
    cases hread : parse source with
    | error refusal => exact ⟨refusal, rfl⟩
    | ok condition =>
        obtain ⟨hlength, tokens, stop, hscan, hderived⟩ := (hiff condition).mp hread
        exact absurd ⟨hlength, tokens, stop, condition, hscan, hderived⟩ hnone

end PluralForms.Condition
