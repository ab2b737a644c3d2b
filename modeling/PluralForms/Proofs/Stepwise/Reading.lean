import PluralForms.Rule
import PluralForms.Text.Cursor

/-!
# Reading step by step

The readers of conditions and samples recur on what is left of the text.  Here the same reading is
written as a machine would do it: a cursor moves over the text and an index over the tokens, a
character, a token, a number, a range or a span is asked for whether or not there is one, and
nothing but the allowed number of turns stops a loop.  So a reading may fail in ways of its own, or
not come to its end.
-/

namespace PluralForms

open Text

/-- What is raised when a text is refused. -/
structure Refusal where
  diagnostic : Diagnostic
  kind : Problem.Kind
  position : Int
  source : String
  deriving DecidableEq, Repr

namespace Stepwise

/-- All that can keep a reading from its end. -/
inductive Fault where
  | refused (refusal : Refusal)
  /-- A character was asked for where there is none. -/
  | noCharacter (error : OffsetError)
  /-- A token was asked for where there is none. -/
  | noToken (index : Int)
  /-- A text was read as a number that is none, or has too many digits. -/
  | noNumber (text : String)
  /-- A range, a modulus or a relation was made from parts that make none. -/
  | noTree (error : TreeError)
  /-- A refusal had bounds that are no stretch of a text. -/
  | noSpan (error : SpanError)
  deriving DecidableEq, Repr

/-- A reading that may fail; `none` is one that is still in a loop when all turns are taken. -/
abbrev Step (α : Type) := ExceptT Fault Option α

def unended {α : Type} : Step α := none

def checked {ε α : Type} (fault : ε → Fault) : Except ε α → Step α
  | .ok a => pure a
  | .error e => throw (fault e)

/-! ## Refusals

A refusal pairs a diagnostic with a kind; the span of the diagnostic is checked. -/

def refuse {α : Type} (kind : Problem.Kind) (source : String) (position : Int) (length : Nat)
    (diagnostic : Nat → Diagnostic) : Step α := do
  let span ← checked .noSpan (Span.ofBounds? position (position + length))
  throw (.refused {
    diagnostic := { diagnostic span.start with span := some span }
    kind, position, source })

def unexpectedToken {α : Type} (source shown : String) (position : Int) (found : String)
    (expected : List String) : Step α :=
  refuse .unexpectedToken source position (max 1 found.length) fun start =>
    Diagnostic.unexpectedToken shown start found expected

def unexpectedEnd {α : Type} (source : String) (position : Int) (expected : Expectation) : Step α :=
  refuse .unexpectedEnd source position 0 fun start =>
    Diagnostic.unexpectedEnd source start expected.descriptions

def invalidOperand {α : Type} (source : String) (token : Token) : Step α :=
  refuse .invalidOperand source token.position (max 1 token.text.length) fun start =>
    Diagnostic.invalidOperand source start token.text

def invalidNumber {α : Type} (source : String) (token : Token) (fault : LiteralFault) : Step α :=
  refuse .invalidNumber source token.position (max 1 token.text.length) fun start =>
    Diagnostic.invalidNumber source start token.text fault.reason

/-! ## Characters -/

def current (cursor : Cursor) : Step Char := checked .noCharacter cursor.current

def peek (cursor : Cursor) (offset : Int) : Step (Option Char) :=
  checked .noCharacter (cursor.peek offset)

def takeWhile (cursor : Cursor) (p : Char → Bool) : Step (String × Cursor) :=
  checked .noCharacter (cursor.takeWhile p)

def skipBlanks (cursor : Cursor) : Step Cursor := checked .noCharacter cursor.skipBlanks

def standsAt (c : Char) (cursor : Cursor) : Step Bool :=
  if cursor.atEnd then pure false
  else do
    let found ← current cursor
    return found == c

/-- The character after the longest allowed rule is shown where there is one. -/
def checkLength (source : String) : Step Unit :=
  if maxRuleLength < source.length then do
    let next ← current ⟨source, maxRuleLength⟩
    unexpectedToken source (String.ofList (source.toList.take maxRuleLength)) maxRuleLength
      (String.singleton next) []
  else pure ()

/-! ## Tokens -/

def sign? (c : Char) : Option TokenKind :=
  if c = '=' then some .equals
  else if c = '%' then some .percent
  else if c = ',' then some .comma
  else none

def readToken (cursor : Cursor) : Step (Token × Cursor) := do
  let start := cursor.position
  let c ← current cursor
  if isLetter c then
    let (text, cursor) ← takeWhile cursor isLetter
    return (⟨.word, text, start.toNat⟩, cursor)
  else if isDigit c then
    let (text, cursor) ← takeWhile cursor isDigit
    return (⟨.number, text, start.toNat⟩, cursor)
  else match sign? c with
    | some kind => return (⟨kind, String.singleton c, start.toNat⟩, cursor.advance 1)
    | none =>
        let next ← peek cursor 1
        if c = '!' ∧ next = some '=' then
          return (⟨.notEquals, "!=", start.toNat⟩, cursor.advance 2)
        else if c = '.' ∧ next = some '.' then
          return (⟨.range, "..", start.toNat⟩, cursor.advance 2)
        else unexpectedToken cursor.source cursor.source start (String.singleton c) []

/-- All tokens up to the marker or the end, and the cursor there. -/
def readTokens : Nat → Cursor → Step (List Token × Cursor)
  | 0, _ => unended
  | turns + 1, cursor => do
      let cursor ← skipBlanks cursor
      if cursor.atEnd then return ([], cursor)
      else
        let c ← current cursor
        if c = sampleMarker then return ([], cursor)
        else
          let (token, after) ← readToken cursor
          let (tokens, last) ← readTokens turns after
          return (token :: tokens, last)

/-! ## Conditions -/

structure Tokenized where
  source : String
  tokens : List Token
  stop : Int

section Conditions

variable (t : Tokenized)

/-- The token at an index; one below zero counts from the end. -/
def tokenAt (index : Int) : Step Token :=
  let place := if 0 ≤ index then index else t.tokens.length + index
  match if 0 ≤ place then t.tokens[place.toNat]? else none with
  | some token => pure token
  | none => throw (.noToken index)

def peekToken (index : Nat) : Step (Option Token) :=
  if index < t.tokens.length then do
    let token ← tokenAt t index
    return some token
  else pure none

def unexpected {α : Type} (token : Token) (expected : Expectation) : Step α :=
  unexpectedToken t.source t.source token.position token.text expected.descriptions

def takeToken (expected : Expectation) (index : Nat) : Step (Token × Nat) := do
  match ← peekToken t index with
  | some token => return (token, index + 1)
  | none => unexpectedEnd t.source t.stop expected

def accept (test : Token → Bool) (index : Nat) : Step (Bool × Nat) := do
  match ← peekToken t index with
  | some token => return if test token then (true, index + 1) else (false, index)
  | none => return (false, index)

def numberToken (index : Nat) : Step (Token × Nat) := do
  let (token, index) ← takeToken t .number index
  if token.kind = .number then return (token, index) else unexpected t token .number

/-- The most digits that a text to be read as a number may have. -/
def maxNumberDigits : Nat := 4300

def readNumber (text : String) : Step Nat :=
  if text.toList ≠ [] ∧ text.toList.all isDigit ∧ text.length ≤ maxNumberDigits then
    pure (digitsValue text.toList)
  else throw (.noNumber text)

/-- The value of a number.  A very long one is refused unread. -/
def value (token : Token) : Step Nat := do
  if (Nat.toDigits 10 maxInteger).length < (withoutLeadingZeros token.text.toList).length then
    invalidNumber t.source token .tooLarge
  else
    let number ← readNumber token.text
    if maxInteger < number then invalidNumber t.source token .tooLarge else return number

def operand (index : Nat) : Step (Operand × Nat) := do
  let (token, index) ← takeToken t .operand index
  if token.kind = .word then
    match Operand.ofName? token.text with
    | some operand => return (operand, index)
    | none => invalidOperand t.source token
  else unexpected t token .operand

def modulus (index : Nat) : Step (Option Nat × Nat) := do
  let (named, index) ← accept t (fun token => token.isWord "mod" || token.isKind .percent) index
  if named then
    let (token, index) ← numberToken t index
    let modulus ← value t token
    if modulus = 0 then invalidNumber t.source token .zeroModulus else return (some modulus, index)
  else return (none, index)

def interval (index : Nat) : Step (Interval × Nat) := do
  let (token, index) ← numberToken t index
  let lower ← value t token
  let (more, index) ← accept t (·.isKind .range) index
  if more then
    let (token, index) ← numberToken t index
    let upper ← value t token
    if upper < lower then invalidNumber t.source token .belowLowerBound
    else
      let interval ← checked .noTree (Interval.ofBounds? lower upper)
      return (interval, index)
  else
    let interval ← checked .noTree (Interval.ofBounds? lower lower)
    return (interval, index)

/-- One item, and more of them for as long as the mark follows. -/
def separated {α : Type} (item : Nat → Step (α × Nat)) (mark : Token → Bool) :
    Nat → Nat → Step (List α × Nat)
  | 0, _ => unended
  | turns + 1, index => do
      let (first, index) ← item index
      let (more, index) ← accept t mark index
      if more then
        let (others, index) ← separated item mark turns index
        return (first :: others, index)
      else return ([first], index)

def relationOf (operand : Operand) (operator : Operator) (ranges : List Interval)
    (modulus : Option Nat) (negated : Bool) : Step Relation :=
  checked .noTree do
    let comparison ← Comparison.ofRanges? operator ranges
    let modulus ← modulus.mapM fun (value : Nat) => Modulus.ofInt? value
    return { operand, modulus, comparison, negated }

def equalTo (operand : Operand) (modulus : Option Nat) (negated : Bool) (index : Nat) :
    Step (Relation × Nat) := do
  let (token, index) ← numberToken t index
  let number ← value t token
  let interval ← checked .noTree (Interval.ofBounds? number number)
  let relation ← relationOf operand .equality [interval] modulus negated
  return (relation, index)

/-- What follows `is`: a second `not` is the token before the index. -/
def equality (operand : Operand) (modulus : Option Nat) (negated : Bool) (index : Nat) :
    Step (Relation × Nat) := do
  let (again, index) ← accept t (·.isWord "not") index
  if again && negated then
    let token ← tokenAt t ((index : Int) - 1)
    unexpected t token .value
  else equalTo t operand modulus (negated || again) index

variable (turns : Nat)

def ranges (operand : Operand) (operator : Operator) (modulus : Option Nat) (negated : Bool)
    (index : Nat) : Step (Relation × Nat) := do
  let (ranges, index) ← separated t (interval t) (·.isKind .comma) turns index
  let relation ← relationOf operand operator ranges modulus negated
  return (relation, index)

def comparison (operand : Operand) (modulus : Option Nat) (negated : Bool) (index : Nat) :
    Step (Relation × Nat) := do
  let (token, index) ← takeToken t .operator index
  if token.isWord "is" then equality t operand modulus negated index
  else if token.isWord "in" then ranges t turns operand .membership modulus negated index
  else if token.isWord "within" then ranges t turns operand .within modulus negated index
  else if token.isKind .equals || token.isKind .notEquals then
    ranges t turns operand .membership modulus (negated != token.isKind .notEquals) index
  else unexpected t token .operator

def relation (index : Nat) : Step (Relation × Nat) := do
  let (operand, index) ← operand t index
  let (modulus, index) ← modulus t index
  let (negated, index) ← accept t (·.isWord "not") index
  comparison t turns operand modulus negated index

def conjunction (index : Nat) : Step (List Relation × Nat) :=
  separated t (relation t turns) (·.isWord "and") turns index

def ofTokens : Step Condition :=
  if t.tokens.isEmpty then pure .always
  else do
    let (groups, index) ← separated t (conjunction t turns) (·.isWord "or") turns 0
    match ← peekToken t index with
    | some token => unexpected t token .continuation
    | none => return ⟨groups⟩

end Conditions

def readCondition (turns : Nat) (source : String) : Step (Condition × Int) := do
  checkLength source
  let (tokens, cursor) ← readTokens turns ⟨source, 0⟩
  let condition ← ofTokens ⟨source, tokens, cursor.position⟩ turns
  return (condition, cursor.position)

/-! ## Samples -/

def noSampleValue {α : Type} (cursor : Cursor) : Step α :=
  if cursor.atEnd then unexpectedEnd cursor.source cursor.position .sampleValue
  else do
    let found ← current cursor
    unexpectedToken cursor.source cursor.source cursor.position (String.singleton found)
      Expectation.sampleValue.descriptions

def sampleDigits (cursor : Cursor) : Step Cursor := do
  let (digits, cursor) ← takeWhile cursor isDigit
  if digits = "" then noSampleValue cursor else return cursor

def samplePart (isMark : Char → Bool) (cursor : Cursor) : Step Cursor := do
  let next ← peek cursor 0
  if next.any isMark then sampleDigits (cursor.advance 1) else return cursor

def sampleValue (start : Cursor) : Step (String × Cursor) := do
  let cursor ← sampleDigits start
  let cursor ← samplePart (· == '.') cursor
  let cursor ← samplePart Sample.isExponentMark cursor
  return (String.ofList (slice start.source.toList start.position cursor.position), cursor)

def sampleRange (cursor : Cursor) : Step (SampleRange × Cursor) := do
  let (lower, cursor) ← sampleValue cursor
  let cursor ← skipBlanks cursor
  let more ← standsAt '~' cursor
  if more then
    let cursor ← skipBlanks (cursor.advance 1)
    let (upper, cursor) ← sampleValue cursor
    let cursor ← skipBlanks cursor
    return (⟨lower, upper⟩, cursor)
  else return (⟨lower, lower⟩, cursor)

def ellipses : List String := ["…", "..."]

def ellipsisAt? (cursor : Cursor) : Option String :=
  ellipses.find? fun dots =>
    dots.toList.isPrefixOf (cursor.source.toList.drop (place cursor.source.length cursor.position))

def sampleItems : Nat → List SampleRange → Cursor → Step (SampleList × Cursor)
  | 0, _, _ => unended
  | turns + 1, ranges, cursor => do
      let cursor ← skipBlanks cursor
      match if ranges.isEmpty then none else ellipsisAt? cursor with
      | some dots => return (⟨ranges, true⟩, cursor.advance dots.length)
      | none =>
          let (range, cursor) ← sampleRange cursor
          let more ← standsAt ',' cursor
          if more then sampleItems turns (ranges ++ [range]) (cursor.advance 1)
          else return (⟨ranges ++ [range], false⟩, cursor)

def keywordAt (c : Char) (cursor : Cursor) : Step (String × Cursor) :=
  if c = sampleMarker then takeWhile (cursor.advance 1) isLetter else pure ("", cursor)

/-- The samples from the cursor on, those in front of it given; all lists have the same number of
turns. -/
def readSamples (listTurns : Nat) : Nat → Samples → Cursor → Step Samples
  | 0, _, _ => unended
  | turns + 1, given, cursor => do
      let cursor ← skipBlanks cursor
      if cursor.atEnd then return given
      else
        let c ← current cursor
        let (keyword, after) ← keywordAt c cursor
        if keyword = "integer" ∧ given.integer = none ∧ given.decimal = none then
          let (samples, cursor) ← sampleItems listTurns [] after
          readSamples listTurns turns { given with integer := some samples } cursor
        else if keyword = "decimal" ∧ given.decimal = none then
          let (samples, cursor) ← sampleItems listTurns [] after
          readSamples listTurns turns { given with decimal := some samples } cursor
        else
          let found := if keyword = "" then String.singleton c else "@" ++ keyword
          unexpectedToken cursor.source cursor.source cursor.position found
            Expectation.sampleKeyword.descriptions

/-! ## Texts -/

/-- The condition of a text, each loop with the given number of turns. -/
def parseCondition (turns : Nat) (source : String) : Step Condition := do
  let (condition, _) ← readCondition turns source
  return condition

def parseRule (turns : Nat) (source : String) : Step Rule := do
  let (condition, stop) ← readCondition turns source
  let samples ← readSamples turns turns {} ⟨source, stop⟩
  return { condition, samples }

end Stepwise

end PluralForms
