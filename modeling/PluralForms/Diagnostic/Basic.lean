/-!
# Diagnostics

What can be reported about a rule, a number, a locale or a set of rules: a numbered code, a
sentence, and, for rules, the place in the rule text.
-/

namespace PluralForms

/-- What a diagnostic is about.  The thousands of the number tell the area: rule text,
numbers, locales, sets of rules. -/
inductive Code where
  | unexpectedToken
  | unexpectedEnd
  | invalidOperand
  | invalidNumber
  | invalidDecimalString
  | operandOverflow
  | localeNotFound
  | engineBuildFailed
  deriving DecidableEq, Repr

namespace Code

def number : Code → Nat
  | unexpectedToken => 1001
  | unexpectedEnd => 1002
  | invalidOperand => 1003
  | invalidNumber => 1004
  | invalidDecimalString => 2001
  | operandOverflow => 2002
  | localeNotFound => 3001
  | engineBuildFailed => 4001

def name : Code → String
  | unexpectedToken => "UNEXPECTED_TOKEN"
  | unexpectedEnd => "UNEXPECTED_END"
  | invalidOperand => "INVALID_OPERAND"
  | invalidNumber => "INVALID_NUMBER"
  | invalidDecimalString => "INVALID_DECIMAL_STRING"
  | operandOverflow => "OPERAND_OVERFLOW"
  | localeNotFound => "LOCALE_NOT_FOUND"
  | engineBuildFailed => "ENGINE_BUILD_FAILED"

def all : List Code :=
  [unexpectedToken, unexpectedEnd, invalidOperand, invalidNumber, invalidDecimalString,
    operandOverflow, localeNotFound, engineBuildFailed]

def ofName? (name : String) : Option Code :=
  all.find? fun code => code.name == name

end Code

inductive SpanError where
  | negativeStart (start : Int)
  | reversed (start stop : Int)
  deriving DecidableEq, Repr

def SpanError.message : SpanError → String
  | .negativeStart start => s!"SourceSpan.start must be >= 0, got {start}"
  | .reversed start stop => s!"SourceSpan.end ({stop}) must be >= start ({start})"

/-- A stretch of a text, from the offset `start` up to but not including `stop`. -/
structure Span where
  start : Nat
  stop : Nat
  start_le_stop : start ≤ stop := by omega
  deriving DecidableEq, Repr

namespace Span

def ofLength (start length : Nat) : Span where
  start := start
  stop := start + length

def offset? (start : Int) : Except SpanError Nat :=
  if start < 0 then .error (.negativeStart start) else .ok start.toNat

def ofBounds? (start stop : Int) : Except SpanError Span :=
  if start < 0 then .error (.negativeStart start)
  else if h : stop < start then .error (.reversed start stop)
  else .ok { start := start.toNat, stop := stop.toNat }

end Span

inductive Severity where
  | error
  | warning
  deriving DecidableEq, Repr

def Severity.name : Severity → String
  | error => "error"
  | warning => "warning"

structure Diagnostic where
  code : Code
  /-- One sentence. -/
  message : String
  /-- The place in `source`, for a problem of a rule. -/
  span : Option Span := none
  source : Option String := none
  /-- What may mend it. -/
  hint : Option String := none
  helpUrl : Option String := none
  severity : Severity := .error
  deriving DecidableEq, Repr

end PluralForms
