import PluralForms.Category
import PluralForms.Diagnostic.Wording

/-!
# Why a text is no rule

A reader that refuses a text names one problem and one offset.  The wording comes from the
diagnostics, so that the problem itself stays a plain cause.
-/

namespace PluralForms

inductive Expectation where
  | operand
  | operator
  | number
  | value
  | continuation
  | sampleKeyword
  | sampleValue
  | relation
  | category
  deriving DecidableEq, Repr

def Expectation.descriptions : Expectation → List String
  | operand => ["operand"]
  | operator => ["'is'", "'in'", "'within'", "'='", "'!='"]
  | number => ["number"]
  | value => ["value"]
  | continuation => ["'and'", "'or'", "','"]
  | sampleKeyword => ["'@integer'", "'@decimal'"]
  | sampleValue => ["sample value"]
  | relation => ["relation"]
  | category => Category.all.map fun c => "'" ++ c.name ++ "'"

inductive LiteralFault where
  | tooLarge
  | zeroModulus
  | belowLowerBound
  deriving DecidableEq, Repr

def LiteralFault.reason : LiteralFault → String
  | tooLarge => "literal exceeds 64-bit range"
  | zeroModulus => "modulus must be positive"
  | belowLowerBound => "range upper bound is below its lower bound"

inductive Problem where
  /-- A piece of text that is not allowed at its place. -/
  | unexpected (found : String) (expected : Option Expectation)
  /-- The text stops where something has to follow. -/
  | ended (expected : Expectation)
  | unknownOperand (name : String)
  | literal (text : String) (fault : LiteralFault)
  /-- The text goes on, with the given character, beyond the longest allowed rule. -/
  | tooLong (next : Char)
  deriving DecidableEq, Repr

inductive Problem.Kind where
  | unexpectedToken
  | unexpectedEnd
  | invalidOperand
  | invalidNumber
  deriving DecidableEq, Repr

namespace Problem

def kind : Problem → Kind
  | unexpected .. => .unexpectedToken
  | ended _ => .unexpectedEnd
  | unknownOperand _ => .invalidOperand
  | literal .. => .invalidNumber
  | tooLong _ => .unexpectedToken

def Kind.name : Kind → String
  | unexpectedToken => "unexpected_token"
  | unexpectedEnd => "unexpected_end"
  | invalidOperand => "invalid_operand"
  | invalidNumber => "invalid_number"

def Kind.code : Kind → Code
  | unexpectedToken => .unexpectedToken
  | unexpectedEnd => .unexpectedEnd
  | invalidOperand => .invalidOperand
  | invalidNumber => .invalidNumber

end Problem

structure Issue where
  problem : Problem
  position : Nat
  deriving DecidableEq, Repr

/-- No rule is longer than this many characters. -/
def maxRuleLength : Nat := 4096

structure RuleError extends Issue where
  source : String
  deriving DecidableEq, Repr

namespace RuleError

def kind (e : RuleError) : Problem.Kind := e.problem.kind

/-- A text beyond the longest allowed rule is shown only as far as that length. -/
def diagnostic (e : RuleError) : Diagnostic :=
  match e.problem with
  | .unexpected found expected =>
      .unexpectedToken e.source e.position found
        ((expected.map Expectation.descriptions).getD [])
  | .ended expected => .unexpectedEnd e.source e.position expected.descriptions
  | .unknownOperand name => .invalidOperand e.source e.position name
  | .literal text fault => .invalidNumber e.source e.position text fault.reason
  | .tooLong next =>
      .unexpectedToken (String.ofList (e.source.toList.take maxRuleLength)) e.position
        (String.singleton next) []

theorem code_diagnostic (e : RuleError) : e.diagnostic.code = e.kind.code := by
  obtain ⟨⟨problem, position⟩, source⟩ := e
  cases problem <;> rfl

def message (e : RuleError) : String := e.diagnostic.message

end RuleError

def refusedIn (source : String) (outcome : Except Issue α) : Except RuleError α :=
  outcome.mapError fun issue => { issue with source := source }

theorem refusedIn_eq_ok_iff {source : String} {outcome : Except Issue α} {a : α} :
    refusedIn source outcome = .ok a ↔ outcome = .ok a := by
  cases outcome with
  | error issue => exact ⟨nofun, nofun⟩
  | ok b =>
      constructor
      · intro h
        cases h
        rfl
      · intro h
        cases h
        rfl

def checkLength (text : List Char) : Except Issue Unit :=
  match text.drop maxRuleLength with
  | [] => .ok ()
  | next :: _ => .error ⟨.tooLong next, maxRuleLength⟩

theorem checkLength_eq_ok_iff {text : List Char} :
    checkLength text = .ok () ↔ text.length ≤ maxRuleLength := by
  unfold checkLength
  rw [← List.drop_eq_nil_iff]
  split <;> simp_all

theorem ok_of_bind_eq_ok {x : Except Issue α} {f : α → Except Issue β} {b : β}
    (h : (x >>= f) = .ok b) : ∃ a, x = .ok a ∧ f a = .ok b := by
  cases x with
  | error issue => cases h
  | ok a => exact ⟨a, rfl, h⟩

end PluralForms
