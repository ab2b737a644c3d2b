import PluralForms.Text.Classes
import PluralForms.Text.Json
import PluralForms.Text.Quoted
import PluralForms.Diagnostic.Basic
import PluralForms.Diagnostic.Layout
import PluralForms.Diagnostic.Wording
import PluralForms.Text.CaseFold
import PluralForms.Category
import PluralForms.Rule.Error
import PluralForms.Text.Suffix
import PluralForms.Rule.Token
import PluralForms.Rule.Condition
import PluralForms.Rule.Condition.Reader
import PluralForms.Rule
import PluralForms.Number.Binary64
import PluralForms.Number.FixedPoint
import PluralForms.Number
import PluralForms.Operands.Basic
import PluralForms.Operands.Conversion
import PluralForms.Rule.Condition.Truth
import PluralForms.Journal
import PluralForms.Locale
import PluralForms.Provider
import PluralForms.Data.StandardRules
import PluralForms.RecencyCache
import PluralForms.Selector
import PluralForms.SelectorPool
import PluralForms.Text.Cursor
import PluralForms.Number.Numeral
import PluralForms.Proofs.Cutting
import PluralForms.Proofs.Grammar
import PluralForms.Proofs.WrittenText
import PluralForms.Proofs.ConditionText
import PluralForms.Proofs.RuleText
import PluralForms.Proofs.DisplayedNumber
import PluralForms.Proofs.ConditionMeaning
import PluralForms.Proofs.Selection
import PluralForms.Proofs.PoolSessions
import PluralForms.Proofs.HiddenSource
import PluralForms.Proofs.CacheHistory
import PluralForms.Proofs.Culprits
import PluralForms.Proofs.Lookahead
import PluralForms.Proofs.HopelessTokens
import PluralForms.Proofs.DecimalTexts
import PluralForms.Proofs.SamplePieces
import PluralForms.Proofs.HalfEven
import PluralForms.Proofs.ShownNumber
import PluralForms.Proofs.BinaryText
import PluralForms.Proofs.RoundedNumber
import PluralForms.Proofs.Routes
import PluralForms.Proofs.HiddenPrecision
import PluralForms.Proofs.RuleFaults
import PluralForms.Proofs.CacheCounts
import PluralForms.Proofs.NearestAncestor
import PluralForms.Proofs.RuleOrder
import PluralForms.Proofs.CaseFolding
import PluralForms.Proofs.ExactMatches
import PluralForms.Proofs.Respelling
import PluralForms.Proofs.CaretColumns
import PluralForms.Proofs.PrintableOutput
import PluralForms.Proofs.TokenPlaces
import PluralForms.Proofs.Respacing
import PluralForms.Proofs.SampleNumbers
