import PluralForms.Diagnostic.Basic
import PluralForms.Text.Json
import PluralForms.Text.Printable

/-!
# Laying out diagnostics

A diagnostic is shown as a report of several lines that echoes the rule with a mark under the
problem, as one line, or as a JSON object.  Text that comes from outside is escaped, so that
it cannot forge a line; a sanitizing style cuts long text and leaves the rule out of reports.
-/

namespace PluralForms

inductive Layout where
  | report
  | oneLine
  | object
  deriving DecidableEq, Repr

structure Style where
  layout : Layout := .report
  /-- Leaves the rule out of reports and cuts texts longer than `limit`. -/
  sanitize : Bool := false
  /-- Colours the severity of a report. -/
  color : Bool := false
  /-- How many characters remain of a text that is cut; a negative limit counts from the end. -/
  limit : Int := 100
  deriving DecidableEq, Repr

namespace Style

def kept (style : Style) (length : Nat) : Nat :=
  if style.limit < 0 then (length + style.limit).toNat else style.limit.toNat

/-- Escapes a text and, in a sanitizing style, cuts what is longer than the limit. -/
def clean (style : Style) (text : String) : String :=
  let escaped := Text.escapeChars text.toList
  if style.sanitize && style.limit < escaped.length then
    String.ofList (escaped.take (style.kept escaped.length)) ++ "..."
  else String.ofList escaped

def colorCode : Severity → String
  | .error => "\x1b[1;31m"
  | .warning => "\x1b[1;33m"

def severityLabel (style : Style) (severity : Severity) : String :=
  if style.color then colorCode severity ++ severity.name ++ "\x1b[0m" else severity.name

def columns (count : Nat) (c : Char) : String :=
  String.ofList (List.replicate count c)

/-- The rule and, under it, marks from the start of the span over its width. -/
def echoLines (source : String) (span : Span) : List String :=
  ["   | " ++ Text.escape source,
    "   | " ++ columns span.start ' ' ++ columns (max 1 (span.stop - span.start)) '^']

def present? (text : Option String) : Option String :=
  text.filter fun t => !t.isEmpty

def headline (style : Style) (d : Diagnostic) : String :=
  style.severityLabel d.severity ++ "[" ++ d.code.name ++ "]: " ++ style.clean d.message

def placeLines (style : Style) (d : Diagnostic) : List String :=
  match d.span with
  | none => []
  | some span =>
      s!"  --> position {span.start}" ::
        match d.source with
        | some source => if style.sanitize then [] else echoLines source span
        | none => []

def reportLines (style : Style) (d : Diagnostic) : List String :=
  style.headline d :: style.placeLines d ++
    (present? d.hint).toList.map (fun hint => "  = help: " ++ style.clean hint) ++
    (present? d.helpUrl).toList.map (fun url => "  = note: see " ++ url)

/-- The members of the object of a diagnostic; what is absent has no member. -/
def members (style : Style) (d : Diagnostic) : List (String × Text.Json.Value) :=
  [("code", .text d.code.name), ("code_value", .number d.code.number),
    ("message", .text (style.clean d.message)), ("severity", .text d.severity.name)] ++
  (match d.span with
    | none => []
    | some span => [("start", .number span.start), ("end", .number span.stop)]) ++
  d.source.toList.map (fun source => ("source", .text (style.clean source))) ++
  (present? d.hint).toList.map (fun hint => ("hint", .text (style.clean hint))) ++
  (present? d.helpUrl).toList.map (fun url => ("help_url", .text url))

def format (style : Style) (d : Diagnostic) : String :=
  match style.layout with
  | .report => "\n".intercalate (style.reportLines d)
  | .oneLine => d.code.name ++ ": " ++ style.clean d.message
  | .object => Text.Json.object (style.members d)

def formatAll (style : Style) (diagnostics : List Diagnostic) : String :=
  "\n\n".intercalate (diagnostics.map style.format)

end Style

end PluralForms
