import PluralForms.Rule.Error
import PluralForms.Text.Suffix

/-!
# Samples

After its condition a rule may list sample numbers: `@integer` and then `@decimal`, each with
values and ranges of values, and perhaps an ellipsis at the end.  Values are kept as they are
written, since `1.0` and `1.00` are different samples.
-/

namespace PluralForms

open Text

structure SampleRange where
  lower : String
  upper : String
  deriving DecidableEq, Repr

namespace SampleRange

def single (value : String) : SampleRange := ⟨value, value⟩

def isSingle (range : SampleRange) : Bool :=
  range.lower == range.upper

def render (range : SampleRange) : String :=
  if range.isSingle then range.lower else range.lower ++ "~" ++ range.upper

end SampleRange

structure SampleList where
  ranges : List SampleRange
  /-- The list goes on beyond what is written. -/
  openEnded : Bool := false
  deriving DecidableEq, Repr

def SampleList.render (keyword : String) (samples : SampleList) : String :=
  let items := samples.ranges.map SampleRange.render ++ if samples.openEnded then ["…"] else []
  "@" ++ keyword ++ " " ++ ", ".intercalate items

structure Samples where
  integer : Option SampleList := none
  decimal : Option SampleList := none
  deriving DecidableEq, Repr

namespace Sample

/-! ## Values -/

def noValue (s : Suffix) : Issue :=
  match s.chars with
  | [] => ⟨.ended .sampleValue, s.position⟩
  | c :: _ => ⟨.unexpected (String.singleton c) (some .sampleValue), s.position⟩

def readDigits (s : Suffix) : Except Issue (List Char × Suffix) :=
  match s.chars.takeWhile isDigit with
  | [] => .error (noValue s)
  | digit :: digits => .ok (digit :: digits, s.dropRun isDigit)

/-- A mark of the given class with digits after it, or nothing where there is no mark. -/
def readPart (isMark : Char → Bool) (s : Suffix) : Except Issue (List Char × Suffix) :=
  match s.chars with
  | [] => .ok ([], s)
  | c :: _ =>
      if isMark c then do
        let (digits, rest) ← readDigits (s.drop 1)
        return (c :: digits, rest)
      else .ok ([], s)

def isExponentMark (c : Char) : Bool := c == 'c' || c == 'e'

def readValue (s : Suffix) : Except Issue (String × Suffix) := do
  let (whole, s) ← readDigits s
  let (fraction, s) ← readPart (· == '.') s
  let (exponent, s) ← readPart isExponentMark s
  return (String.ofList (whole ++ fraction ++ exponent), s)

/-- One value, or two around a tilde; blanks after it are skipped. -/
def readRange (s : Suffix) : Except Issue (SampleRange × Suffix) := do
  let (lower, s) ← readValue s
  match s.skipBlanks.chars with
  | '~' :: _ => do
      let (upper, s) ← readValue (s.skipBlanks.drop 1).skipBlanks
      return (⟨lower, upper⟩, s.skipBlanks)
  | _ => return (.single lower, s.skipBlanks)

/-! ### Progress -/

theorem readDigits_length {s rest : Suffix} {digits : List Char}
    (h : readDigits s = .ok (digits, rest)) : rest.chars.length < s.chars.length := by
  unfold readDigits at h
  split at h
  · cases h
  · rename_i digit digits hrun
    cases h
    have happ := congrArg List.length
      (List.takeWhile_append_dropWhile (p := isDigit) (l := s.chars))
    rw [hrun] at happ
    simp only [List.length_append, List.length_cons] at happ
    simp only [Suffix.dropRun]
    omega

theorem readPart_length {isMark : Char → Bool} {s rest : Suffix} {part : List Char}
    (h : readPart isMark s = .ok (part, rest)) : rest.chars.length ≤ s.chars.length := by
  unfold readPart at h
  split at h
  · cases h
    exact Nat.le_refl _
  · split at h
    · obtain ⟨⟨digits, after⟩, hdigits, h⟩ := ok_of_bind_eq_ok h
      cases h
      have hlt := readDigits_length hdigits
      have hle := s.length_drop_le 1
      omega
    · cases h
      exact Nat.le_refl _

theorem readValue_length {s rest : Suffix} {value : String}
    (h : readValue s = .ok (value, rest)) : rest.chars.length < s.chars.length := by
  obtain ⟨⟨whole, s1⟩, hwhole, h⟩ := ok_of_bind_eq_ok h
  obtain ⟨⟨fraction, s2⟩, hfraction, h⟩ := ok_of_bind_eq_ok h
  obtain ⟨⟨exponent, s3⟩, hexponent, h⟩ := ok_of_bind_eq_ok h
  cases h
  have h1 := readDigits_length hwhole
  have h2 := readPart_length hfraction
  have h3 := readPart_length hexponent
  omega

theorem readRange_length {s rest : Suffix} {range : SampleRange}
    (h : readRange s = .ok (range, rest)) : rest.chars.length < s.chars.length := by
  obtain ⟨⟨lower, s1⟩, hlower, h⟩ := ok_of_bind_eq_ok h
  have h1 := readValue_length hlower
  have h2 := s1.length_skipBlanks_le
  simp only at h
  split at h
  · obtain ⟨⟨upper, s2⟩, hupper, h⟩ := ok_of_bind_eq_ok h
    cases h
    have h3 := readValue_length hupper
    have h4 := (s1.skipBlanks.drop 1).length_skipBlanks_le
    have h5 := s1.skipBlanks.length_drop_le 1
    have h6 := s2.length_skipBlanks_le
    dsimp only
    omega
  · cases h
    omega

/-! ## Lists -/

/-- The text after an ellipsis, written as one character or as three points. -/
def ellipsis? (s : Suffix) : Option Suffix :=
  match s.chars with
  | '…' :: _ => some (s.drop 1)
  | '.' :: '.' :: '.' :: _ => some (s.drop 3)
  | _ => none

/-- What follows a sample range: commas, each with a further range or the closing ellipsis. -/
def readMore (s : Suffix) : Except Issue (SampleList × Suffix) :=
  match s.chars with
  | ',' :: _ =>
      match ellipsis? (s.drop 1).skipBlanks with
      | some rest => .ok (⟨[], true⟩, rest)
      | none =>
          match _hrange : readRange (s.drop 1).skipBlanks with
          | .error issue => .error issue
          | .ok (range, rest) =>
              match readMore rest with
              | .error issue => .error issue
              | .ok (more, rest) => .ok (⟨range :: more.ranges, more.openEnded⟩, rest)
  | _ => .ok (⟨[], false⟩, s)
termination_by s.chars.length
decreasing_by
  have hrange := readRange_length _hrange
  have hblanks := (s.drop 1).length_skipBlanks_le
  have hdrop := s.length_drop_le 1
  omega

def readList (s : Suffix) : Except Issue (SampleList × Suffix) := do
  let (range, s) ← readRange s.skipBlanks
  let (more, s) ← readMore s
  return (⟨range :: more.ranges, more.openEnded⟩, s)

/-! ## Annotations -/

/-- The letters directly after a marker; nothing where there is no marker. -/
def keyword (s : Suffix) : List Char :=
  match s.chars with
  | '@' :: rest => rest.takeWhile isLetter
  | _ => []

def readAnnotation (name : String) (s : Suffix) : Except Issue (Option SampleList × Suffix) :=
  if keyword s = name.toList then do
    let (samples, rest) ← readList ((s.drop 1).dropRun isLetter)
    return (some samples, rest.skipBlanks)
  else .ok (none, s)

def unexpectedRest (s : Suffix) (c : Char) : Issue :=
  let found := if (keyword s).isEmpty then [c] else '@' :: keyword s
  ⟨.unexpected (String.ofList found) (some .sampleKeyword), s.position⟩

/-- All annotations: integers, then decimals, then nothing. -/
def readAll (s : Suffix) : Except Issue Samples := do
  let (integer, s) ← readAnnotation "integer" s.skipBlanks
  let (decimal, s) ← readAnnotation "decimal" s
  match s.chars with
  | [] => .ok { integer, decimal }
  | c :: _ => .error (unexpectedRest s c)

end Sample

end PluralForms
