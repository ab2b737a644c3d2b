import Mathlib.Data.List.Basic
import PluralForms.Proofs.Grammar
import PluralForms.Proofs.SampleGrammar
import PluralForms.Rule

/-!
# Where refusals point

A refusal quotes a piece of the text and points at it.  Only where the text stops too early there is
nothing to quote; then it points at the end of the text or of the condition.  No reading refuses
anything in front of the place where it begins.
-/

namespace PluralForms

open Text

def Problem.quoted : Problem → List Char
  | unexpected found _ => found.toList
  | ended _ => []
  | unknownOperand name => name.toList
  | literal text _ => text.toList
  | tooLong next => [next]

/-- An issue points at what it quotes, or at an end. -/
inductive Issue.PointsInto (text : List Char) : Issue → Prop where
  | ended {expected position}
      (hend : position = text.length ∨ position = text.idxOf sampleMarker) :
      PointsInto text ⟨.ended expected, position⟩
  | quoted {problem position} (hne : problem.quoted ≠ [])
      (hfront : problem.quoted <+: text.drop position) : PointsInto text ⟨problem, position⟩

theorem Issue.PointsInto.position_le {text : List Char} {issue : Issue}
    (h : issue.PointsInto text) : issue.position ≤ text.length := by
  cases h with
  | ended hend =>
      rcases hend with hlength | hmarker
      · exact Nat.le_of_eq hlength
      · rw [hmarker]
        exact List.idxOf_le_length
  | @quoted problem position hne hfront =>
      have hquoted := List.length_pos_iff.mpr hne
      have hle := hfront.length_le
      rw [List.length_drop] at hle
      show position ≤ text.length
      omega

/-! ## Readings from the characters -/

/-- `r` is what is left of the text from the same place on or further behind. -/
structure Text.Suffix.Behind (text : List Char) (s r : Suffix) : Prop where
  within : r.Within text
  position_le : s.position ≤ r.position

/-- A reading that begins at `s` leaves off behind it, or refuses something behind it. -/
def StaysBehind (text : List Char) (s : Suffix) : Except Issue (α × Suffix) → Prop
  | .ok (_, rest) => s.Behind text rest
  | .error issue => issue.PointsInto text ∧ s.position ≤ issue.position

section Behind

variable {text : List Char} {s r : Suffix}

theorem Text.Suffix.Behind.trans {q : Suffix} (h : s.Behind text r) (hq : r.Behind text q) :
    s.Behind text q :=
  ⟨hq.within, Nat.le_trans h.position_le hq.position_le⟩

theorem Text.Suffix.Within.behind_self (hs : s.Within text) : s.Behind text s :=
  ⟨hs, Nat.le_refl _⟩

theorem Text.Suffix.Within.behind_dropRun (hs : s.Within text) (p : Char → Bool) :
    s.Behind text (s.dropRun p) :=
  ⟨hs.dropRun p, Nat.le_add_right _ _⟩

theorem Text.Suffix.Within.behind_skipBlanks (hs : s.Within text) :
    s.Behind text s.skipBlanks :=
  hs.behind_dropRun isBlank

theorem Text.Suffix.Within.behind_drop (hs : s.Within text) (count : Nat) :
    s.Behind text (s.drop count) :=
  ⟨hs.drop count, Nat.le_add_right _ _⟩

theorem Text.Suffix.Within.pointsInto {problem : Problem} (hs : s.Within text)
    (hne : problem.quoted ≠ []) (hfront : problem.quoted <+: s.chars) :
    Issue.PointsInto text ⟨problem, s.position⟩ :=
  .quoted hne (hs.2 ▸ hfront)

theorem Text.Suffix.Within.position_of_nil (hs : s.Within text) (hnil : s.chars = []) :
    s.position = text.length := by
  rw [hs.2, List.drop_eq_nil_iff] at hnil
  exact Nat.le_antisymm hs.1 hnil

theorem StaysBehind.of_behind {outcome : Except Issue (α × Suffix)} (h : s.Behind text r)
    (hread : StaysBehind text r outcome) : StaysBehind text s outcome := by
  cases outcome with
  | error issue => exact ⟨hread.1, Nat.le_trans h.position_le hread.2⟩
  | ok result => exact h.trans hread

theorem StaysBehind.bind {first : Except Issue (α × Suffix)}
    {next : α × Suffix → Except Issue (β × Suffix)} (hfirst : StaysBehind text s first)
    (hnext : ∀ a rest, rest.Within text → StaysBehind text rest (next (a, rest))) :
    StaysBehind text s (first >>= next) := by
  cases first with
  | error issue => exact hfirst
  | ok result => exact (hnext result.1 result.2 hfirst.within).of_behind hfirst

end Behind

/-! ## Tokens -/

/-- A token is a piece of the text and knows its place. -/
structure Token.StandsIn (text : List Char) (token : Token) : Prop where
  isLexeme : IsLexeme token.kind token.text.toList
  text_begins : token.text.toList <+: text.drop token.position

theorem Token.StandsIn.text_ne_nil {text : List Char} {token : Token} (h : token.StandsIn text) :
    token.text.toList ≠ [] :=
  h.isLexeme.ne_nil

section Tokens

variable {text : List Char} {s rest : Suffix}

theorem marker_not_mem_blanks (s : Suffix) : sampleMarker ∉ s.chars.takeWhile isBlank := by
  intro hmem
  exact absurd (List.all_eq_true.mp List.all_takeWhile _ hmem) (by decide)

theorem IsLexeme.marker_not_mem {kind : TokenKind} {piece : List Char} (h : IsLexeme kind piece) :
    sampleMarker ∉ piece := by
  cases h with
  | word hne hall => exact fun hmem => absurd (hall _ hmem) (by decide)
  | number hne hall => exact fun hmem => absurd (hall _ hmem) (by decide)
  | equals => decide
  | notEquals => decide
  | percent => decide
  | comma => decide
  | range => decide

/-- The first marker stays where it is while blanks and tokens are taken from before it. -/
theorem marker_skipBlanks (s : Suffix) :
    s.skipBlanks.position + s.skipBlanks.chars.idxOf sampleMarker =
      s.position + s.chars.idxOf sampleMarker := by
  have hindex : s.chars.idxOf sampleMarker =
      (s.chars.takeWhile isBlank).length + (s.chars.dropWhile isBlank).idxOf sampleMarker := by
    rw [← List.idxOf_append_of_notMem (marker_not_mem_blanks s), List.takeWhile_append_dropWhile]
  simp only [Suffix.skipBlanks, Suffix.dropRun]
  omega

theorem marker_nextToken {token? : Option Token} (h : nextToken s = .ok (token?, rest)) :
    rest.position + rest.chars.idxOf sampleMarker = s.position + s.chars.idxOf sampleMarker := by
  rw [← marker_skipBlanks s]
  unfold nextToken at h
  split at h
  · cases h
    rfl
  · split at h
    · cases h
      rfl
    · split at h
      · cases h
      · next piece hpiece =>
          cases h
          have hmarker := (isLexeme_of_lexeme? hpiece).1.marker_not_mem
          rw [← lexeme?_append hpiece, List.idxOf_append_of_notMem hmarker, Nat.add_assoc]

theorem marker_of_no_token (h : nextToken s = .ok (none, rest)) :
    rest.chars.idxOf sampleMarker = 0 := by
  unfold nextToken at h
  split at h
  · next hnil =>
      cases h
      rw [hnil]
      rfl
  · next c tail hchars =>
      split at h
      · next hmarker =>
          cases h
          rw [hchars, hmarker, List.idxOf_cons_self]
      · split at h <;> cases h

/-- A condition ends at the first marker, or with the text. -/
theorem stop_of_scan {tokens : List Token} {stop : Nat} (h : scan s = .ok (tokens, stop)) :
    stop = s.position + s.chars.idxOf sampleMarker := by
  fun_induction scan s generalizing tokens with
  | case1 => cases h
  | case2 s rest hnext =>
      cases h
      rw [← marker_nextToken hnext, marker_of_no_token hnext, Nat.add_zero]
  | case3 => cases h
  | case4 s token rest hnext others last hrest ih =>
      cases h
      rw [ih hrest, marker_nextToken hnext]

/-- A token that is taken stands in the text, and the reading goes on behind it. -/
theorem nextToken_staysBehind (hs : s.Within text) :
    StaysBehind text s (nextToken s) ∧
      ∀ token rest, nextToken s = .ok (some token, rest) → token.StandsIn text := by
  have hskip := hs.behind_skipBlanks
  unfold nextToken
  split
  · exact ⟨hskip, nofun⟩
  · next c tail hchars =>
      split
      · exact ⟨hskip, nofun⟩
      · split
        · refine ⟨⟨hskip.within.pointsInto ?_ ?_, hskip.position_le⟩, nofun⟩
          · simp [Problem.quoted]
          · simp [Problem.quoted, hchars]
        · next piece hpiece =>
            have happend := lexeme?_append hpiece
            have hdrop := hskip.within.behind_drop piece.text.length
            have hrest : s.skipBlanks.drop piece.text.length =
                ⟨s.skipBlanks.position + piece.text.length, piece.rest⟩ := by
              simp [Suffix.drop, ← happend]
            refine ⟨hrest ▸ hskip.trans hdrop, ?_⟩
            rintro token rest heq
            cases heq
            refine ⟨?_, ?_⟩
            · simpa using (isLexeme_of_lexeme? hpiece).1
            · show (String.ofList piece.text).toList <+: text.drop s.skipBlanks.position
              rw [String.toList_ofList, ← hskip.within.2, ← happend]
              exact List.prefix_append _ _

theorem standsIn_of_scan (hs : s.Within text) {tokens : List Token} {stop : Nat}
    (h : scan s = .ok (tokens, stop)) : ∀ token ∈ tokens, token.StandsIn text := by
  fun_induction scan s generalizing tokens with
  | case1 => cases h
  | case2 =>
      cases h
      exact nofun
  | case3 => cases h
  | case4 s token rest hnext others last hrest ih =>
      cases h
      obtain ⟨hbehind, hstands⟩ := nextToken_staysBehind hs
      rw [hnext] at hbehind
      exact List.forall_mem_cons.mpr ⟨hstands token rest hnext, ih hbehind.within hrest⟩

theorem pointsInto_of_scan_error (hs : s.Within text) {issue : Issue}
    (h : scan s = .error issue) : issue.PointsInto text := by
  fun_induction scan s with
  | case1 s issue' hnext =>
      cases h
      have hread := (nextToken_staysBehind hs).1
      rw [hnext] at hread
      exact hread.1
  | case2 => cases h
  | case3 s token rest hnext issue' hrest ih =>
      cases h
      have hread := (nextToken_staysBehind hs).1
      rw [hnext] at hread
      exact ih hread.within hrest
  | case4 => cases h

end Tokens

/-! ## Readings from tokens -/

namespace Condition

/-- An issue is about one of the tokens, or about the end at which another is missing. -/
inductive IssueAmong (stop : Nat) (tokens : Tokens) : Issue → Prop where
  | ended {expected} : IssueAmong stop tokens ⟨.ended expected, stop⟩
  | token {problem token} (hmem : token ∈ tokens)
      (hquoted : problem.quoted = token.text.toList) :
      IssueAmong stop tokens ⟨problem, token.position⟩

/-- A reading leaves the last ones of the tokens, or has an issue among them. -/
def StaysAmong (stop : Nat) (tokens : Tokens) : Except Issue (α × Tokens) → Prop
  | .ok (_, rest) => rest <:+ tokens
  | .error issue => IssueAmong stop tokens issue

section

variable {stop : Nat} {tokens rest : Tokens}

theorem IssueAmong.of_suffix {issue : Issue} (h : IssueAmong stop rest issue)
    (hrest : rest <:+ tokens) : IssueAmong stop tokens issue := by
  cases h with
  | ended => exact .ended
  | token hmem hquoted => exact .token (hrest.mem hmem) hquoted

theorem StaysAmong.of_suffix {outcome : Except Issue (α × Tokens)}
    (h : StaysAmong stop rest outcome) (hrest : rest <:+ tokens) :
    StaysAmong stop tokens outcome := by
  cases outcome with
  | error issue => exact IssueAmong.of_suffix h hrest
  | ok result => exact List.IsSuffix.trans h hrest

theorem StaysAmong.bind {first : Except Issue (α × Tokens)}
    {next : α × Tokens → Except Issue (β × Tokens)} (hfirst : StaysAmong stop tokens first)
    (hnext : ∀ a rest, rest <:+ tokens → first = .ok (a, rest) →
      StaysAmong stop tokens (next (a, rest))) :
    StaysAmong stop tokens (first >>= next) := by
  cases first with
  | error issue => exact hfirst
  | ok result => exact hnext result.1 result.2 hfirst rfl

theorem StaysAmong.bind_plain {first : Except Issue α} {next : α → Except Issue (β × Tokens)}
    (hfirst : ∀ issue, first = .error issue → IssueAmong stop tokens issue)
    (hnext : ∀ a, StaysAmong stop tokens (next a)) :
    StaysAmong stop tokens (first >>= next) := by
  cases first with
  | error issue => exact hfirst issue rfl
  | ok a => exact hnext a

theorem accept_suffix {test : Token → Bool} (h : accept test tokens = some rest) :
    rest <:+ tokens := by
  obtain ⟨token, rfl, -⟩ := accept_eq_some h
  exact List.suffix_cons token rest

theorem readToken_staysAmong (expected : Expectation) (tokens : Tokens) :
    StaysAmong stop tokens (readToken stop expected tokens) := by
  cases tokens with
  | nil => exact .ended
  | cons token rest => exact List.suffix_cons token rest

theorem mem_of_readToken {expected : Expectation} {token : Token}
    (h : readToken stop expected tokens = .ok (token, rest)) : token ∈ tokens := by
  cases tokens with
  | nil => cases h
  | cons first tail =>
      cases h
      exact List.mem_cons_self

theorem readNumber_staysAmong (tokens : Tokens) :
    StaysAmong stop tokens (readNumber stop tokens) := by
  cases tokens with
  | nil => exact .ended
  | cons token rest =>
      simp only [readNumber]
      split
      · exact List.suffix_cons token rest
      · exact .token List.mem_cons_self rfl

theorem mem_of_readNumber {token : Token} (h : readNumber stop tokens = .ok (token, rest)) :
    token ∈ tokens := by
  obtain ⟨rfl, -⟩ := readNumber_eq_ok h
  exact List.mem_cons_self

theorem literalValue_error {token : Token} (hmem : token ∈ tokens) {issue : Issue}
    (h : literalValue token = .error issue) : IssueAmong stop tokens issue := by
  simp only [literalValue] at h
  split at h
  · cases h
    exact .token hmem rfl
  · cases h

theorem modulusOf_error {token : Token} (hmem : token ∈ tokens) {issue : Issue}
    (h : modulusOf token = .error issue) : IssueAmong stop tokens issue := by
  unfold modulusOf at h
  cases hvalue : literalValue token with
  | error other =>
      rw [hvalue] at h
      cases h
      exact literalValue_error hmem hvalue
  | ok value =>
      simp only [hvalue, bind, Except.bind] at h
      split at h
      · cases h
      · cases h
        exact .token hmem rfl

theorem operandOf_error {token : Token} (hmem : token ∈ tokens) {issue : Issue}
    (h : operandOf token = .error issue) : IssueAmong stop tokens issue := by
  unfold operandOf at h
  split at h
  · split at h
    · cases h
    · cases h
      exact .token hmem rfl
  · cases h
    exact .token hmem rfl

theorem readOperand_staysAmong (tokens : Tokens) :
    StaysAmong stop tokens (readOperand stop tokens) := by
  refine (readToken_staysAmong .operand tokens).bind ?_
  intro token rest hrest hread
  refine .bind_plain (fun issue => operandOf_error (mem_of_readToken hread)) ?_
  intro operand
  exact hrest

theorem readModulus_staysAmong (tokens : Tokens) :
    StaysAmong stop tokens (readModulus stop tokens) := by
  unfold readModulus
  split
  · exact List.suffix_refl tokens
  · next rest haccept =>
      refine StaysAmong.of_suffix ?_ (accept_suffix haccept)
      refine (readNumber_staysAmong rest).bind ?_
      intro token after hafter hread
      refine .bind_plain (fun issue => modulusOf_error (mem_of_readNumber hread)) ?_
      intro modulus
      exact hafter

theorem readInterval_staysAmong (tokens : Tokens) :
    StaysAmong stop tokens (readInterval stop tokens) := by
  refine (readNumber_staysAmong tokens).bind ?_
  intro low rest hrest hlow
  refine .bind_plain (fun issue => literalValue_error (mem_of_readNumber hlow)) ?_
  intro lower
  dsimp only
  split
  · exact hrest
  · next more haccept =>
      refine StaysAmong.of_suffix ?_ ((accept_suffix haccept).trans hrest)
      refine (readNumber_staysAmong more).bind ?_
      intro high after hafter hhigh
      refine .bind_plain (fun issue => literalValue_error (mem_of_readNumber hhigh)) ?_
      intro upper
      dsimp only
      split
      · exact hafter
      · exact .token (mem_of_readNumber hhigh) rfl

/-- Pieces with separators stay among the tokens if one piece does. -/
theorem separated_staysAmong {one : Tokens → Except Issue (α × Tokens)} {separator : Token → Bool}
    {many : Tokens → Except Issue (List α × Tokens)} (hmany : ReadsSeparated one separator many)
    (hone : ∀ tokens, StaysAmong stop tokens (one tokens))
    (hprogress : ∀ {tokens a rest}, one tokens = .ok (a, rest) → rest.length < tokens.length)
    (tokens : Tokens) : StaysAmong stop tokens (many tokens) := by
  have hread := hone tokens
  rw [hmany]
  split
  · next issue hfirst =>
      rw [hfirst] at hread
      exact hread
  · next first rest hfirst =>
      rw [hfirst] at hread
      have hrest : rest <:+ tokens := hread
      split
      · exact hrest
      · next more haccept =>
          have hmore : more <:+ tokens := (accept_suffix haccept).trans hrest
          have hlt : more.length < tokens.length := by
            have hpiece := hprogress hfirst
            have hmark := accept_length haccept
            omega
          have hothers :=
            (separated_staysAmong hmany hone hprogress more).of_suffix hmore
          split
          · next issue hissue =>
              rw [hissue] at hothers
              exact hothers
          · next others last hlast =>
              rw [hlast] at hothers
              exact hothers
termination_by tokens.length

theorem readRanges_staysAmong (tokens : Tokens) :
    StaysAmong stop tokens (readRanges stop tokens) := by
  have hread := separated_staysAmong (readIntervals_eq stop) readInterval_staysAmong
    readInterval_length tokens
  unfold readIntervals at hread
  cases hranges : readRanges stop tokens with
  | error issue =>
      rw [hranges] at hread
      exact hread
  | ok result =>
      rw [hranges] at hread
      exact hread

theorem readIsNot_staysAmong (negated : Bool) (tokens : Tokens) :
    StaysAmong stop tokens (readIsNot negated tokens) := by
  cases tokens with
  | nil => exact List.suffix_refl []
  | cons token rest =>
      simp only [readIsNot]
      split
      · split
        · exact .token List.mem_cons_self rfl
        · exact List.suffix_cons token rest
      · exact List.suffix_refl _

theorem readEquality_staysAmong (negated : Bool) (tokens : Tokens) :
    StaysAmong stop tokens (readEquality stop negated tokens) := by
  refine (readIsNot_staysAmong negated tokens).bind ?_
  intro sign rest hrest _
  refine StaysAmong.of_suffix ?_ hrest
  refine (readNumber_staysAmong rest).bind ?_
  intro token after hafter hread
  refine .bind_plain (fun issue => literalValue_error (mem_of_readNumber hread)) ?_
  intro value
  exact hafter

theorem readRanges_bind_staysAmong (make : RangeList → Comparison) (negated : Bool)
    (tokens : Tokens) :
    StaysAmong stop tokens
      (readRanges stop tokens >>= fun found => pure ((make found.1, negated), found.2)) := by
  refine (readRanges_staysAmong tokens).bind ?_
  intro ranges rest hrest _
  exact hrest

theorem readComparison_staysAmong (negated : Bool) (tokens : Tokens) :
    StaysAmong stop tokens (readComparison stop negated tokens) := by
  refine (readToken_staysAmong .operator tokens).bind ?_
  intro token rest hrest hread
  dsimp only
  split
  · exact (readEquality_staysAmong negated rest).of_suffix hrest
  · split
    · exact (readRanges_bind_staysAmong .within _ rest).of_suffix hrest
    · split
      · exact (readRanges_bind_staysAmong .membership _ rest).of_suffix hrest
      · split
        · exact (readRanges_bind_staysAmong .membership _ rest).of_suffix hrest
        · exact .token (mem_of_readToken hread) rfl

theorem readNot_suffix (tokens : Tokens) : (readNot tokens).2 <:+ tokens := by
  obtain ⟨nots, htokens, -⟩ := readNot_sound tokens
  exact ⟨nots, htokens.symm⟩

theorem readRelation_staysAmong (tokens : Tokens) :
    StaysAmong stop tokens (readRelation stop tokens) := by
  refine (readOperand_staysAmong tokens).bind ?_
  intro operand afterOperand hoperand _
  refine StaysAmong.of_suffix ?_ hoperand
  refine (readModulus_staysAmong afterOperand).bind ?_
  intro modulus afterModulus hmodulus _
  refine StaysAmong.of_suffix ?_ ((readNot_suffix afterModulus).trans hmodulus)
  refine (readComparison_staysAmong _ _).bind ?_
  intro comparison rest hrest _
  exact hrest

theorem readConjunction_staysAmong (tokens : Tokens) :
    StaysAmong stop tokens (readConjunction stop tokens) :=
  separated_staysAmong (readConjunction_eq stop) readRelation_staysAmong readRelation_length tokens

theorem readDisjunction_staysAmong (tokens : Tokens) :
    StaysAmong stop tokens (readDisjunction stop tokens) :=
  separated_staysAmong (readDisjunction_eq stop) readConjunction_staysAmong readConjunction_length
    tokens

theorem ofTokens_error {issue : Issue} (h : ofTokens stop tokens = .error issue) :
    IssueAmong stop tokens issue := by
  cases tokens with
  | nil => cases h
  | cons first tail =>
      have hread : StaysAmong stop (first :: tail) (readDisjunction stop (first :: tail)) :=
        readDisjunction_staysAmong _
      simp only [ofTokens] at h
      split at h
      · next other hother =>
          cases h
          rw [hother] at hread
          exact hread
      · next groups token rest hleft =>
          cases h
          rw [hleft] at hread
          have hleft : token :: rest <:+ first :: tail := hread
          exact .token (hleft.mem List.mem_cons_self) rfl
      · cases h

end

theorem IssueAmong.pointsInto {text : List Char} {stop : Nat} {tokens : Tokens} {issue : Issue}
    (h : IssueAmong stop tokens issue) (htokens : ∀ token ∈ tokens, token.StandsIn text)
    (hstop : stop = text.length ∨ stop = text.idxOf sampleMarker) : issue.PointsInto text := by
  cases h with
  | ended => exact .ended hstop
  | @token problem token hmem hquoted =>
      have hstands := htokens token hmem
      refine .quoted ?_ ?_
      · rw [hquoted]
        exact hstands.text_ne_nil
      · rw [hquoted]
        exact hstands.text_begins

end Condition

namespace Sample

variable {text : List Char} {s : Suffix}

theorem noValue_pointsInto (hs : s.Within text) :
    (noValue s).PointsInto text ∧ s.position ≤ (noValue s).position := by
  unfold noValue
  split
  · next hnil => exact ⟨.ended (.inl (hs.position_of_nil hnil)), Nat.le_refl _⟩
  · next c tail hchars =>
      refine ⟨hs.pointsInto ?_ ?_, Nat.le_refl _⟩
      · simp [Problem.quoted]
      · simp [Problem.quoted, hchars]

theorem readDigits_staysBehind (hs : s.Within text) : StaysBehind text s (readDigits s) := by
  unfold readDigits
  split
  · exact noValue_pointsInto hs
  · exact hs.behind_dropRun isDigit

theorem readPart_staysBehind (isMark : Char → Bool) (hs : s.Within text) :
    StaysBehind text s (readPart isMark s) := by
  unfold readPart
  split
  · exact hs.behind_self
  · split
    · have hdigits := readDigits_staysBehind (hs.drop 1)
      refine (hdigits.bind ?_).of_behind (hs.behind_drop 1)
      intro digits rest hrest
      exact hrest.behind_self
    · exact hs.behind_self

theorem readValue_staysBehind (hs : s.Within text) : StaysBehind text s (readValue s) := by
  refine (readDigits_staysBehind hs).bind ?_
  intro whole s1 hs1
  refine (readPart_staysBehind _ hs1).bind ?_
  intro fraction s2 hs2
  refine (readPart_staysBehind _ hs2).bind ?_
  intro exponent s3 hs3
  exact hs3.behind_self

theorem readRange_staysBehind (hs : s.Within text) : StaysBehind text s (readRange s) := by
  refine (readValue_staysBehind hs).bind ?_
  intro lower s1 hs1
  have hskip := hs1.behind_skipBlanks
  dsimp only
  split
  · have hdrop := hskip.within.behind_drop 1
    have hvalue := readValue_staysBehind hdrop.within.behind_skipBlanks.within
    refine (hvalue.bind ?_).of_behind ((hskip.trans hdrop).trans hdrop.within.behind_skipBlanks)
    intro upper s2 hs2
    exact hs2.behind_skipBlanks
  · exact hskip

theorem ellipsis?_behind {rest : Suffix} (hs : s.Within text) (h : ellipsis? s = some rest) :
    s.Behind text rest := by
  unfold ellipsis? at h
  split at h
  · cases h
    exact hs.behind_drop 1
  · cases h
    exact hs.behind_drop 3
  · cases h

theorem readMore_staysBehind (hs : s.Within text) : StaysBehind text s (readMore s) := by
  fun_induction readMore s with
  | case1 s tail hcomma rest hdots =>
      have hskip := (hs.drop 1).behind_skipBlanks
      exact ((hs.behind_drop 1).trans hskip).trans (ellipsis?_behind hskip.within hdots)
  | case2 s tail hcomma hdots issue hrange =>
      have hskip := (hs.drop 1).behind_skipBlanks
      have hread := readRange_staysBehind hskip.within
      rw [hrange] at hread
      exact hread.of_behind ((hs.behind_drop 1).trans hskip)
  | case3 s tail hcomma hdots range rest hrange issue hmore ih =>
      have hskip := (hs.drop 1).behind_skipBlanks
      have hread := readRange_staysBehind hskip.within
      rw [hrange] at hread
      have hrest := ih hread.within
      rw [hmore] at hrest
      exact hrest.of_behind (((hs.behind_drop 1).trans hskip).trans hread)
  | case4 s tail hcomma hdots range rest hrange more last hmore ih =>
      have hskip := (hs.drop 1).behind_skipBlanks
      have hread := readRange_staysBehind hskip.within
      rw [hrange] at hread
      have hrest := ih hread.within
      rw [hmore] at hrest
      exact (((hs.behind_drop 1).trans hskip).trans hread).trans hrest
  | case5 s hcomma => exact hs.behind_self

theorem readList_staysBehind (hs : s.Within text) : StaysBehind text s (readList s) := by
  have hskip := hs.behind_skipBlanks
  refine ((readRange_staysBehind hskip.within).bind ?_).of_behind hskip
  intro range s1 hs1
  refine (readMore_staysBehind hs1).bind ?_
  intro more s2 hs2
  exact hs2.behind_self

theorem readAnnotation_staysBehind (name : String) (hs : s.Within text) :
    StaysBehind text s <| readAnnotation name s := by
  unfold readAnnotation
  split
  · have hmarker := hs.behind_drop 1
    have hkeyword := hmarker.within.behind_dropRun isLetter
    refine ((readList_staysBehind hkeyword.within).bind ?_).of_behind (hmarker.trans hkeyword)
    intro samples rest hrest
    exact hrest.behind_skipBlanks
  · exact hs.behind_self

theorem marker_keyword_begins (h : keyword s ≠ []) : '@' :: keyword s <+: s.chars := by
  unfold keyword at h ⊢
  split
  · next rest hchars =>
      rw [hchars]
      exact (List.prefix_cons_inj '@').mpr (List.takeWhile_prefix isLetter)
  · next hother =>
      split at h
      · next rest hchars => exact absurd hchars (hother rest)
      · exact absurd rfl h

theorem unexpectedRest_pointsInto {c : Char} {tail : List Char} (hs : s.Within text)
    (hchars : s.chars = c :: tail) : (unexpectedRest s c).PointsInto text := by
  by_cases hempty : keyword s = []
  · refine hs.pointsInto ?_ ?_
    · simp [Problem.quoted, hempty]
    · simp [Problem.quoted, hempty, hchars]
  · refine hs.pointsInto ?_ ?_
    · simp [Problem.quoted, hempty]
    · simpa [Problem.quoted, hempty] using marker_keyword_begins hempty

theorem readAll_error (hs : s.Within text) {issue : Issue} (h : readAll s = .error issue) :
    issue.PointsInto text ∧ s.position ≤ issue.position := by
  have hskip := hs.behind_skipBlanks
  have hinteger := (readAnnotation_staysBehind "integer" hskip.within).of_behind hskip
  unfold readAll at h
  cases hfirst : readAnnotation "integer" s.skipBlanks with
  | error first =>
      rw [hfirst] at h hinteger
      cases h
      exact hinteger
  | ok result =>
      rw [hfirst] at h hinteger
      have hdecimal := (readAnnotation_staysBehind "decimal" hinteger.within).of_behind hinteger
      simp only [bind, Except.bind] at h
      cases hsecond : readAnnotation "decimal" result.2 with
      | error second =>
          rw [hsecond] at h hdecimal
          cases h
          exact hdecimal
      | ok last =>
          rw [hsecond] at h hdecimal
          simp only at h
          split at h
          · cases h
          · next c tail hchars =>
              cases h
              exact ⟨unexpectedRest_pointsInto hdecimal.within hchars, hdecimal.position_le⟩

end Sample

/-! ## Rules -/

theorem pointsInto_of_tooLong {text : List Char} {issue : Issue}
    (h : checkLength text = .error issue) : issue.PointsInto text := by
  unfold checkLength at h
  split at h
  · cases h
  · next c rest hrest =>
      cases h
      refine .quoted (List.cons_ne_nil _ _) ?_
      rw [hrest]
      exact ⟨rest, rfl⟩

theorem Condition.pointsInto_of_readText_error {text : List Char} {issue : Issue}
    (h : readText text = .error issue) : issue.PointsInto text := by
  have hwhole := Suffix.whole_within text
  unfold readText at h
  cases hlength : checkLength text with
  | error other =>
      rw [hlength] at h
      cases h
      exact pointsInto_of_tooLong hlength
  | ok _ =>
      simp only [hlength, bind, Except.bind] at h
      cases hscan : scan (.whole text) with
      | error other =>
          rw [hscan] at h
          cases h
          exact pointsInto_of_scan_error hwhole hscan
      | ok result =>
          simp only [hscan] at h
          have hstop : result.2 = text.idxOf sampleMarker := by
            rw [stop_of_scan hscan]
            exact Nat.zero_add _
          cases htree : ofTokens result.2 result.1 with
          | error other =>
              rw [htree] at h
              cases h
              exact (ofTokens_error htree).pointsInto (standsIn_of_scan hwhole hscan) (.inr hstop)
          | ok condition =>
              rw [htree] at h
              cases h

theorem Condition.stop_of_readText {text : List Char} {condition : Condition} {stop : Nat}
    (h : readText text = .ok (condition, stop)) : stop = text.idxOf sampleMarker := by
  obtain ⟨-, tokens, hscan, -⟩ := readText_eq_ok_iff.mp h
  rw [stop_of_scan hscan]
  exact Nat.zero_add _

theorem Text.Suffix.ofText_within {text : List Char} {position : Nat}
    (h : position ≤ text.length) : (ofText text position).Within text :=
  ⟨h, rfl⟩

namespace Rule

theorem readText_error {text : List Char} {issue : Issue} (h : readText text = .error issue) :
    Condition.readText text = .error issue ∨
      (∃ result, Condition.readText text = .ok result) ∧ issue.PointsInto text ∧
        text.idxOf sampleMarker ≤ issue.position := by
  unfold readText at h
  cases hcondition : Condition.readText text with
  | error other =>
      rw [hcondition] at h
      cases h
      exact .inl rfl
  | ok result =>
      refine .inr ⟨⟨result, rfl⟩, ?_⟩
      have hstop : result.2 = text.idxOf sampleMarker := Condition.stop_of_readText hcondition
      simp only [hcondition, bind, Except.bind] at h
      cases hsamples : Sample.readAll (.ofText text result.2) with
      | error other =>
          rw [hsamples] at h
          cases h
          have hle : result.2 ≤ text.length := by
            rw [hstop]
            exact List.idxOf_le_length
          have hread := Sample.readAll_error (Suffix.ofText_within hle) hsamples
          exact ⟨hread.1, hstop ▸ hread.2⟩
      | ok samples =>
          rw [hsamples] at h
          cases h

theorem pointsInto_of_readText_error {text : List Char} {issue : Issue}
    (h : readText text = .error issue) : issue.PointsInto text := by
  rcases readText_error h with hcondition | ⟨-, hpoints, -⟩
  · exact Condition.pointsInto_of_readText_error hcondition
  · exact hpoints

end Rule

end PluralForms
