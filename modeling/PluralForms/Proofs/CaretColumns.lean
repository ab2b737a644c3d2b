import PluralForms.Proofs.Culprits
import PluralForms.Proofs.ReportLines

/-!
# Columns under the marks

A report echoes the rule escaped, while its marks are laid out by offsets in the rule as it is.  The
two agree as far as nothing has been escaped, that is up to the first unprintable character.  A rule
beyond the longest allowed one is echoed without the character that is one too many, so that nothing
stands over the mark of that character.
-/

namespace PluralForms

/-! ## Widths of escapes -/

namespace Text

theorem two_le_length_escapeCode (c : Char) : 2 ≤ (escapeCode c).length := by
  unfold escapeCode
  extract_lets n
  split_ifs <;> simp

theorem one_le_length_escapeChar (c : Char) : 1 ≤ (escapeChar c).length := by
  unfold escapeChar
  split
  · exact Nat.le_refl 1
  · exact Nat.le_of_succ_le (two_le_length_escapeCode c)

theorem length_escapeChar_le_one_iff {c : Char} :
    (escapeChar c).length ≤ 1 ↔ isPrintable c = true := by
  have hcode := two_le_length_escapeCode c
  unfold escapeChar
  split
  · next h => simp [h]
  · next h => exact ⟨fun hle => absurd hle (by omega), fun hprintable => absurd hprintable h⟩

theorem length_le_length_escapeChars (text : List Char) :
    text.length ≤ (escapeChars text).length := by
  induction text with
  | nil => exact Nat.le_refl 0
  | cons c rest ih =>
      have hc := one_le_length_escapeChar c
      rw [escapeChars_cons, List.length_append, List.length_cons]
      omega

/-- Only printable text keeps its width. -/
theorem length_escapeChars_le_iff {text : List Char} :
    (escapeChars text).length ≤ text.length ↔ ∀ c ∈ text, isPrintable c = true := by
  induction text with
  | nil => simp
  | cons c rest ih =>
      have hc := one_le_length_escapeChar c
      have hrest := length_le_length_escapeChars rest
      rw [List.forall_mem_cons, ← ih, ← length_escapeChar_le_one_iff, escapeChars_cons,
        List.length_append, List.length_cons]
      omega

/-- The first columns show the first characters if these are printable, and only then. -/
theorem take_escapeChars_iff {text : List Char} {count : Nat} (h : count ≤ text.length) :
    (escapeChars text).take count = escapeChars (text.take count) ↔
      ∀ c ∈ text.take count, isPrintable c = true := by
  have hlength : (text.take count).length = count := List.length_take_of_le h
  have hle := length_le_length_escapeChars (text.take count)
  have hfront : (escapeChars text).take count = (escapeChars (text.take count)).take count := by
    conv_lhs => rw [← List.take_append_drop count text, escapeChars_append]
    exact List.take_append_of_le_length (by omega)
  rw [hfront, List.take_eq_self_iff, ← length_escapeChars_le_iff, hlength]

/-- Behind printable text the columns begin where the offsets do. -/
theorem drop_escapeChars {text : List Char} {count : Nat} (h : count ≤ text.length)
    (hprintable : ∀ c ∈ text.take count, isPrintable c = true) :
    (escapeChars text).drop count = escapeChars (text.drop count) := by
  have hlength : (text.take count).length = count := List.length_take_of_le h
  have hwidth : (escapeChars (text.take count)).length = count := by
    have hle := length_le_length_escapeChars (text.take count)
    have hge := length_escapeChars_le_iff.mpr hprintable
    omega
  conv_lhs => rw [← List.take_append_drop count text, escapeChars_append]
  exact List.drop_left' hwidth

/-- The columns of a piece and of all in front of it show these characters if all of them are
printable, and only then. -/
theorem columns_escapeChars_iff {text : List Char} {start width : Nat}
    (h : start + width ≤ text.length) :
    ((escapeChars text).take start = escapeChars (text.take start) ∧
        ((escapeChars text).drop start).take width = escapeChars ((text.drop start).take width)) ↔
      ∀ c ∈ text.take (start + width), isPrintable c = true := by
  have hstart : start ≤ text.length := by omega
  have hwidth : width ≤ (text.drop start).length := by
    rw [List.length_drop]
    omega
  rw [List.take_add, List.forall_mem_append, take_escapeChars_iff hstart]
  refine and_congr_right fun hfront => ?_
  rw [drop_escapeChars hstart hfront, take_escapeChars_iff hwidth]

end Text

/-! ## Marked columns -/

namespace Style

open Text

def overMarks : (line marks : List Char) → List Char
  | c :: line, mark :: marks =>
      if mark = '^' then c :: overMarks line marks else overMarks line marks
  | _, _ => []

/-- What stands in a line to the left of all marks of the next one. -/
def leftOfMarks (line marks : List Char) : List Char :=
  line.take (marks.idxOf '^')

theorem overMarks_carets (line : List Char) (width : Nat) :
    overMarks line (List.replicate width '^') = line.take width := by
  induction width generalizing line with
  | zero => cases line <;> rfl
  | succ width ih =>
      cases line with
      | nil => rfl
      | cons c line =>
          rw [List.replicate_succ, overMarks, if_pos rfl, ih, List.take_succ_cons]

theorem overMarks_append {blanks : List Char} (h : '^' ∉ blanks) (line marks : List Char) :
    overMarks line (blanks ++ marks) = overMarks (line.drop blanks.length) marks := by
  induction blanks generalizing line with
  | nil => rfl
  | cons blank blanks ih =>
      cases line with
      | nil => cases marks <;> rfl
      | cons c line =>
          have hblank : blank ≠ '^' := (List.ne_of_not_mem_cons h).symm
          rw [List.cons_append, overMarks, if_neg hblank, ih (List.not_mem_of_not_mem_cons h)]
          rfl

theorem leftOfMarks_append {blanks : List Char} (h : '^' ∉ blanks) (line : List Char)
    (width : Nat) :
    leftOfMarks line (blanks ++ List.replicate (width + 1) '^') = line.take blanks.length := by
  rw [leftOfMarks, List.idxOf_append_of_notMem h, List.replicate_succ, List.idxOf_cons_self,
    Nat.add_zero]

def gutter : List Char := "   | ".toList

/-- The marks tell the piece of a span from what stands in front of it, both escaped. -/
structure MarksPiece (source : String) (span : Span) (line marks : List Char) : Prop where
  piece_eq : overMarks line marks = escapeChars (span.piece source)
  front_eq : leftOfMarks line marks = gutter ++ escapeChars (source.toList.take span.start)

def echo (text : List Char) : List Char :=
  gutter ++ escapeChars text

def marksFrom (start width : Nat) : List Char :=
  gutter ++ (List.replicate start ' ' ++ List.replicate width '^')

theorem overMarks_echo (text : List Char) (start width : Nat) :
    overMarks (echo text) (marksFrom start width) =
      ((escapeChars text).drop start).take width := by
  have hblank : '^' ∉ List.replicate start ' ' := by
    simp
  rw [echo, marksFrom, overMarks_append (by decide), List.drop_left, overMarks_append hblank,
    List.length_replicate, overMarks_carets]

theorem leftOfMarks_echo (text : List Char) (start width : Nat) :
    leftOfMarks (echo text) (marksFrom start (width + 1)) =
      gutter ++ (escapeChars text).take start := by
  have hblank : '^' ∉ gutter ++ List.replicate start ' ' := by
    rw [List.mem_append, not_or]
    exact ⟨by decide, by simp⟩
  rw [echo, marksFrom, ← List.append_assoc, leftOfMarks_append hblank, List.length_append,
    List.length_replicate, List.take_length_add_append]

end Style

/-! ## Reports of refusals -/

namespace RuleError

open Text Style

variable {source : String} {e : RuleError}

theorem span_of_quoted (h : e.problem.quoted ≠ []) :
    e.diagnostic.span =
      some (Diagnostic.pieceSpan e.position (String.ofList e.problem.quoted)) := by
  obtain ⟨⟨problem, position⟩, source⟩ := e
  cases problem with
  | unexpected found expected => rw [Problem.quoted, String.ofList_toList]; rfl
  | ended expected => exact absurd rfl h
  | unknownOperand name => rw [Problem.quoted, String.ofList_toList]; rfl
  | literal text fault => rw [Problem.quoted, String.ofList_toList]; rfl
  | tooLong next => rfl

theorem oneLine_helpUrl (e : RuleError) : ∀ url ∈ e.diagnostic.helpUrl, OneLine url := by
  have hrules : OneLine Diagnostic.rulesUrl := by
    decide
  have hoperands : OneLine Diagnostic.operandsUrl := by
    decide
  obtain ⟨⟨problem, position⟩, source⟩ := e
  intro url hurl
  cases problem with
  | unknownOperand name => exact Option.some.inj hurl ▸ hoperands
  | _ => exact Option.some.inj hurl ▸ hrules

theorem source_diagnostic (h : Rule.parse source = .error e) :
    e.diagnostic.source = some (String.ofList (source.toList.take maxRuleLength)) := by
  obtain ⟨-, hsource⟩ := Rule.parse_eq_error_iff.mp h
  rcases Nat.lt_or_ge maxRuleLength source.length with hlong | hle
  · obtain ⟨next, hparse⟩ := Rule.parse_tooLong hlong
    cases h.symm.trans hparse
    rfl
  · have hwhole : source.toList.take maxRuleLength = source.toList :=
      List.take_of_length_le (by rwa [String.length_toList])
    subst hsource
    rw [hwhole, String.ofList_toList]
    obtain ⟨⟨problem, position⟩, source⟩ := e
    cases problem with
    | tooLong next =>
        show some (String.ofList (source.toList.take maxRuleLength)) = some source
        rw [hwhole, String.ofList_toList]
    | _ => rfl

theorem quoted_of_parse (h : Rule.parse source = .error e) (hkind : e.kind ≠ .unexpectedEnd) :
    e.problem.quoted ≠ [] ∧ e.problem.quoted <+: source.toList.drop e.position := by
  have hpoints := Rule.pointsInto_of_readText_error (Rule.parse_eq_error_iff.mp h).1
  obtain ⟨⟨problem, position⟩, source⟩ := e
  cases hpoints with
  | ended => exact absurd rfl hkind
  | quoted hne hfront => exact ⟨hne, hfront⟩

/-- A refusal that is not for an end has a span of at least one character, which lies in the text
and, in a text that is too long, behind all that is allowed. -/
theorem exists_span (h : Rule.parse source = .error e) (hkind : e.kind ≠ .unexpectedEnd) :
    ∃ (span : Span) (width : Nat), e.diagnostic.span = some span ∧
      span.stop = span.start + (width + 1) ∧ span.stop ≤ source.length ∧
      (maxRuleLength < source.length → span.start = maxRuleLength) := by
  obtain ⟨hne, hfront⟩ := quoted_of_parse h hkind
  have hpos := List.length_pos_iff.mpr hne
  have hle := hfront.length_le
  rw [List.length_drop, String.length_toList] at hle
  have hstop : (Diagnostic.pieceSpan e.position (String.ofList e.problem.quoted)).stop =
      e.position + max 1 (String.ofList e.problem.quoted).length := rfl
  rw [String.length_ofList] at hstop
  refine ⟨_, e.problem.quoted.length - 1, span_of_quoted hne, ?_, by omega, ?_⟩
  · have hwidth : max 1 e.problem.quoted.length = e.problem.quoted.length - 1 + 1 := by
      omega
    rw [hstop, hwidth]
    rfl
  · intro hlong
    obtain ⟨next, hparse⟩ := Rule.parse_tooLong hlong
    cases h.symm.trans hparse
    rfl

end RuleError

namespace Style

open Text

variable {style : Style} {source : String} {e : RuleError} {span : Span}

/-- A report that is not sanitized echoes the rule in its third line and marks it in the fourth. -/
theorem lines_of_span {d : Diagnostic} (hlayout : style.layout = .report)
    (hsanitize : style.sanitize = false) (hurl : ∀ url ∈ d.helpUrl, OneLine url)
    (hspan : d.span = some span) {text : List Char}
    (hsource : d.source = some (String.ofList text)) :
    ((style.format d).toList.splitOn '\n')[2]? = some (echo text) ∧
      ((style.format d).toList.splitOn '\n')[3]? =
        some (marksFrom span.start (max 1 (span.stop - span.start))) := by
  have hplace : style.placeLines d =
      s!"  --> position {span.start}" :: echoLines (String.ofList text) span := by
    simp only [placeLines, hspan, hsource, hsanitize]
    rfl
  rw [lines_format hlayout hurl, reportLines, hplace, echoLines]
  simp only [List.cons_append, List.map_cons, List.getElem?_cons_succ, List.getElem?_cons_zero,
    String.toList_append, String.toList_ofList, columns, escape, echo, marksFrom, gutter,
    List.append_assoc, and_self]

theorem marksPiece_iff {text : List Char} {width : Nat}
    (hstop : span.stop = span.start + (width + 1)) :
    MarksPiece source span (echo text) (marksFrom span.start (width + 1)) ↔
      (escapeChars text).take span.start = escapeChars (source.toList.take span.start) ∧
        ((escapeChars text).drop span.start).take (width + 1) =
          escapeChars ((source.toList.drop span.start).take (width + 1)) := by
  have hpiece : span.piece source = (source.toList.drop span.start).take (width + 1) := by
    rw [Span.piece, hstop, List.drop_take, Nat.add_sub_cancel_left]
  constructor
  · rintro ⟨hover, hleft⟩
    rw [overMarks_echo, hpiece] at hover
    rw [leftOfMarks_echo] at hleft
    exact ⟨List.append_cancel_left hleft, hover⟩
  · rintro ⟨hleft, hover⟩
    refine ⟨?_, ?_⟩
    · rw [overMarks_echo, hpiece, hover]
    · rw [leftOfMarks_echo, hleft]

/-- Nothing is echoed over a mark behind all that is allowed. -/
theorem not_marksPiece_of_long {width : Nat} (hlong : maxRuleLength < source.length)
    (hstart : span.start = maxRuleLength) (hstop : span.stop = span.start + (width + 1)) :
    ¬MarksPiece source span (echo (source.toList.take maxRuleLength))
      (marksFrom span.start (width + 1)) := by
  rw [marksPiece_iff hstop, hstart]
  rintro ⟨hleft, hover⟩
  rw [List.take_eq_self_iff] at hleft
  rw [List.drop_eq_nil_iff.mpr hleft, List.take_nil] at hover
  have hlength := congrArg List.length hover
  have hle := length_le_length_escapeChars
    ((source.toList.drop maxRuleLength).take (width + 1))
  rw [← hlength, List.length_nil, List.length_take, List.length_drop, String.length_toList] at hle
  omega

/-- The marks in a report of a refusal that is not for an end tell the culprit from what stands in
front of it as long as no character has been escaped up to there, and none has been left out. -/
theorem marks_culprit_iff (hlayout : style.layout = .report) (hsanitize : style.sanitize = false)
    (hrefused : Condition.parse source = .error e ∨ Rule.parse source = .error e)
    (hkind : e.kind ≠ .unexpectedEnd) :
    ∃ span line marks, e.diagnostic.span = some span ∧ span.piece source ≠ [] ∧
      ((style.format e.diagnostic).toList.splitOn '\n')[2]? = some line ∧
      ((style.format e.diagnostic).toList.splitOn '\n')[3]? = some marks ∧
      line = echo (source.toList.take maxRuleLength) ∧
      marks = marksFrom span.start (span.stop - span.start) ∧
      (MarksPiece source span line marks ↔ source.length ≤ maxRuleLength ∧
        ∀ c ∈ source.toList.take span.stop, isPrintable c = true) := by
  have hparse : Rule.parse source = .error e := hrefused.elim Rule.parse_error_of_condition id
  obtain ⟨span, width, hspan, hstop, hle, hlong⟩ := RuleError.exists_span hparse hkind
  have hwidth : span.stop - span.start = width + 1 := by
    omega
  have hmax : max 1 (span.stop - span.start) = width + 1 := by
    omega
  obtain ⟨hline, hmarks⟩ := lines_of_span hlayout hsanitize (RuleError.oneLine_helpUrl e) hspan
    (RuleError.source_diagnostic hparse)
  rw [hmax] at hmarks
  refine ⟨span, _, _, hspan, ?_, hline, hmarks, rfl, by rw [hwidth], ?_⟩
  · rw [Span.piece, ← List.length_pos_iff, List.length_drop, List.length_take,
      String.length_toList]
    omega
  rcases Nat.lt_or_ge maxRuleLength source.length with hover | hfits
  · exact iff_of_false (not_marksPiece_of_long hover (hlong hover) hstop)
      fun h => absurd h.1 (by omega)
  · have hwhole : source.toList.take maxRuleLength = source.toList :=
      List.take_of_length_le (by rwa [String.length_toList])
    rw [hwhole, marksPiece_iff hstop, hstop, and_iff_right hfits]
    exact columns_escapeChars_iff (by rw [String.length_toList]; omega)

/-- A word behind a condition, with nothing to escape in front of it. -/
theorem marks_culprit_plain :
    ∃ e span line marks, Condition.parse "i = 1 x" = .error e ∧
      e.diagnostic.span = some span ∧
      ((({} : Style).format e.diagnostic).toList.splitOn '\n')[2]? = some line ∧
      ((({} : Style).format e.diagnostic).toList.splitOn '\n')[3]? = some marks ∧
      MarksPiece "i = 1 x" span line marks := by
  have hrefused : Condition.parse "i = 1 x" =
      .error ⟨⟨.unexpected "x" (some .continuation), 6⟩, "i = 1 x"⟩ := by
    decide +kernel
  have hlayout : ({} : Style).layout = .report := rfl
  obtain ⟨span, line, marks, hspan, -, hline, hmarks, -, -, hiff⟩ :=
    marks_culprit_iff hlayout rfl (.inl hrefused) (by decide)
  have hplain : "i = 1 x".toList.all isPrintable = true := by
    decide
  refine ⟨_, span, line, marks, hrefused, hspan, hline, hmarks, hiff.mpr ⟨by decide, ?_⟩⟩
  exact fun c hc => List.all_eq_true.mp hplain c (List.mem_of_mem_take hc)

/-- A word behind an escaped line end: the mark stands under the end of the escape. -/
theorem marks_miss_culprit :
    ∃ e span line marks, Condition.parse "n = 1\nx" = .error e ∧ e.kind = .unexpectedToken ∧
      e.diagnostic.span = some span ∧ span.piece "n = 1\nx" = ['x'] ∧
      ((({} : Style).format e.diagnostic).toList.splitOn '\n')[2]? = some line ∧
      ((({} : Style).format e.diagnostic).toList.splitOn '\n')[3]? = some marks ∧
      overMarks line marks = ['n'] ∧ ¬MarksPiece "n = 1\nx" span line marks := by
  have hrefused : Condition.parse "n = 1\nx" =
      .error ⟨⟨.unexpected "x" (some .continuation), 6⟩, "n = 1\nx"⟩ := by
    decide +kernel
  have hlayout : ({} : Style).layout = .report := rfl
  obtain ⟨hline, hmarks⟩ := lines_of_span hlayout rfl (RuleError.oneLine_helpUrl _) rfl
    (RuleError.source_diagnostic (Rule.parse_error_of_condition hrefused))
  have hover : overMarks (echo ("n = 1\nx".toList.take maxRuleLength)) (marksFrom 6 1) = ['n'] := by
    decide +kernel
  refine ⟨_, .ofLength 6 1, _, _, hrefused, rfl, rfl, by decide, hline, hmarks, hover, ?_⟩
  rintro ⟨hpiece, -⟩
  exact absurd (hover.symm.trans hpiece) (by decide)

end Style

end PluralForms
