import PluralForms.Proofs.Cutting
import PluralForms.Rule.Sample

/-!
# The grammar of samples

Samples are read from the characters themselves.  In the relations below every piece includes the
blanks behind it, so a reader that has taken a piece stands before something that is no blank.
-/

namespace PluralForms.Sample

open Text

/-! ## Productions -/

def Blanks (text : List Char) : Prop :=
  ∀ c ∈ text, isBlank c = true

theorem blanks_nil : Blanks [] := nofun

theorem blanks_space : Blanks [' '] := by
  simp [Blanks, isBlank]

theorem Blanks.append {s t : List Char} (hs : Blanks s) (ht : Blanks t) : Blanks (s ++ t) := by
  intro c hc
  rcases List.mem_append.mp hc with hc | hc
  · exact hs c hc
  · exact ht c hc

def Digits (text : List Char) : Prop :=
  text ≠ [] ∧ ∀ c ∈ text, isDigit c = true

inductive PartText (isMark : Char → Bool) : List Char → Prop where
  | absent : PartText isMark []
  | present {mark digits} (hmark : isMark mark = true) (hdigits : Digits digits) :
      PartText isMark (mark :: digits)

def isPoint (c : Char) : Bool := c == '.'

/-- Digits, at will a point and digits, at will an exponent mark and digits. -/
inductive ValueText : List Char → Prop where
  | intro {whole fraction exponent} (hwhole : Digits whole) (hfraction : PartText isPoint fraction)
      (hexponent : PartText isExponentMark exponent) : ValueText (whole ++ (fraction ++ exponent))

inductive RangeText : List Char → SampleRange → Prop where
  | single {value blanks} (hvalue : ValueText value) (hblanks : Blanks blanks) :
      RangeText (value ++ blanks) (.single (String.ofList value))
  | pair {lower upper before after blanks} (hlower : ValueText lower) (hupper : ValueText upper)
      (hbefore : Blanks before) (hafter : Blanks after) (hblanks : Blanks blanks) :
      RangeText (lower ++ (before ++ '~' :: (after ++ (upper ++ blanks))))
        ⟨String.ofList lower, String.ofList upper⟩

inductive EllipsisText : List Char → Prop where
  | one : EllipsisText ['…']
  | three : EllipsisText ['.', '.', '.']

/-- What follows a first range: ranges after commas, and at will a comma and the ellipsis. -/
inductive MoreText : List Char → SampleList → Prop where
  | none : MoreText [] ⟨[], false⟩
  | ellipsis {before dots after} (hbefore : Blanks before) (hdots : EllipsisText dots)
      (hafter : Blanks after) : MoreText (',' :: (before ++ (dots ++ after))) ⟨[], true⟩
  | range {before text range rest more} (hbefore : Blanks before) (hrange : RangeText text range)
      (hmore : MoreText rest more) :
      MoreText (',' :: (before ++ (text ++ rest))) ⟨range :: more.ranges, more.openEnded⟩

inductive ListText : List Char → SampleList → Prop where
  | intro {before text range rest more} (hbefore : Blanks before) (hrange : RangeText text range)
      (hmore : MoreText rest more) :
      ListText (before ++ (text ++ rest)) ⟨range :: more.ranges, more.openEnded⟩

/-- The marker, a keyword and a list, or nothing. -/
inductive AnnotationText (name : List Char) : List Char → Option SampleList → Prop where
  | absent : AnnotationText name [] .none
  | present {text samples} (hlist : ListText text samples) :
      AnnotationText name ('@' :: (name ++ text)) (some samples)

/-- The samples of a rule: integers, then decimals. -/
inductive SamplesText : List Char → Samples → Prop where
  | intro {before first second integer decimal} (hbefore : Blanks before)
      (hinteger : AnnotationText "integer".toList first integer)
      (hdecimal : AnnotationText "decimal".toList second decimal) :
      SamplesText (before ++ (first ++ second)) { integer, decimal }

/-! ## Suffixes -/

theorem skipBlanks_sound (s : Suffix) :
    ∃ blanks, Blanks blanks ∧ s.chars = blanks ++ s.skipBlanks.chars := by
  refine ⟨s.chars.takeWhile isBlank, ?_, ?_⟩
  · exact fun c hc => List.all_eq_true.mp List.all_takeWhile c hc
  · exact List.takeWhile_append_dropWhile.symm

theorem ahead_skipBlanks (s : Suffix) : Ahead (fun c => isBlank c = false) s.skipBlanks.chars :=
  ahead_dropWhile isBlank s.chars

theorem skipBlanks_complete {s : Suffix} {blanks rest : List Char} (hs : s.chars = blanks ++ rest)
    (hblanks : Blanks blanks) (hrest : Ahead (fun c => isBlank c = false) rest) :
    s.skipBlanks.chars = rest := by
  simp only [Suffix.skipBlanks, Suffix.dropRun, hs]
  exact dropWhile_run hblanks hrest

theorem drop_chars {s : Suffix} {c : Char} {rest : List Char} (hs : s.chars = c :: rest) :
    (s.drop 1).chars = rest := by
  simp [Suffix.drop, hs]

/-! ## Values -/

theorem readDigits_sound {s after : Suffix} {digits : List Char}
    (h : readDigits s = .ok (digits, after)) : s.chars = digits ++ after.chars ∧ Digits digits := by
  unfold readDigits at h
  split at h
  · cases h
  · rename_i digit tail hrun
    cases h
    have happend := List.takeWhile_append_dropWhile (p := isDigit) (l := s.chars)
    rw [hrun] at happend
    refine ⟨happend.symm, by simp, ?_⟩
    intro c hc
    rw [← hrun] at hc
    exact List.all_eq_true.mp List.all_takeWhile c hc

theorem readDigits_complete {s : Suffix} {digits rest : List Char} (hs : s.chars = digits ++ rest)
    (hdigits : Digits digits) (hrest : Ahead (fun c => isDigit c = false) rest) :
    ∃ after, readDigits s = .ok (digits, after) ∧ after.chars = rest := by
  rcases hdigits with ⟨hne, hall⟩
  have htake : s.chars.takeWhile isDigit = digits := by
    rw [hs]
    exact takeWhile_run hall hrest
  have hdrop : s.chars.dropWhile isDigit = rest := by
    rw [hs]
    exact dropWhile_run hall hrest
  obtain ⟨digit, tail, rfl⟩ := List.exists_cons_of_ne_nil hne
  refine ⟨s.dropRun isDigit, ?_, hdrop⟩
  simp only [readDigits, htake]

theorem readPart_sound {isMark : Char → Bool} {s after : Suffix} {part : List Char}
    (h : readPart isMark s = .ok (part, after)) :
    s.chars = part ++ after.chars ∧ PartText isMark part := by
  unfold readPart at h
  split at h
  · cases h
    exact ⟨rfl, .absent⟩
  · rename_i c tail hs
    split at h
    · rename_i hmark
      obtain ⟨⟨digits, last⟩, hdigits, hresult⟩ := ok_of_bind_eq_ok h
      cases hresult
      obtain ⟨hchars, hall⟩ := readDigits_sound hdigits
      rw [drop_chars hs] at hchars
      exact ⟨by rw [hs, hchars, List.cons_append], .present hmark hall⟩
    · cases h
      exact ⟨rfl, .absent⟩

theorem readPart_complete {isMark : Char → Bool} {s : Suffix} {part rest : List Char}
    (hs : s.chars = part ++ rest) (hpart : PartText isMark part)
    (hrest : Ahead (fun c => isDigit c = false ∧ isMark c = false) rest) :
    ∃ after, readPart isMark s = .ok (part, after) ∧ after.chars = rest := by
  cases hpart with
  | absent =>
      refine ⟨s, ?_, hs⟩
      unfold readPart
      split
      · rfl
      · rename_i c tail hc
        rw [hc, List.nil_append] at hs
        have hmark := (hrest c (by rw [← hs]; rfl)).2
        simp [hmark]
  | present hmark hdigits =>
      rename_i mark digits
      obtain ⟨after, hread, hafter⟩ := readDigits_complete (drop_chars hs) hdigits
        (hrest.mono fun _ h => h.1)
      refine ⟨after, ?_, hafter⟩
      unfold readPart
      rw [hs]
      simp only [List.cons_append, hmark, if_true, hread, bind, Except.bind]
      rfl

def continuesValue (c : Char) : Bool := isDigit c || isPoint c || isExponentMark c

theorem not_isDigit_of_isPoint {c : Char} (h : isPoint c = true) : isDigit c = false := by
  rw [eq_of_beq h]
  decide

theorem not_of_isExponentMark {c : Char} (h : isExponentMark c = true) :
    isDigit c = false ∧ isPoint c = false := by
  rcases Bool.or_eq_true_iff.mp h with h | h <;> rw [eq_of_beq h] <;> decide

theorem PartText.ahead {isMark : Char → Bool} {part : List Char} (h : PartText isMark part)
    {p : Char → Prop} (hmark : ∀ c, isMark c = true → p c) {rest : List Char}
    (hrest : Ahead p rest) : Ahead p (part ++ rest) := by
  cases h with
  | absent => exact hrest
  | present hfirst hdigits => exact ahead_cons.mpr (hmark _ hfirst)

theorem readValue_sound {s after : Suffix} {value : String}
    (h : readValue s = .ok (value, after)) :
    ∃ text, s.chars = text ++ after.chars ∧ ValueText text ∧ value = String.ofList text := by
  obtain ⟨⟨whole, s1⟩, hwhole, h⟩ := ok_of_bind_eq_ok h
  obtain ⟨⟨fraction, s2⟩, hfraction, h⟩ := ok_of_bind_eq_ok h
  obtain ⟨⟨exponent, s3⟩, hexponent, h⟩ := ok_of_bind_eq_ok h
  cases h
  obtain ⟨hs, hdigits⟩ := readDigits_sound hwhole
  obtain ⟨hs1, hpart1⟩ := readPart_sound hfraction
  obtain ⟨hs2, hpart2⟩ := readPart_sound hexponent
  refine ⟨whole ++ (fraction ++ exponent), ?_, .intro hdigits hpart1 hpart2, ?_⟩
  · rw [hs, hs1, hs2, List.append_assoc, List.append_assoc]
  · rw [List.append_assoc]

theorem readValue_complete {s : Suffix} {text rest : List Char} (hs : s.chars = text ++ rest)
    (htext : ValueText text) (hrest : Ahead (fun c => continuesValue c = false) rest) :
    ∃ after, readValue s = .ok (String.ofList text, after) ∧ after.chars = rest := by
  cases htext with
  | @intro whole fraction exponent hwhole hfraction hexponent =>
      have hrest : Ahead (fun c => isDigit c = false ∧ isPoint c = false ∧
          isExponentMark c = false) rest := by
        refine hrest.mono fun c hc => ?_
        simpa [continuesValue, and_assoc] using hc
      have hexponentAhead : Ahead (fun c => isDigit c = false ∧ isPoint c = false)
          (exponent ++ rest) :=
        hexponent.ahead (fun _ => not_of_isExponentMark) (hrest.mono fun _ h => ⟨h.1, h.2.1⟩)
      have hfractionAhead : Ahead (fun c => isDigit c = false) (fraction ++ (exponent ++ rest)) :=
        hfraction.ahead (fun _ => not_isDigit_of_isPoint) (hexponentAhead.mono fun _ h => h.1)
      have hchars : s.chars = whole ++ (fraction ++ (exponent ++ rest)) := by
        rw [hs, List.append_assoc, List.append_assoc]
      obtain ⟨s1, hread1, hs1⟩ := readDigits_complete hchars hwhole hfractionAhead
      obtain ⟨s2, hread2, hs2⟩ := readPart_complete hs1 hfraction hexponentAhead
      obtain ⟨s3, hread3, hs3⟩ := readPart_complete hs2 hexponent
        (hrest.mono fun _ h => ⟨h.1, h.2.2⟩)
      refine ⟨s3, ?_, hs3⟩
      have hread2 : readPart (· == '.') s1 = .ok (fraction, s2) := hread2
      simp only [readValue, bind, Except.bind, hread1, hread2, hread3, List.append_assoc]
      rfl

def isValue (text : List Char) : Bool :=
  match readValue ⟨0, text⟩ with
  | .ok (_, after) => after.chars.isEmpty
  | .error _ => false

theorem isValue_iff {text : List Char} : isValue text = true ↔ ValueText text := by
  constructor
  · intro h
    unfold isValue at h
    split at h
    · rename_i value after hread
      obtain ⟨found, htext, hfound, -⟩ := readValue_sound hread
      rw [List.isEmpty_iff.mp h, List.append_nil] at htext
      have hsame : text = found := htext
      rw [hsame]
      exact hfound
    · cases h
  · intro h
    have htext : (Suffix.mk 0 text).chars = text ++ [] := (List.append_nil text).symm
    obtain ⟨after, hread, hafter⟩ := readValue_complete htext h (ahead_nil _)
    simp only [isValue, hread, hafter, List.isEmpty_nil]

instance (text : List Char) : Decidable (ValueText text) :=
  decidable_of_iff _ isValue_iff

/-! ## Ranges -/

def continuesRange (c : Char) : Bool := isBlank c || c == '~' || continuesValue c

theorem ahead_blank_of_range {rest : List Char}
    (h : Ahead (fun c => continuesRange c = false) rest) :
    Ahead (fun c => isBlank c = false) rest := by
  refine h.mono fun c hc => ?_
  simp only [continuesRange, Bool.or_eq_false_iff] at hc
  exact hc.1.1

theorem ValueText.exists_cons {text : List Char} (h : ValueText text) :
    ∃ c tail, text = c :: tail ∧ isDigit c = true := by
  cases h with
  | intro hwhole hfraction hexponent =>
      rcases hwhole with ⟨hne, hall⟩
      obtain ⟨c, tail, rfl⟩ := List.exists_cons_of_ne_nil hne
      exact ⟨c, tail ++ (_ ++ _), rfl, hall c List.mem_cons_self⟩

theorem ValueText.ahead {text : List Char} (h : ValueText text) (rest : List Char) :
    Ahead (fun c => isBlank c = false) (text ++ rest) := by
  rcases h.exists_cons with ⟨c, tail, rfl, hdigit⟩
  exact ahead_cons.mpr (isBlank_of_isDigit hdigit)

theorem RangeText.ahead {text : List Char} {range : SampleRange} (h : RangeText text range)
    (rest : List Char) : Ahead (fun c => isBlank c = false) (text ++ rest) := by
  cases h with
  | single hvalue hblanks =>
      rw [List.append_assoc]
      exact hvalue.ahead _
  | pair hlower hupper hbefore hafter hblanks =>
      rw [List.append_assoc]
      exact hlower.ahead _

theorem continuesValue_of_isBlank {c : Char} (h : isBlank c = true) : continuesValue c = false := by
  simp only [isBlank, Bool.or_eq_true, beq_iff_eq] at h
  rcases h with ((rfl | rfl) | rfl) | rfl <;> decide

theorem Blanks.ahead {blanks : List Char} (h : Blanks blanks) {rest : List Char}
    (hrest : Ahead (fun c => continuesValue c = false) rest) :
    Ahead (fun c => continuesValue c = false) (blanks ++ rest) := by
  refine Ahead.append ?_ hrest
  intro c hc
  exact continuesValue_of_isBlank (h c (List.mem_of_mem_head? hc))

theorem readRange_sound {s after : Suffix} {range : SampleRange}
    (h : readRange s = .ok (range, after)) :
    ∃ text, s.chars = text ++ after.chars ∧ RangeText text range ∧
      Ahead (fun c => isBlank c = false) after.chars := by
  obtain ⟨⟨lower, s1⟩, hlower, h⟩ := ok_of_bind_eq_ok h
  obtain ⟨text, hs, htext, rfl⟩ := readValue_sound hlower
  obtain ⟨before, hbefore, hs1⟩ := skipBlanks_sound s1
  dsimp only at h
  split at h
  · rename_i tail htilde
    obtain ⟨⟨upper, s2⟩, hupper, h⟩ := ok_of_bind_eq_ok h
    cases h
    obtain ⟨upperText, hs2, hupperText, rfl⟩ := readValue_sound hupper
    obtain ⟨between, hbetween, hdropped⟩ := skipBlanks_sound (s1.skipBlanks.drop 1)
    obtain ⟨blanks, hblanks, hlast⟩ := skipBlanks_sound s2
    rw [drop_chars htilde] at hdropped
    refine ⟨_, ?_, .pair htext hupperText hbefore hbetween hblanks, ahead_skipBlanks s2⟩
    rw [hs, hs1, htilde, hdropped, hs2, hlast]
    simp only [List.append_assoc, List.cons_append]
  · cases h
    refine ⟨text ++ before, ?_, .single htext hbefore, ahead_skipBlanks s1⟩
    rw [hs, hs1, List.append_assoc]

theorem readRange_complete {s : Suffix} {text rest : List Char} {range : SampleRange}
    (hs : s.chars = text ++ rest) (htext : RangeText text range)
    (hrest : Ahead (fun c => continuesRange c = false) rest) :
    ∃ after, readRange s = .ok (range, after) ∧ after.chars = rest := by
  have hblank := ahead_blank_of_range hrest
  have hvalue : Ahead (fun c => continuesValue c = false) rest := by
    refine hrest.mono fun c hc => ?_
    simp only [continuesRange, Bool.or_eq_false_iff] at hc
    exact hc.2
  cases htext with
  | @single value blanks hlower hblanks =>
      rw [List.append_assoc] at hs
      obtain ⟨s1, hread1, hs1⟩ := readValue_complete hs hlower (hblanks.ahead hvalue)
      have hskip := skipBlanks_complete hs1 hblanks hblank
      refine ⟨s1.skipBlanks, ?_, hskip⟩
      simp only [readRange, bind, Except.bind, hread1]
      split
      · rename_i tail htilde
        rw [hskip] at htilde
        have htildeAhead := hrest '~' (by rw [htilde]; rfl)
        exact absurd htildeAhead (by decide)
      · rfl
  | @pair lower upper before between blanks hlower hupper hbefore hbetween hblanks =>
      simp only [List.append_assoc, List.cons_append] at hs
      obtain ⟨s1, hread1, hs1⟩ := readValue_complete hs hlower
        (hbefore.ahead (ahead_cons.mpr (by decide)))
      have hskip1 := skipBlanks_complete hs1 hbefore (ahead_cons.mpr (by decide))
      have hskip2 := skipBlanks_complete (drop_chars hskip1) hbetween (hupper.ahead _)
      obtain ⟨s2, hread2, hs2⟩ := readValue_complete hskip2 hupper (hblanks.ahead hvalue)
      refine ⟨s2.skipBlanks, ?_, skipBlanks_complete hs2 hblanks hblank⟩
      simp only [readRange, bind, Except.bind, hread1, hskip1, hread2]
      rfl

/-! ## Lists -/

theorem ellipsis?_sound {s after : Suffix} (h : ellipsis? s = some after) :
    ∃ dots, EllipsisText dots ∧ s.chars = dots ++ after.chars := by
  unfold ellipsis? at h
  split at h
  · rename_i tail hs
    cases h
    refine ⟨['…'], .one, ?_⟩
    simp [Suffix.drop, hs]
  · rename_i tail hs
    cases h
    refine ⟨['.', '.', '.'], .three, ?_⟩
    simp [Suffix.drop, hs]
  · cases h

theorem ellipsis?_complete {s : Suffix} {dots rest : List Char} (hs : s.chars = dots ++ rest)
    (hdots : EllipsisText dots) : ∃ after, ellipsis? s = some after ∧ after.chars = rest := by
  cases hdots with
  | one => exact ⟨s.drop 1, by simp [ellipsis?, hs], by simp [Suffix.drop, hs]⟩
  | three => exact ⟨s.drop 3, by simp [ellipsis?, hs], by simp [Suffix.drop, hs]⟩

theorem ellipsis?_of_digit {s : Suffix} {c : Char} {tail : List Char} (hs : s.chars = c :: tail)
    (hdigit : isDigit c = true) : ellipsis? s = none := by
  unfold ellipsis?
  split
  · rename_i hchars
    rw [hs] at hchars
    cases hchars
    exact absurd hdigit (by decide)
  · rename_i hchars
    rw [hs] at hchars
    cases hchars
    exact absurd hdigit (by decide)
  · rfl

theorem EllipsisText.ahead {dots : List Char} (h : EllipsisText dots) (rest : List Char) :
    Ahead (fun c => isBlank c = false) (dots ++ rest) := by
  cases h <;> exact ahead_cons.mpr (by decide)

theorem RangeText.exists_cons {text : List Char} {range : SampleRange} (h : RangeText text range) :
    ∃ c tail, text = c :: tail ∧ isDigit c = true := by
  cases h with
  | single hvalue hblanks =>
      rcases hvalue.exists_cons with ⟨c, tail, rfl, hdigit⟩
      exact ⟨c, tail ++ _, rfl, hdigit⟩
  | pair hlower hupper hbefore hafter hblanks =>
      rcases hlower.exists_cons with ⟨c, tail, rfl, hdigit⟩
      exact ⟨c, tail ++ _, rfl, hdigit⟩

def continuesList (c : Char) : Bool := c == ',' || continuesRange c

theorem ahead_range_of_list {rest : List Char}
    (h : Ahead (fun c => continuesList c = false) rest) :
    Ahead (fun c => continuesRange c = false) rest := by
  refine h.mono fun c hc => ?_
  simp only [continuesList, Bool.or_eq_false_iff] at hc
  exact hc.2

theorem MoreText.ahead {text : List Char} {more : SampleList} (h : MoreText text more)
    {rest : List Char} (hrest : Ahead (fun c => continuesList c = false) rest) :
    Ahead (fun c => continuesRange c = false) (text ++ rest) := by
  cases h with
  | none => exact ahead_range_of_list hrest
  | ellipsis hbefore hdots hafter => exact ahead_cons.mpr (by decide)
  | range hbefore hrange hmore => exact ahead_cons.mpr (by decide)

theorem readMore_sound {s after : Suffix} {more : SampleList} (h : readMore s = .ok (more, after))
    (hs : Ahead (fun c => isBlank c = false) s.chars) :
    ∃ text, s.chars = text ++ after.skipBlanks.chars ∧ MoreText text more := by
  fun_induction readMore s generalizing more after with
  | case1 s tail hcomma rest hdots =>
      cases h
      obtain ⟨before, hbefore, hskip⟩ := skipBlanks_sound (s.drop 1)
      obtain ⟨dots, hellipsis, hchars⟩ := ellipsis?_sound hdots
      obtain ⟨blanks, hblanks, hlast⟩ := skipBlanks_sound rest
      rw [drop_chars hcomma] at hskip
      refine ⟨_, ?_, .ellipsis hbefore hellipsis hblanks⟩
      rw [hcomma, hskip, hchars, hlast]
      simp only [List.append_assoc, List.cons_append]
  | case2 => cases h
  | case3 => cases h
  | case4 s tail hcomma hdots range rest hrange more' last hmore ih =>
      cases h
      obtain ⟨before, hbefore, hskip⟩ := skipBlanks_sound (s.drop 1)
      obtain ⟨text, hchars, hrangeText, hahead⟩ := readRange_sound hrange
      obtain ⟨moreText, hrest, hmoreText⟩ := ih hmore hahead
      rw [drop_chars hcomma] at hskip
      refine ⟨_, ?_, .range hbefore hrangeText hmoreText⟩
      rw [hcomma, hskip, hchars, hrest]
      simp only [List.append_assoc, List.cons_append]
  | case5 s hcomma =>
      cases h
      refine ⟨[], ?_, .none⟩
      rw [List.nil_append, skipBlanks_complete (List.nil_append s.chars).symm nofun hs]

theorem readMore_complete {text rest : List Char} {more : SampleList} (htext : MoreText text more)
    (hrest : Ahead (fun c => continuesList c = false) rest) {s : Suffix}
    (hs : s.chars = text ++ rest) :
    ∃ after, readMore s = .ok (more, after) ∧ after.skipBlanks.chars = rest := by
  have hblank := ahead_blank_of_range (ahead_range_of_list hrest)
  induction htext generalizing s with
  | none =>
      refine ⟨s, ?_, skipBlanks_complete hs nofun hblank⟩
      unfold readMore
      split
      · rename_i tail hcomma
        rw [hs, List.nil_append] at hcomma
        have hcommaAhead := hrest ',' (by rw [hcomma]; rfl)
        exact absurd hcommaAhead (by decide)
      · rfl
  | ellipsis hbefore hdots hafter =>
      simp only [List.append_assoc, List.cons_append] at hs
      have hskip := skipBlanks_complete (drop_chars hs) hbefore (hdots.ahead _)
      obtain ⟨after, hellipsis, hafterChars⟩ := ellipsis?_complete hskip hdots
      refine ⟨after, ?_, skipBlanks_complete hafterChars hafter hblank⟩
      unfold readMore
      simp only [hs, hellipsis]
  | @range before first range others more hbefore hrange hmore ih =>
      simp only [List.append_assoc, List.cons_append] at hs
      have hskip := skipBlanks_complete (drop_chars hs) hbefore (hrange.ahead _)
      -- A range begins with a digit, so it is not taken for the ellipsis.
      rcases hrange.exists_cons with ⟨c, tail, rfl, hdigit⟩
      have hellipsis : ellipsis? (s.drop 1).skipBlanks = none :=
        ellipsis?_of_digit hskip hdigit
      obtain ⟨s1, hread, hs1⟩ := readRange_complete hskip hrange (hmore.ahead hrest)
      obtain ⟨after, hreadMore, hafter⟩ := ih hs1
      refine ⟨after, ?_, hafter⟩
      unfold readMore
      simp only [hs, hellipsis]
      split
      · rename_i issue hissue
        rw [hread] at hissue
        cases hissue
      · rename_i range' s1' hrange'
        rw [hread] at hrange'
        cases hrange'
        simp only [hreadMore]

theorem readList_sound {s after : Suffix} {samples : SampleList}
    (h : readList s = .ok (samples, after)) :
    ∃ text, s.chars = text ++ after.skipBlanks.chars ∧ ListText text samples := by
  obtain ⟨⟨range, s1⟩, hrange, h⟩ := ok_of_bind_eq_ok h
  obtain ⟨⟨more, s2⟩, hmore, h⟩ := ok_of_bind_eq_ok h
  cases h
  obtain ⟨before, hbefore, hs⟩ := skipBlanks_sound s
  obtain ⟨text, hchars, htext, hahead⟩ := readRange_sound hrange
  obtain ⟨others, hs1, hothers⟩ := readMore_sound hmore hahead
  refine ⟨_, ?_, .intro hbefore htext hothers⟩
  rw [hs, hchars, hs1, List.append_assoc, List.append_assoc]

theorem readList_complete {s : Suffix} {text rest : List Char} {samples : SampleList}
    (hs : s.chars = text ++ rest) (htext : ListText text samples)
    (hrest : Ahead (fun c => continuesList c = false) rest) :
    ∃ after, readList s = .ok (samples, after) ∧ after.skipBlanks.chars = rest := by
  cases htext with
  | @intro before first range others more hbefore hrange hmore =>
      rw [List.append_assoc, List.append_assoc] at hs
      have hskip := skipBlanks_complete hs hbefore (hrange.ahead _)
      obtain ⟨s1, hread1, hs1⟩ := readRange_complete hskip hrange (hmore.ahead hrest)
      obtain ⟨s2, hread2, hs2⟩ := readMore_complete hmore hrest hs1
      refine ⟨s2, ?_, hs2⟩
      simp only [readList, bind, Except.bind, hread1, hread2]
      rfl

/-! ## Annotations -/

theorem ListText.ahead {text : List Char} {samples : SampleList} (h : ListText text samples)
    (rest : List Char) : Ahead (fun c => isLetter c = false) (text ++ rest) := by
  have hletter : ∀ c, isBlank c = true ∨ isDigit c = true → isLetter c = false := by
    intro c hc
    cases hl : isLetter c with
    | false => rfl
    | true =>
        have hblank := isBlank_of_isLetter hl
        have hdigit := isDigit_of_isLetter hl
        simp [hblank, hdigit] at hc
  cases h with
  | @intro before first range others more hbefore hrange hmore =>
      rcases hrange.exists_cons with ⟨c, tail, rfl, hdigit⟩
      cases before with
      | nil => exact ahead_cons.mpr (hletter c (.inr hdigit))
      | cons b blanks => exact ahead_cons.mpr (hletter b (.inl (hbefore b List.mem_cons_self)))

theorem keyword_of_run {s : Suffix} {name rest : List Char} (hs : s.chars = '@' :: (name ++ rest))
    (hname : ∀ c ∈ name, isLetter c = true) (hrest : Ahead (fun c => isLetter c = false) rest) :
    keyword s = name := by
  simp only [keyword, hs]
  exact takeWhile_run hname hrest

theorem keyword_of_nil {s : Suffix} (hs : s.chars = []) : keyword s = [] := by
  simp only [keyword, hs]

theorem readAnnotation_sound {name : String} {s after : Suffix} {samples : Option SampleList}
    (hname : name.toList ≠ []) (hs : Ahead (fun c => isBlank c = false) s.chars)
    (h : readAnnotation name s = .ok (samples, after)) :
    ∃ text, s.chars = text ++ after.chars ∧ AnnotationText name.toList text samples ∧
      Ahead (fun c => isBlank c = false) after.chars := by
  unfold readAnnotation at h
  split at h
  · rename_i hkeyword
    obtain ⟨⟨list, s1⟩, hlist, h⟩ := ok_of_bind_eq_ok h
    cases h
    obtain ⟨text, hchars, htext⟩ := readList_sound hlist
    unfold keyword at hkeyword
    split at hkeyword
    · rename_i tail hmarker
      have hsplit : s.chars = '@' :: (name.toList ++ (text ++ s1.skipBlanks.chars)) := by
        rw [← hchars, hmarker, ← hkeyword]
        simp only [Suffix.dropRun, drop_chars hmarker, List.takeWhile_append_dropWhile]
      refine ⟨'@' :: (name.toList ++ text), ?_, .present htext, ahead_skipBlanks s1⟩
      rw [hsplit, List.cons_append, List.append_assoc]
    · exact absurd hkeyword.symm hname
  · cases h
    exact ⟨[], rfl, .absent, hs⟩

theorem readAnnotation_complete {name : String} {s : Suffix} {text rest : List Char}
    {samples : Option SampleList} (htext : AnnotationText name.toList text samples)
    (hs : s.chars = text ++ rest) (hname : name.toList.all isLetter = true)
    (habsent : samples = none → keyword s ≠ name.toList)
    (hrest : Ahead (fun c => continuesList c = false) rest) :
    ∃ after, readAnnotation name s = .ok (samples, after) ∧ after.chars = rest := by
  cases htext with
  | absent =>
      refine ⟨s, ?_, hs⟩
      unfold readAnnotation
      rw [if_neg (habsent rfl)]
  | @present text samples hlist =>
      rw [List.cons_append, List.append_assoc] at hs
      have hname := List.all_eq_true.mp hname
      have hkeyword := keyword_of_run hs hname (hlist.ahead rest)
      have hchars : ((s.drop 1).dropRun isLetter).chars = text ++ rest := by
        simp only [Suffix.dropRun, drop_chars hs]
        exact dropWhile_run hname (hlist.ahead rest)
      obtain ⟨after, hread, hafter⟩ := readList_complete hchars hlist hrest
      refine ⟨after.skipBlanks, ?_, hafter⟩
      unfold readAnnotation
      simp only [if_pos hkeyword, bind, Except.bind, hread]
      rfl

/-- An annotation begins with its marker, so no list goes on with it. -/
theorem AnnotationText.ahead {name text : List Char} {samples : Option SampleList}
    (h : AnnotationText name text samples) {p : Char → Prop} (hmarker : p '@') {rest : List Char}
    (hrest : Ahead p rest) : Ahead p (text ++ rest) := by
  cases h with
  | absent => exact hrest
  | present hlist => exact ahead_cons.mpr hmarker

theorem AnnotationText.keyword_ne {name other : List Char} {s : Suffix}
    {samples : Option SampleList} (h : AnnotationText name s.chars samples)
    (hname : name.all isLetter = true) (hother : other ≠ name) (hne : other ≠ []) :
    keyword s ≠ other := by
  generalize hs : s.chars = text at h
  cases h with
  | absent =>
      rw [keyword_of_nil hs]
      exact hne.symm
  | @present text samples hlist =>
      rw [← List.append_nil text] at hs
      rw [keyword_of_run hs (List.all_eq_true.mp hname) (hlist.ahead [])]
      exact hother.symm

theorem readAll_sound {s : Suffix} {samples : Samples} (h : readAll s = .ok samples) :
    SamplesText s.chars samples := by
  obtain ⟨⟨integer, s1⟩, hinteger, h⟩ := ok_of_bind_eq_ok h
  obtain ⟨⟨decimal, s2⟩, hdecimal, h⟩ := ok_of_bind_eq_ok h
  obtain ⟨before, hbefore, hs⟩ := skipBlanks_sound s
  obtain ⟨first, hfirst, hfirstText, hahead⟩ :=
    readAnnotation_sound (by decide) (ahead_skipBlanks s) hinteger
  obtain ⟨second, hsecond, hsecondText, -⟩ := readAnnotation_sound (by decide) hahead hdecimal
  dsimp only at h
  split at h
  · rename_i hnil
    cases h
    rw [hs, hfirst, hsecond, hnil, List.append_nil]
    exact .intro hbefore hfirstText hsecondText
  · cases h

theorem readAll_complete {s : Suffix} {samples : Samples} (h : SamplesText s.chars samples) :
    readAll s = .ok samples := by
  generalize hs : s.chars = text at h
  cases h with
  | @intro before first second integer decimal hbefore hinteger hdecimal =>
      have hstart : Ahead (fun c => isBlank c = false) (first ++ second) := by
        refine hinteger.ahead (by decide) ?_
        rw [← List.append_nil second]
        exact hdecimal.ahead (by decide) (ahead_nil _)
      have hsecond : Ahead (fun c => continuesList c = false) (second ++ []) :=
        hdecimal.ahead (by decide) (ahead_nil _)
      rw [List.append_nil] at hsecond
      have hskip := skipBlanks_complete hs hbefore hstart
      -- Without integers the next keyword is that of the decimals, or there is none.
      have habsent : integer = none → keyword s.skipBlanks ≠ "integer".toList := by
        rintro rfl
        cases hinteger with
        | absent =>
            rw [List.nil_append] at hskip
            rw [← hskip] at hdecimal
            exact hdecimal.keyword_ne (by decide) (by decide) (by decide)
      obtain ⟨s1, hread1, hs1⟩ := readAnnotation_complete hinteger hskip (by decide) habsent hsecond
      have habsent : decimal = none → keyword s1 ≠ "decimal".toList := by
        rintro rfl
        cases hdecimal with
        | absent =>
            rw [keyword_of_nil hs1]
            decide
      rw [← List.append_nil second] at hs1
      obtain ⟨s2, hread2, hs2⟩ :=
        readAnnotation_complete hdecimal hs1 (by decide) habsent (ahead_nil _)
      simp only [readAll, bind, Except.bind, hread1, hread2, hs2]

/-- Samples are read just where the grammar allows them. -/
theorem readAll_eq_ok_iff {s : Suffix} {samples : Samples} :
    readAll s = .ok samples ↔ SamplesText s.chars samples :=
  ⟨readAll_sound, readAll_complete⟩

end PluralForms.Sample
