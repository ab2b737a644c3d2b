import PluralForms.Proofs.Stepwise.Conditions

/-!
# Samples and rules, step by step

Items of a list and annotations of a rule are taken one in a turn, and every turn takes a character.
With the condition in front of them, rules are read as by the other readers.
-/

namespace PluralForms

open Text

namespace Stepwise

/-! ## Samples -/

section Samples

variable {source : String} {s : Suffix}

def onlyCursor {α : Type} (source : String) (result : α × Suffix) : Cursor :=
  cursorAt source result.2

/-- As `along_bind`, where the reading leaves characters. -/
theorem along_bind_chars {α β γ δ : Type} {first : Except Issue (α × Suffix)}
    {next : α × Suffix → Except Issue β} {view : α × Suffix → γ} {last : β → δ}
    {step : γ → Step δ} (hfirst : StaysBehind source.toList s first)
    (hnext : ∀ a rest, rest.Within source.toList → first = .ok (a, rest) →
      step (view (a, rest)) = along source last (next (a, rest))) :
    (along source view first >>= step) = along source last (first >>= next) := by
  refine along_bind ?_
  rintro ⟨a, rest⟩ hread
  rw [hread] at hfirst
  exact hnext a rest hfirst.within hread

theorem noSampleValue_cursorAt {α β : Type} (view : α → β) (hs : s.Within source.toList) :
    noSampleValue (cursorAt source s) = along source view (.error (Sample.noValue s)) := by
  rw [noSampleValue, atEnd_cursorAt hs]
  cases hchars : s.chars with
  | nil =>
      simp only [List.isEmpty_nil, if_true, Sample.noValue, hchars]
      exact unexpectedEnd_eq view s.position .sampleValue
  | cons c tail =>
      simp only [List.isEmpty_cons, Bool.false_eq_true, if_false, current_cursorAt hs hchars,
        pure_bind_step, Sample.noValue, hchars]
      exact unexpectedToken_eq view s.position _ (some .sampleValue)

theorem sampleDigits_cursorAt (hs : s.Within source.toList) :
    sampleDigits (cursorAt source s) = along source (onlyCursor source) (Sample.readDigits s) := by
  rw [sampleDigits, takeWhile_cursorAt hs, pure_bind_step, Sample.readDigits]
  dsimp only
  cases hrun : s.chars.takeWhile isDigit with
  | nil =>
      have hstay : s.dropRun isDigit = s := by
        have happend := List.takeWhile_append_dropWhile (p := isDigit) (l := s.chars)
        rw [hrun, List.nil_append] at happend
        rw [Suffix.dropRun, hrun, happend]
        rfl
      rw [if_pos rfl, hstay]
      exact noSampleValue_cursorAt _ hs
  | cons digit digits =>
      have hne : String.ofList (digit :: digits) ≠ "" := by
        simp
      rw [if_neg hne]
      rfl

theorem samplePart_cursorAt (isMark : Char → Bool) (hs : s.Within source.toList) :
    samplePart isMark (cursorAt source s) =
      along source (onlyCursor source) (Sample.readPart isMark s) := by
  have hpeek : peek (cursorAt source s) 0 = pure s.chars[0]? := peek_cursorAt hs 0
  have hadvance : (cursorAt source s).advance 1 = cursorAt source (s.drop 1) :=
    advance_cursorAt hs 1
  rw [samplePart, hpeek, pure_bind_step, hadvance, sampleDigits_cursorAt (hs.drop 1),
    Sample.readPart]
  cases hchars : s.chars with
  | nil => rfl
  | cons c tail =>
      simp only [List.getElem?_cons_zero, Option.any_some]
      by_cases hmark : isMark c = true
      · rw [if_pos hmark, if_pos hmark]
        cases Sample.readDigits (s.drop 1) <;> rfl
      · rw [if_neg hmark, if_neg hmark]
        rfl

theorem slice_cursorAt {after : Suffix} {piece : List Char} (hs : s.Within source.toList)
    (hafter : after.Within source.toList) (hpiece : s.chars = piece ++ after.chars) :
    slice source.toList (cursorAt source s).position (cursorAt source after).position = piece := by
  have hlength := congrArg List.length hpiece
  have hle := hafter.1
  have hleStart := hs.1
  rw [List.length_append, hs.2, hafter.2, List.length_drop, List.length_drop] at hlength
  have hstop : after.position = s.position + piece.length := by omega
  show slice source.toList (s.position : Int) (after.position : Int) = piece
  rw [hstop, slice_natCast, ← hs.2, hpiece, List.take_left]

theorem sampleValue_cursorAt (hs : s.Within source.toList) :
    sampleValue (cursorAt source s) = along source (withCursor source) (Sample.readValue s) := by
  rw [sampleValue, sampleDigits_cursorAt hs, Sample.readValue]
  refine along_bind_chars (Sample.readDigits_staysBehind hs) ?_
  intro whole s1 hs1 hwhole
  dsimp only [onlyCursor]
  rw [samplePart_cursorAt _ hs1]
  refine along_bind_chars (Sample.readPart_staysBehind _ hs1) ?_
  intro fraction s2 hs2 hfraction
  dsimp only [onlyCursor]
  rw [samplePart_cursorAt _ hs2]
  refine along_bind_chars (Sample.readPart_staysBehind _ hs2) ?_
  intro exponent s3 hs3 hexponent
  have hpiece : s.chars = (whole ++ fraction ++ exponent) ++ s3.chars := by
    rw [(Sample.readDigits_sound hwhole).1, (Sample.readPart_sound hfraction).1,
      (Sample.readPart_sound hexponent).1, List.append_assoc, List.append_assoc]
  show (pure (String.ofList (slice source.toList (cursorAt source s).position
    (cursorAt source s3).position), cursorAt source s3) : Step (String × Cursor)) = _
  rw [slice_cursorAt hs hs3 hpiece]
  rfl

theorem sampleRange_cursorAt (hs : s.Within source.toList) :
    sampleRange (cursorAt source s) = along source (withCursor source) (Sample.readRange s) := by
  rw [sampleRange, sampleValue_cursorAt hs, Sample.readRange]
  refine along_bind_chars (Sample.readValue_staysBehind hs) ?_
  intro lower s1 hs1 _
  have hskip := hs1.behind_skipBlanks.within
  have hadvance : (cursorAt source s1.skipBlanks).advance 1 =
      cursorAt source (s1.skipBlanks.drop 1) := advance_cursorAt hskip 1
  have hdrop := hskip.drop 1
  have hnext := hdrop.behind_skipBlanks.within
  dsimp only [withCursor]
  rw [skipBlanks_cursorAt hs1, pure_bind_step, standsAt_cursorAt hskip, pure_bind_step, hadvance,
    skipBlanks_cursorAt hdrop, pure_bind_step, sampleValue_cursorAt hnext]
  by_cases htilde : (s1.skipBlanks.chars.head? == some '~') = true
  · obtain ⟨tail, hchars⟩ := List.head?_eq_some_iff.mp (eq_of_beq htilde)
    rw [if_pos htilde]
    simp only [hchars]
    refine along_bind_chars (Sample.readValue_staysBehind hnext) ?_
    intro upper s2 hs2 _
    dsimp only [withCursor]
    rw [skipBlanks_cursorAt hs2]
    rfl
  · rw [if_neg htilde]
    split
    · next tail hchars =>
        rw [hchars] at htilde
        exact absurd rfl htilde
    · rfl

/-! ### Lists -/

theorem ellipsisAt?_cursorAt (hs : s.Within source.toList) :
    ellipsisAt? (cursorAt source s) =
      ellipses.find? fun dots => dots.toList.isPrefixOf s.chars := by
  rw [ellipsisAt?, cursorAt, place_natCast, ← hs.2]

theorem ellipsisAt?_of_some {rest : Suffix} (hs : s.Within source.toList)
    (h : Sample.ellipsis? s = some rest) :
    ∃ dots, ellipsisAt? (cursorAt source s) = some dots ∧
      (cursorAt source s).advance dots.length = cursorAt source rest := by
  rw [ellipsisAt?_cursorAt hs]
  unfold Sample.ellipsis? at h
  split at h
  · next tail hchars =>
      cases h
      rw [hchars]
      exact ⟨"…", rfl, advance_cursorAt hs 1⟩
  · next tail hchars =>
      cases h
      rw [hchars]
      exact ⟨"...", rfl, advance_cursorAt hs 3⟩
  · cases h

theorem ellipsisAt?_of_none (hs : s.Within source.toList) (h : Sample.ellipsis? s = none) :
    ellipsisAt? (cursorAt source s) = none := by
  rw [ellipsisAt?_cursorAt hs, List.find?_eq_none]
  intro dots hdots hbegins
  obtain ⟨tail, hchars⟩ := List.isPrefixOf_iff_prefix.mp hbegins
  simp only [ellipses, List.mem_cons, List.not_mem_nil, or_false] at hdots
  rcases hdots with rfl | rfl
  · have hfound : Sample.ellipsis? s = some (s.drop 1) := by
      rw [Sample.ellipsis?, ← hchars]
      rfl
    rw [hfound] at h
    cases h
  · have hfound : Sample.ellipsis? s = some (s.drop 3) := by
      rw [Sample.ellipsis?, ← hchars]
      rfl
    rw [hfound] at h
    cases h

def itemsWithCursor (source : String) (ranges : List SampleRange) (result : SampleList × Suffix) :
    SampleList × Cursor :=
  (⟨ranges ++ result.1.ranges, result.1.openEnded⟩, cursorAt source result.2)

theorem sampleItems_turn {turns : Nat} (hturns : 0 < turns) (hs : s.Within source.toList)
    (ranges : List SampleRange) :
    sampleItems turns ranges (cursorAt source s) =
      match if ranges.isEmpty then none else Sample.ellipsis? s.skipBlanks with
      | some rest => pure (⟨ranges, true⟩, cursorAt source rest)
      | none => do
          let (range, cursor) ← along source (withCursor source) (Sample.readRange s.skipBlanks)
          let more ← standsAt ',' cursor
          if more then sampleItems (turns - 1) (ranges ++ [range]) (cursor.advance 1)
          else return (⟨ranges ++ [range], false⟩, cursor) := by
  have hskip := hs.behind_skipBlanks.within
  obtain ⟨turns, rfl⟩ := Nat.exists_eq_add_one.mpr hturns
  rw [sampleItems, skipBlanks_cursorAt hs, pure_bind_step, sampleRange_cursorAt hskip]
  cases ranges with
  | nil => rfl
  | cons first others =>
      simp only [List.isEmpty_cons, Bool.false_eq_true, if_false]
      cases hdots : Sample.ellipsis? s.skipBlanks with
      | some rest =>
          obtain ⟨dots, hfound, hadvance⟩ := ellipsisAt?_of_some hskip hdots
          rw [hfound]
          dsimp only
          rw [hadvance]
      | none =>
          rw [ellipsisAt?_of_none hskip hdots]
          rfl

def itemsAfter (turns : Nat) (ranges : List SampleRange) (cursor : Cursor) :
    Step (SampleList × Cursor) := do
  let more ← standsAt ',' cursor
  if more then sampleItems turns ranges (cursor.advance 1)
  else return (⟨ranges, false⟩, cursor)

theorem itemsAfter_comma {turns : Nat} (hturns : 0 < turns) (hs : s.Within source.toList)
    {ranges : List SampleRange} (hne : ranges ≠ []) {tail : List Char}
    (hcomma : s.chars = ',' :: tail) :
    itemsAfter turns ranges (cursorAt source s) =
      match Sample.ellipsis? (s.drop 1).skipBlanks with
      | some rest => pure (⟨ranges, true⟩, cursorAt source rest)
      | none =>
          along source (withCursor source) (Sample.readRange (s.drop 1).skipBlanks) >>=
            fun (range, cursor) => itemsAfter (turns - 1) (ranges ++ [range]) cursor := by
  have hadvance : (cursorAt source s).advance 1 = cursorAt source (s.drop 1) :=
    advance_cursorAt hs 1
  have hempty : ¬ranges.isEmpty = true := by
    rwa [List.isEmpty_iff]
  rw [itemsAfter, standsAt_cursorAt hs, pure_bind_step, hadvance,
    sampleItems_turn hturns (hs.drop 1), if_neg hempty, hcomma, List.head?_cons,
    if_pos (beq_self_eq_true _)]
  rfl

theorem itemsAfter_other (turns : Nat) (hs : s.Within source.toList) (ranges : List SampleRange)
    (hother : ∀ tail, s.chars = ',' :: tail → False) :
    itemsAfter turns ranges (cursorAt source s) = pure (⟨ranges, false⟩, cursorAt source s) := by
  have hhead : ¬(s.chars.head? == some ',') = true := by
    intro hhead
    obtain ⟨tail, hchars⟩ := List.head?_eq_some_iff.mp (eq_of_beq hhead)
    exact hother tail hchars
  rw [itemsAfter, standsAt_cursorAt hs, pure_bind_step, if_neg hhead]

/-- Behind a comma and a range there is as much to do as before them, with fewer characters. -/
theorem itemsAfter_range {turns : Nat} (hturns : s.chars.length < turns)
    (hs : s.Within source.toList) {ranges : List SampleRange} (hne : ranges ≠ [])
    {tail : List Char} (hcomma : s.chars = ',' :: tail)
    (hdots : Sample.ellipsis? (s.drop 1).skipBlanks = none) {range : SampleRange} {rest : Suffix}
    (hrange : Sample.readRange (s.drop 1).skipBlanks = .ok (range, rest)) :
    rest.Within source.toList ∧ rest.chars.length < turns - 1 ∧
      itemsAfter turns ranges (cursorAt source s) =
        itemsAfter (turns - 1) (ranges ++ [range]) (cursorAt source rest) := by
  refine ⟨?_, ?_, ?_⟩
  · have hread := Sample.readRange_staysBehind (hs.drop 1).behind_skipBlanks.within
    rw [hrange] at hread
    exact hread.within
  · have hlength := Sample.readRange_length hrange
    have hblanks := (s.drop 1).length_skipBlanks_le
    have hdrop := s.length_drop_le 1
    omega
  · rw [itemsAfter_comma (Nat.zero_lt_of_lt hturns) hs hne hcomma, hdots, hrange, along_pure,
      pure_bind_step]
    rfl

/-- With more turns than characters the loop ends, because every item takes a character. -/
theorem itemsAfter_cursorAt {turns : Nat} (hturns : s.chars.length < turns)
    (hs : s.Within source.toList) {ranges : List SampleRange} (hne : ranges ≠ []) :
    itemsAfter turns ranges (cursorAt source s) =
      along source (itemsWithCursor source ranges) (Sample.readMore s) := by
  fun_induction Sample.readMore s generalizing turns ranges with
  | case1 s tail hcomma rest hdots =>
      rw [itemsAfter_comma (Nat.zero_lt_of_lt hturns) hs hne hcomma, hdots]
      simp [along, itemsWithCursor]
  | case2 s tail hcomma hdots issue hrange =>
      rw [itemsAfter_comma (Nat.zero_lt_of_lt hturns) hs hne hcomma, hdots, hrange]
      rfl
  | case3 s tail hcomma hdots range rest hrange issue hmore ih =>
      obtain ⟨hrest, hfewer, hnext⟩ := itemsAfter_range hturns hs hne hcomma hdots hrange
      rw [hnext, ih hfewer hrest (by simp), hmore]
      rfl
  | case4 s tail hcomma hdots range rest hrange more last hmore ih =>
      obtain ⟨hrest, hfewer, hnext⟩ := itemsAfter_range hturns hs hne hcomma hdots hrange
      rw [hnext, ih hfewer hrest (by simp), hmore]
      simp [along, itemsWithCursor]
  | case5 s hother =>
      rw [itemsAfter_other turns hs ranges hother]
      simp [along, itemsWithCursor]

theorem sampleItems_cursorAt {turns : Nat} (hturns : s.chars.length < turns)
    (hs : s.Within source.toList) :
    sampleItems turns [] (cursorAt source s) =
      along source (withCursor source) (Sample.readList s) := by
  have hskip := hs.behind_skipBlanks.within
  rw [sampleItems_turn (Nat.zero_lt_of_lt hturns) hs, Sample.readList]
  refine along_bind_chars (Sample.readRange_staysBehind hskip) ?_
  intro range rest hrest hrange
  have hlength := Sample.readRange_length hrange
  have hblanks := s.length_skipBlanks_le
  have hafter := itemsAfter_cursorAt (by omega : rest.chars.length < turns - 1) hrest
    (List.cons_ne_nil range [])
  rw [itemsAfter] at hafter
  dsimp only [withCursor]
  rw [List.nil_append, hafter]
  cases Sample.readMore rest <;> rfl

/-! ### Annotations -/

theorem ofList_eq_iff {chars : List Char} {text : String} :
    String.ofList chars = text ↔ chars = text.toList := by
  constructor
  · intro h
    rw [← h, String.toList_ofList]
  · intro h
    rw [h, String.ofList_toList]

/-- The keyword at the cursor; a cursor behind one stands behind its marker and its letters. -/
theorem keywordAt_cursorAt (hs : s.Within source.toList) {c : Char} {tail : List Char}
    (hchars : s.chars = c :: tail) :
    ∃ after, keywordAt c (cursorAt source s) =
        pure (String.ofList (Sample.keyword s), cursorAt source after) ∧
      (Sample.keyword s ≠ [] → after = (s.drop 1).dropRun isLetter) := by
  have hadvance : (cursorAt source s).advance 1 = cursorAt source (s.drop 1) :=
    advance_cursorAt hs 1
  by_cases hmarker : c = sampleMarker
  · have hkeyword : Sample.keyword s = (s.drop 1).chars.takeWhile isLetter := by
      rw [Sample.keyword, Sample.drop_chars hchars, hchars, hmarker]
      rfl
    refine ⟨(s.drop 1).dropRun isLetter, ?_, fun _ => rfl⟩
    rw [keywordAt, if_pos hmarker, hadvance, takeWhile_cursorAt (hs.drop 1), hkeyword]
  · have hkeyword : Sample.keyword s = [] := by
      unfold Sample.keyword
      split
      · next rest hrest =>
          rw [hchars, List.cons.injEq] at hrest
          exact absurd hrest.1 hmarker
      · rfl
    refine ⟨s, ?_, fun hne => absurd hkeyword hne⟩
    rw [keywordAt, if_neg hmarker, hkeyword]

def closing (given : Samples) (s : Suffix) : Except Issue Samples :=
  match s.chars with
  | [] => .ok given
  | c :: _ => .error (Sample.unexpectedRest s c)

theorem length_behind_keyword (hne : Sample.keyword s.skipBlanks ≠ []) :
    ((s.skipBlanks.drop 1).dropRun isLetter).chars.length < s.chars.length := by
  have hblanks := s.length_skipBlanks_le
  have hletters := (s.skipBlanks.drop 1).length_dropRun_le isLetter
  have hpos : 0 < s.skipBlanks.chars.length :=
    List.length_pos_iff.mpr (mt Sample.keyword_of_nil hne)
  have hdrop : (s.skipBlanks.drop 1).chars.length = s.skipBlanks.chars.length - 1 :=
    List.length_drop
  omega

theorem length_behind_list (hs : s.Within source.toList) {rest : Suffix} {samples : SampleList}
    (h : Sample.readList s = .ok (samples, rest)) : rest.chars.length ≤ s.chars.length := by
  have hread := Sample.readList_staysBehind hs
  rw [h] at hread
  have hle := hread.position_le
  rw [hs.2, hread.within.2, List.length_drop, List.length_drop]
  omega

theorem integer_ne_nil : "integer".toList ≠ [] := by decide

theorem decimal_ne_nil : "decimal".toList ≠ [] := by decide

section Annotations

variable {listTurns turns : Nat} (hturns : s.chars.length < turns) (hlist : turns ≤ listTurns)
include hturns hlist

theorem readSamples_turn (hs : s.Within source.toList) (given : Samples) :
    readSamples listTurns turns given (cursorAt source s) =
      if Sample.keyword s.skipBlanks = "integer".toList ∧ given.integer = none ∧
          given.decimal = none then
        along source (withCursor source)
            (Sample.readList ((s.skipBlanks.drop 1).dropRun isLetter)) >>=
          fun read => readSamples listTurns (turns - 1) { given with integer := some read.1 } read.2
      else if Sample.keyword s.skipBlanks = "decimal".toList ∧ given.decimal = none then
        along source (withCursor source)
            (Sample.readList ((s.skipBlanks.drop 1).dropRun isLetter)) >>=
          fun read => readSamples listTurns (turns - 1) { given with decimal := some read.1 } read.2
      else along source id (closing given s.skipBlanks) := by
  have hskip := hs.behind_skipBlanks.within
  have hread : Sample.keyword s.skipBlanks ≠ [] →
      sampleItems listTurns [] (cursorAt source ((s.skipBlanks.drop 1).dropRun isLetter)) =
        along source (withCursor source)
          (Sample.readList ((s.skipBlanks.drop 1).dropRun isLetter)) := by
    intro hne
    have hlength := length_behind_keyword hne
    exact sampleItems_cursorAt (by omega) ((hskip.drop 1).dropRun isLetter)
  obtain ⟨turns, rfl⟩ := Nat.exists_eq_add_one.mpr (Nat.zero_lt_of_lt hturns)
  rw [readSamples, skipBlanks_cursorAt hs, pure_bind_step, atEnd_cursorAt hskip]
  cases hchars : s.skipBlanks.chars with
  | nil =>
      have hkeyword := Sample.keyword_of_nil hchars
      rw [List.isEmpty_nil, if_pos rfl, hkeyword, closing, hchars]
      rfl
  | cons c tail =>
      obtain ⟨after, hkeyword, hafter⟩ := keywordAt_cursorAt hskip hchars
      rw [List.isEmpty_cons, if_neg Bool.false_ne_true, current_cursorAt hskip hchars,
        pure_bind_step, hkeyword, pure_bind_step]
      dsimp only
      simp only [ofList_eq_iff]
      by_cases hinteger : Sample.keyword s.skipBlanks = "integer".toList ∧
          given.integer = none ∧ given.decimal = none
      · have hne : Sample.keyword s.skipBlanks ≠ [] := by
          rw [hinteger.1]
          exact integer_ne_nil
        rw [if_pos hinteger, if_pos hinteger, hafter hne, hread hne]
        rfl
      · rw [if_neg hinteger, if_neg hinteger]
        by_cases hdecimal : Sample.keyword s.skipBlanks = "decimal".toList ∧ given.decimal = none
        · have hne : Sample.keyword s.skipBlanks ≠ [] := by
            rw [hdecimal.1]
            exact decimal_ne_nil
          rw [if_pos hdecimal, if_pos hdecimal, hafter hne, hread hne]
          rfl
        · have hfound : (if Sample.keyword s.skipBlanks = "".toList then String.singleton c
              else "@" ++ String.ofList (Sample.keyword s.skipBlanks)) =
              String.ofList (if (Sample.keyword s.skipBlanks).isEmpty then [c]
                else '@' :: Sample.keyword s.skipBlanks) := by
            cases Sample.keyword s.skipBlanks with
            | nil => rfl
            | cons letter letters => exact String.ofList_append.symm
          rw [if_neg hdecimal, if_neg hdecimal, closing, hchars, hfound]
          exact unexpectedToken_eq id s.skipBlanks.position _ (some .sampleKeyword)

theorem readSamples_of_decimal (hs : s.Within source.toList) (integer : Option SampleList)
    (decimal : SampleList) :
    readSamples listTurns turns ⟨integer, some decimal⟩ (cursorAt source s) =
      along source id (closing ⟨integer, some decimal⟩ s.skipBlanks) := by
  rw [readSamples_turn hturns hlist hs, if_neg nofun, if_neg nofun]

/-- Where no integers come next, there may be decimals. -/
theorem readSamples_of_no_integer (hs : s.Within source.toList) {integer : Option SampleList}
    (hno : ¬(Sample.keyword s.skipBlanks = "integer".toList ∧ integer = none)) :
    readSamples listTurns turns ⟨integer, none⟩ (cursorAt source s) =
      along source id (Sample.readAnnotation "decimal" s.skipBlanks >>= fun read =>
        closing ⟨integer, read.1⟩ read.2) := by
  have hskip := hs.behind_skipBlanks.within
  have hother : ¬(Sample.keyword s.skipBlanks = "integer".toList ∧ integer = none ∧
      (none : Option SampleList) = none) := fun h => hno ⟨h.1, h.2.1⟩
  rw [readSamples_turn hturns hlist hs, if_neg hother]
  by_cases hkeyword : Sample.keyword s.skipBlanks = "decimal".toList
  · have hbehind := (hskip.drop 1).dropRun isLetter
    have hlength := length_behind_keyword (hkeyword.trans_ne decimal_ne_nil)
    rw [if_pos ⟨hkeyword, rfl⟩, Sample.readAnnotation, if_pos hkeyword, bind_assoc]
    refine along_bind_chars (Sample.readList_staysBehind hbehind) ?_
    intro samples rest hrest hread
    have hfewer := length_behind_list hbehind hread
    exact readSamples_of_decimal (by omega) (by omega) hrest integer samples
  · rw [if_neg fun h => hkeyword h.1, Sample.readAnnotation, if_neg hkeyword]
    rfl

theorem readSamples_cursorAt (hs : s.Within source.toList) :
    readSamples listTurns turns {} (cursorAt source s) =
      along source id (Sample.readAll s) := by
  have hskip := hs.behind_skipBlanks.within
  have hall : Sample.readAll s =
      (Sample.readAnnotation "integer" s.skipBlanks >>= fun read =>
        Sample.readAnnotation "decimal" read.2 >>= fun last => closing ⟨read.1, last.1⟩ last.2) :=
    rfl
  rw [hall]
  by_cases hkeyword : Sample.keyword s.skipBlanks = "integer".toList
  · have hbehind := (hskip.drop 1).dropRun isLetter
    have hlength := length_behind_keyword (hkeyword.trans_ne integer_ne_nil)
    rw [readSamples_turn hturns hlist hs, if_pos ⟨hkeyword, rfl, rfl⟩, Sample.readAnnotation,
      if_pos hkeyword, bind_assoc]
    refine along_bind_chars (Sample.readList_staysBehind hbehind) ?_
    intro samples rest hrest hread
    have hfewer := length_behind_list hbehind hread
    have hno : ¬(Sample.keyword rest.skipBlanks = "integer".toList ∧ some samples = none) :=
      fun h => Option.some_ne_none samples h.2
    exact readSamples_of_no_integer (by omega) (by omega) hrest hno
  · rw [Sample.readAnnotation, if_neg hkeyword]
    exact readSamples_of_no_integer hturns hlist hs fun h => hkeyword h.1

end Annotations

end Samples

/-! ## Texts -/

def ended {α : Type} (outcome : Except RuleError α) : Step α :=
  some (outcome.mapError fun e => .refused e.refusal)

theorem along_id {α : Type} (source : String) (outcome : Except Issue α) :
    along source id outcome = ended (refusedIn source outcome) := by
  cases outcome <;> rfl

section

variable {source : String} {turns : Nat} (hturns : source.length < turns)
include hturns

theorem parseCondition_eq :
    parseCondition turns source = ended (Condition.parse source) := by
  rw [parseCondition, readCondition_eq hturns, Condition.parse, ← along_id]
  cases Condition.readText source.toList <;> rfl

theorem parseRule_eq : parseRule turns source = ended (Rule.parse source) := by
  rw [parseRule, readCondition_eq hturns, Rule.parse, ← along_id, Rule.readText]
  refine along_bind ?_
  rintro ⟨condition, stop⟩ hread
  have hle : stop ≤ source.toList.length := by
    rw [Condition.stop_of_readText hread]
    exact List.idxOf_le_length
  have hlength : (Suffix.ofText source.toList stop).chars.length < turns := by
    rw [Suffix.ofText, List.length_drop, String.length_toList]
    omega
  have hsamples : readSamples turns turns {} ⟨source, stop⟩ =
      along source id (Sample.readAll (.ofText source.toList stop)) :=
    readSamples_cursorAt hlength (Nat.le_refl turns) (Suffix.ofText_within hle)
  dsimp only [withOffset]
  rw [hsamples]
  refine along_bind ?_
  intro samples _
  rfl

end

end Stepwise

end PluralForms
