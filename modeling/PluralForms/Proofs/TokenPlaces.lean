import Mathlib.Data.List.Chain
import Mathlib.Order.Bounds.Defs
import PluralForms.Proofs.Refusals

/-!
# Places of tokens

A condition can be tokenized just when the text before the first marker is made of blanks and
lexemes.  Then the tokens stand in the text in their order, all between them is blank, and two words
or two numbers never touch.  Otherwise the scanner stops at the first offset that is neither blank
nor in a token it has taken, and at which no lexeme begins.
-/

namespace PluralForms

open Text Sample

/-! ## Texts made of lexemes -/

/-- Words and numbers go on as long as they can; a sign is what it is. -/
def TokenKind.isRun : TokenKind → Bool
  | word => true
  | number => true
  | _ => false

theorem TokenKind.continues_of_not_isRun {kind : TokenKind} (h : kind.isRun = false) (c : Char) :
    kind.continues c = false := by
  cases kind with
  | word => cases h
  | number => cases h
  | _ => rfl

/-- The text is made of blanks and lexemes, which need not be as long as they could be. -/
inductive Cuttable : List Char → Prop where
  | nil : Cuttable []
  | blank {c text} (hblank : isBlank c = true) (hrest : Cuttable text) : Cuttable (c :: text)
  | lexeme {kind piece text} (hpiece : IsLexeme kind piece) (hrest : Cuttable text) :
      Cuttable (piece ++ text)

section

variable {kind : TokenKind} {piece run text : List Char} {position : Nat} {tokens : List Token}

theorem IsLexeme.append_run (h : IsLexeme kind piece)
    (hrun : ∀ c ∈ run, kind.continues c = true) : IsLexeme kind (piece ++ run) := by
  cases hkind : kind.isRun with
  | false =>
      have hnil : run = [] := by
        refine List.eq_nil_iff_forall_not_mem.mpr fun c hc => ?_
        exact absurd (hrun c hc) (by simp [kind.continues_of_not_isRun hkind])
      rw [hnil, List.append_nil]
      exact h
  | true =>
      cases h with
      | word hne hall =>
          exact .word (List.append_ne_nil_of_left_ne_nil hne run)
            (List.forall_mem_append.mpr ⟨hall, hrun⟩)
      | number hne hall =>
          exact .number (List.append_ne_nil_of_left_ne_nil hne run)
            (List.forall_mem_append.mpr ⟨hall, hrun⟩)
      | _ => cases hkind

theorem IsLexeme.continues_of_isRun (h : IsLexeme kind piece) (hrun : kind.isRun = true) :
    ∀ c ∈ piece, kind.continues c = true := by
  cases h with
  | word hne hall => exact hall
  | number hne hall => exact hall
  | _ => cases hrun

theorem IsLexeme.ahead_of_apart (h : IsLexeme kind piece) {other : TokenKind}
    (hapart : other = kind → other.isRun = false) :
    Ahead (fun c => other.continues c = false) piece := by
  cases hother : other.isRun with
  | false => exact fun c _ => other.continues_of_not_isRun hother c
  | true =>
      obtain ⟨c, tail, hpiece, -⟩ := h.exists_cons
      cases h with
      | word hne hall =>
          have hletter := hall c (hpiece ▸ List.mem_cons_self)
          cases other with
          | word => exact absurd (hapart rfl) (by decide)
          | number => exact hpiece ▸ ahead_cons.mpr (isDigit_of_isLetter hletter)
          | _ => cases hother
      | number hne hall =>
          have hdigit := hall c (hpiece ▸ List.mem_cons_self)
          cases other with
          | word => exact hpiece ▸ ahead_cons.mpr (isLetter_of_isDigit hdigit)
          | number => exact absurd (hapart rfl) (by decide)
          | _ => cases hother
      | _ =>
          refine ahead_cons.mpr ?_
          cases other with
          | word => decide
          | number => decide
          | _ => cases hother

/-- Taking the rest of a run away leaves lexemes, of which none stood half in the run. -/
theorem Cuttable.dropWhile (h : Cuttable text) (kind : TokenKind) :
    Cuttable (text.dropWhile kind.continues) := by
  induction h with
  | nil => exact .nil
  | blank hblank hrest ih =>
      rw [List.dropWhile_cons_of_neg (by simp [continues_of_isBlank hblank kind])]
      exact .blank hblank hrest
  | @lexeme other piece text hpiece hrest ih =>
      by_cases hsame : kind = other ∧ kind.isRun = true
      · obtain ⟨rfl, hrun⟩ := hsame
        rwa [List.dropWhile_append_of_pos (hpiece.continues_of_isRun hrun)]
      · have hahead := hpiece.ahead_of_apart fun heq =>
          Bool.eq_false_iff.mpr fun hrun => hsame ⟨heq, hrun⟩
        obtain ⟨c, tail, rfl, -⟩ := hpiece.exists_cons
        have hstop : kind.continues c = false := hahead c rfl
        rw [List.cons_append, List.dropWhile_cons_of_neg (by simp [hstop]), ← List.cons_append]
        exact .lexeme hpiece hrest

theorem Cuts.cuttable (h : Cuts position text tokens) : Cuttable text := by
  induction h with
  | nil => exact .nil
  | blank hblank _ ih => exact .blank hblank ih
  | token hpiece _ _ ih => exact .lexeme hpiece ih

/-- However the text is cut, there are longest lexemes to cut it into. -/
theorem Cuttable.exists_cuts {text : List Char} (h : Cuttable text) (position : Nat) :
    ∃ tokens, Cuts position text tokens := by
  cases h with
  | nil => exact ⟨[], .nil⟩
  | blank hblank hrest =>
      obtain ⟨tokens, hcuts⟩ := hrest.exists_cuts (position + 1)
      exact ⟨tokens, .blank hblank hcuts⟩
  | @lexeme kind piece rest hpiece hrest =>
      -- The rest of the run belongs to the lexeme, so fewer characters are left.
      have hrun : ∀ c ∈ rest.takeWhile kind.continues, kind.continues c = true :=
        List.all_eq_true.mp List.all_takeWhile
      have hless : (rest.dropWhile kind.continues).length < piece.length + rest.length := by
        have hpos := List.length_pos_iff.mpr hpiece.ne_nil
        have hle : (rest.dropWhile kind.continues).length ≤ rest.length :=
          (List.dropWhile_sublist _).length_le
        omega
      obtain ⟨tokens, hcuts⟩ := (hrest.dropWhile kind).exists_cuts
        (position + (piece ++ rest.takeWhile kind.continues).length)
      have hwhole := Cuts.token (hpiece.append_run hrun) (ahead_dropWhile _ rest) hcuts
      rw [List.append_assoc, List.takeWhile_append_dropWhile] at hwhole
      exact ⟨_, hwhole⟩
termination_by text.length

theorem Cuttable.marker_not_mem (h : Cuttable text) : sampleMarker ∉ text := by
  induction h with
  | nil => exact List.not_mem_nil
  | blank hblank _ ih =>
      refine List.not_mem_cons_of_ne_of_not_mem ?_ ih
      rintro rfl
      exact absurd hblank (by decide)
  | lexeme hpiece _ ih => exact fun hmem => (List.mem_append.mp hmem).elim hpiece.marker_not_mem ih

theorem Cuts.append_blanks {blanks : List Char} (h : Cuts position text tokens)
    (hblanks : Blanks blanks) : Cuts position (text ++ blanks) tokens := by
  induction h with
  | nil => exact cuts_blanks hblanks _
  | blank hblank _ ih => exact .blank hblank ih
  | @token _ kind _ _ _ hpiece hnext _ ih =>
      rw [List.append_assoc]
      exact .token hpiece (hnext.append (ahead_of_blanks hblanks kind)) ih

end

/-! ## Steps of the scanner -/

/-- What stands behind the blanks decides what is taken: nothing at the marker and at the end, else
the longest lexeme.  Where none begins, the character is refused. -/
inductive NextOutcome (s : Suffix) : Except Issue (Option Token × Suffix) → Prop where
  | ended {blanks tail} (hchars : s.chars = blanks ++ tail) (hblanks : Blanks blanks)
      (hend : Ahead (· = sampleMarker) tail) :
      NextOutcome s (.ok (none, ⟨s.position + blanks.length, tail⟩))
  | token {blanks kind piece tail} (hchars : s.chars = blanks ++ (piece ++ tail))
      (hblanks : Blanks blanks) (hpiece : IsLexeme kind piece)
      (hnext : Ahead (fun c => kind.continues c = false) tail) :
      NextOutcome s
        (.ok (some ⟨kind, String.ofList piece, s.position + blanks.length⟩,
          ⟨s.position + blanks.length + piece.length, tail⟩))
  | refused {blanks c tail} (hchars : s.chars = blanks ++ c :: tail) (hblanks : Blanks blanks)
      (hblank : isBlank c = false) (hmarker : c ≠ sampleMarker)
      (hnone : lexeme? (c :: tail) = none) :
      NextOutcome s
        (.error ⟨.unexpected (String.singleton c) none, s.position + blanks.length⟩)

theorem nextToken_outcome (s : Suffix) : NextOutcome s (nextToken s) := by
  have hblanks : Blanks (s.chars.takeWhile isBlank) :=
    fun c hc => List.all_eq_true.mp List.all_takeWhile c hc
  have hchars : s.chars = s.chars.takeWhile isBlank ++ s.skipBlanks.chars :=
    List.takeWhile_append_dropWhile.symm
  unfold nextToken
  split
  · next hnil =>
      have hend : Ahead (· = sampleMarker) s.skipBlanks.chars := hnil ▸ ahead_nil _
      exact .ended hchars hblanks hend
  · next c tail hcons =>
      split
      · next hmarker =>
          have hend : Ahead (· = sampleMarker) s.skipBlanks.chars :=
            hcons ▸ ahead_cons.mpr hmarker
          exact .ended hchars hblanks hend
      · next hmarker =>
          split
          · next hnone =>
              rw [hcons] at hchars hnone
              have hblank : isBlank c = false := ahead_skipBlanks s c (by rw [hcons]; rfl)
              exact .refused hchars hblanks hblank hmarker hnone
          · next piece hpiece =>
              obtain ⟨hlexeme, hnext⟩ := isLexeme_of_lexeme? hpiece
              rw [← lexeme?_append hpiece] at hchars
              exact .token hchars hblanks hlexeme hnext

inductive Takes : Suffix → List Token → Suffix → Prop where
  | none {s} : Takes s [] s
  | more {s next rest token tokens} (htoken : nextToken s = .ok (some token, next))
      (hrest : Takes next tokens rest) : Takes s (token :: tokens) rest

theorem takes_of_scan_ok {s : Suffix} {tokens : List Token} {stop : Nat}
    (h : scan s = .ok (tokens, stop)) :
    ∃ rest last, Takes s tokens rest ∧ nextToken rest = .ok (none, last) ∧
      stop = last.position := by
  fun_induction scan s generalizing tokens with
  | case1 => cases h
  | case2 s last hnext =>
      cases h
      exact ⟨s, last, .none, hnext, rfl⟩
  | case3 => cases h
  | case4 s token next hnext others last hscan ih =>
      cases h
      obtain ⟨rest, last, htakes, hend, hstop⟩ := ih hscan
      exact ⟨rest, last, .more hnext htakes, hend, hstop⟩

theorem takes_of_scan_error {s : Suffix} {issue : Issue} (h : scan s = .error issue) :
    ∃ tokens rest, Takes s tokens rest ∧ nextToken rest = .error issue := by
  fun_induction scan s with
  | case1 s issue' hnext =>
      cases h
      exact ⟨[], s, .none, hnext⟩
  | case2 => cases h
  | case3 s token next hnext issue' hscan ih =>
      cases h
      obtain ⟨tokens, rest, htakes, hrefused⟩ := ih hscan
      exact ⟨token :: tokens, rest, .more hnext htakes, hrefused⟩
  | case4 => cases h

theorem Takes.exists_cuts {s rest : Suffix} {tokens : List Token} (h : Takes s tokens rest) :
    ∃ text, s.chars = text ++ rest.chars ∧ rest.position = s.position + text.length ∧
      Cuts s.position text tokens := by
  induction h with
  | none => exact ⟨[], rfl, rfl, .nil⟩
  | @more s next rest token tokens htoken hrest ih =>
      obtain ⟨text, htext, hposition, hcuts⟩ := ih
      have hout := nextToken_outcome s
      rw [htoken] at hout
      cases hout with
      | @token blanks kind piece tail hchars hblanks hpiece hnext =>
          have htail : tail = text ++ rest.chars := htext
          rw [htail] at hnext
          refine ⟨blanks ++ (piece ++ text), ?_, ?_,
            .of_blanks hblanks (.token hpiece hnext.of_append hcuts)⟩
          · rw [hchars, htail, List.append_assoc, List.append_assoc]
          · show rest.position = s.position + (blanks ++ (piece ++ text)).length
            rw [hposition, List.length_append, List.length_append, Nat.add_assoc, Nat.add_assoc]

/-! ## Tilings -/

/-- The character at the offset belongs to the token. -/
def Token.Covers (token : Token) (offset : Nat) : Prop :=
  token.position ≤ offset ∧ offset < token.stop

/-- Between the two offsets the source is made of the tokens, one behind the other, and of blanks.
Words and numbers are as long as they can be, so two of a kind do not touch. -/
structure Tiles (source : List Char) (start stop : Nat) (tokens : List Token) : Prop where
  isLexeme : ∀ token ∈ tokens, IsLexeme token.kind token.text.toList
  text_eq : ∀ token ∈ tokens,
    (source.take token.stop).drop token.position = token.text.toList
  within : ∀ token ∈ tokens,
    start ≤ token.position ∧ token.position < token.stop ∧ token.stop ≤ stop
  ordered : tokens.Pairwise fun first second => first.stop ≤ second.position
  blank : ∀ offset c, start ≤ offset → offset < stop → source[offset]? = some c →
    (∀ token ∈ tokens, ¬ token.Covers offset) → isBlank c = true
  apart : tokens.IsChain fun first second =>
    first.kind = second.kind → first.kind.isRun = true → first.stop < second.position

section

variable {source piece : List Char} {start stop : Nat} {tokens : List Token}

theorem Tiles.nil (source : List Char) (start : Nat) : Tiles source start start [] where
  isLexeme := nofun
  text_eq := nofun
  within := nofun
  ordered := .nil
  blank := fun _ _ hstart hstop _ _ => absurd hstart (Nat.not_le.mpr hstop)
  apart := .nil

theorem Tiles.cons_blank {c : Char} (hblank : isBlank c = true) (hat : source[start]? = some c)
    (h : Tiles source (start + 1) stop tokens) : Tiles source start stop tokens where
  isLexeme := h.isLexeme
  text_eq := h.text_eq
  within := fun token hmem =>
    ⟨Nat.le_trans (Nat.le_add_right start 1) (h.within token hmem).1, (h.within token hmem).2⟩
  ordered := h.ordered
  blank := by
    intro offset d hstart hstop hd hfree
    rcases Nat.eq_or_lt_of_le hstart with rfl | hlt
    · have hsame : c = d := Option.some.inj (hat.symm.trans hd)
      rwa [← hsame]
    · exact h.blank offset d hlt hstop hd hfree
  apart := h.apart

theorem Tiles.exists_head (h : Tiles source start stop tokens) {token : Token}
    (hmem : token ∈ tokens) :
    ∃ c ∈ token.text.toList, source[token.position]? = some c := by
  obtain ⟨c, tail, htext, -⟩ := (h.isLexeme token hmem).exists_cons
  refine ⟨c, htext ▸ List.mem_cons_self, ?_⟩
  have hlt := (h.within token hmem).2.1
  have hhead := congrArg List.head? (h.text_eq token hmem)
  rwa [List.head?_drop, List.getElem?_take_of_lt hlt, htext] at hhead

/-- A longest lexeme in front of a tiling is a token of its own: had the next token touched it, it
would have gone on with that token's first character. -/
theorem Tiles.cons_token {kind : TokenKind} (hpiece : IsLexeme kind piece)
    (htext : (source.take (start + piece.length)).drop start = piece)
    (hle : start + piece.length ≤ stop)
    (hnext : ∀ c, start + piece.length < stop → source[start + piece.length]? = some c →
      kind.continues c = false)
    (h : Tiles source (start + piece.length) stop tokens) :
    Tiles source start stop (⟨kind, String.ofList piece, start⟩ :: tokens) := by
  have hstop : (Token.mk kind (String.ofList piece) start).stop = start + piece.length := by
    rw [Token.stop, String.length_ofList]
  have hpos : 0 < piece.length := List.length_pos_iff.mpr hpiece.ne_nil
  refine ⟨?_, ?_, ?_, ?_, ?_, ?_⟩
  · refine List.forall_mem_cons.mpr ⟨?_, h.isLexeme⟩
    simpa only [String.toList_ofList] using hpiece
  · refine List.forall_mem_cons.mpr ⟨?_, h.text_eq⟩
    rw [hstop, htext, String.toList_ofList]
  · refine List.forall_mem_cons.mpr ⟨⟨Nat.le_refl _, ?_, ?_⟩, fun token hmem => ?_⟩
    · rw [hstop]
      exact Nat.lt_add_of_pos_right hpos
    · rwa [hstop]
    · obtain ⟨hstart, hrest⟩ := h.within token hmem
      exact ⟨Nat.le_trans (Nat.le_add_right _ _) hstart, hrest⟩
  · refine List.pairwise_cons.mpr ⟨fun token hmem => ?_, h.ordered⟩
    rw [hstop]
    exact (h.within token hmem).1
  · intro offset c hstart hoffset hc hfree
    obtain ⟨hfirst, hrest⟩ := List.forall_mem_cons.mp hfree
    refine h.blank offset c (Nat.not_lt.mp fun hlt => hfirst ⟨hstart, ?_⟩) hoffset hc hrest
    rwa [hstop]
  · refine List.isChain_cons.mpr ⟨fun token hhead => ?_, h.apart⟩
    intro (hkind : kind = token.kind) (hrun : kind.isRun = true)
    have hmem := List.mem_of_mem_head? hhead
    have hwithin := h.within token hmem
    refine Nat.lt_of_le_of_ne (hstop ▸ hwithin.1) fun htouch => ?_
    rw [hstop] at htouch
    obtain ⟨c, hc, hat⟩ := h.exists_head hmem
    have hgoes : kind.continues c = true :=
      hkind ▸ (h.isLexeme token hmem).continues_of_isRun (hkind ▸ hrun) c hc
    have hends : kind.continues c = false :=
      hnext c (htouch ▸ Nat.lt_of_lt_of_le hwithin.2.1 hwithin.2.2) (htouch ▸ hat)
    exact absurd hgoes (by simp [hends])

end

/-- A text that is cut into tokens is tiled by them wherever it stands. -/
theorem Cuts.tiles {position : Nat} {text : List Char} {tokens : List Token}
    (h : Cuts position text tokens) {source front back : List Char}
    (hsource : source = front ++ (text ++ back)) (hfront : front.length = position) :
    Tiles source position (position + text.length) tokens := by
  induction h generalizing front with
  | @nil position => exact .nil source position
  | @blank position c text tokens hblank hrest ih =>
      have hsplit : source = (front ++ [c]) ++ (text ++ back) := by
        rw [hsource, List.append_assoc, List.cons_append, List.singleton_append]
      have hlength : (front ++ [c]).length = position + 1 := by
        rw [List.length_append, hfront, List.length_singleton]
      have htiles := ih hsplit hlength
      have hat : source[position]? = some c := by
        rw [hsource, ← hfront, List.getElem?_append_right (Nat.le_refl _), Nat.sub_self]
        rfl
      rw [Nat.add_assoc, Nat.add_comm 1] at htiles
      exact htiles.cons_blank hblank hat
  | @token position kind piece text tokens hpiece hnext hrest ih =>
      have hsplit : source = (front ++ piece) ++ (text ++ back) := by
        rw [hsource, List.append_assoc, List.append_assoc]
      have hlength : (front ++ piece).length = position + piece.length := by
        rw [List.length_append, hfront]
      have htiles := ih hsplit hlength
      have htext : (source.take (position + piece.length)).drop position = piece := by
        rw [hsource, ← hfront, List.append_assoc, List.take_length_add_append,
          List.take_left, List.drop_left]
      rw [Nat.add_assoc, ← List.length_append] at htiles
      refine htiles.cons_token hpiece htext (by simp) fun c hlt hc => ?_
      cases text with
      | nil => simp at hlt
      | cons d tail =>
          have hd : source[position + piece.length]? = some d := by
            rw [hsource, ← hfront, List.append_assoc, ← List.length_append, ← List.append_assoc,
              List.getElem?_append_right (Nat.le_refl _), Nat.sub_self]
            rfl
          rw [hd] at hc
          exact hnext c hc

theorem Cuts.tiles_front {source text back : List Char} {tokens : List Token}
    (h : Cuts 0 text tokens) (hsource : source = text ++ back) :
    Tiles source 0 text.length tokens := by
  have htiles := h.tiles (hsource.trans (List.nil_append _).symm) List.length_nil
  rwa [Nat.zero_add] at htiles

/-! ## The first character that is refused -/

/-- No token of the list has the character at the offset, and none could be cut there. -/
structure IsStray (source : List Char) (tokens : List Token) (offset : Nat) : Prop where
  lt : offset < source.length
  not_blank : isBlank source[offset] = false
  not_covered : ∀ token ∈ tokens, ¬ token.Covers offset
  no_lexeme : ∀ kind piece, IsLexeme kind piece → ¬ piece <+: source.drop offset

theorem IsLexeme.not_prefix_of_lexeme? {kind : TokenKind} {piece chars : List Char}
    (h : IsLexeme kind piece) (hnone : lexeme? chars = none) : ¬ piece <+: chars := by
  rintro ⟨more, rfl⟩
  have hrun : ∀ c ∈ more.takeWhile kind.continues, kind.continues c = true :=
    List.all_eq_true.mp List.all_takeWhile
  have hcut := (h.append_run hrun).lexeme?_append (ahead_dropWhile _ more)
  rw [List.append_assoc, List.takeWhile_append_dropWhile, hnone] at hcut
  cases hcut

/-- Behind the tiles in front of it, the first stray character is the one that no lexeme begins
with. -/
theorem Tiles.isLeast_stray {source rest : List Char} {tokens : List Token} {position : Nat}
    {c : Char} (h : Tiles source 0 position tokens) (hrest : source.drop position = c :: rest)
    (hblank : isBlank c = false) (hnone : lexeme? (c :: rest) = none) :
    IsLeast {offset | IsStray source tokens offset} position := by
  have hat : source[position]? = some c := by
    rw [← List.head?_drop, hrest]
    rfl
  obtain ⟨hlt, hc⟩ := List.getElem?_eq_some_iff.mp hat
  refine ⟨⟨hlt, by rw [hc, hblank], fun token hmem hcovers => ?_, fun kind piece hpiece => ?_⟩, ?_⟩
  · exact absurd (h.within token hmem).2.2 (Nat.not_le.mpr hcovers.2)
  · exact hrest ▸ hpiece.not_prefix_of_lexeme? hnone
  · intro offset hstray
    refine Nat.not_lt.mp fun hbefore => ?_
    have hblank' := h.blank offset source[offset] (Nat.zero_le _) hbefore
      (List.getElem?_eq_getElem hstray.lt) hstray.not_covered
    rw [hstray.not_blank] at hblank'
    cases hblank'

/-! ## All tokens of a source -/

theorem takeWhile_marker {text rest : List Char} (h : sampleMarker ∉ text)
    (hrest : Ahead (· = sampleMarker) rest) :
    (text ++ rest).takeWhile (· ≠ sampleMarker) = text := by
  refine takeWhile_run (fun c hc => ?_) (hrest.mono fun c hc => by simp [hc])
  rw [decide_eq_true_eq]
  rintro rfl
  exact h hc

/-- The scanner gets to the marker, or to the end, by cutting all that is in front of it. -/
theorem cuts_of_scan_ok {text : List Char} {tokens : List Token} {stop : Nat}
    (h : scan (.whole text) = .ok (tokens, stop)) :
    ∃ front rest, text = front ++ rest ∧ Cuts 0 front tokens ∧ Ahead (· = sampleMarker) rest ∧
      stop = front.length := by
  obtain ⟨s, last, htakes, hnone, hstop⟩ := takes_of_scan_ok h
  obtain ⟨front, htext, hposition, hcuts⟩ := htakes.exists_cuts
  have hout := nextToken_outcome s
  rw [hnone] at hout
  cases hout with
  | @ended blanks tail hchars hblanks hend =>
      refine ⟨front ++ blanks, tail, ?_, hcuts.append_blanks hblanks, hend, ?_⟩
      · rw [List.append_assoc, ← hchars]
        exact htext
      · rw [hstop, List.length_append, hposition]
        exact congrArg (· + blanks.length) (Nat.zero_add _)

/-- The scanner refuses the character behind what it has cut, where it cannot cut more. -/
theorem cuts_of_scan_error {text : List Char} {issue : Issue}
    (h : scan (.whole text) = .error issue) :
    ∃ earlier s front c rest, Takes (.whole text) earlier s ∧ nextToken s = .error issue ∧
      text = front ++ c :: rest ∧ Cuts 0 front earlier ∧
      issue = ⟨.unexpected (String.singleton c) none, front.length⟩ ∧
      isBlank c = false ∧ c ≠ sampleMarker ∧ lexeme? (c :: rest) = none := by
  obtain ⟨earlier, s, htakes, hrefused⟩ := takes_of_scan_error h
  obtain ⟨front, htext, hposition, hcuts⟩ := htakes.exists_cuts
  have hout := nextToken_outcome s
  rw [hrefused] at hout
  cases hout with
  | @refused blanks c rest hchars hblanks hblank hmarker hnone =>
      refine ⟨earlier, s, front ++ blanks, c, rest, htakes, hrefused, ?_,
        hcuts.append_blanks hblanks, ?_, hblank, hmarker, hnone⟩
      · rw [List.append_assoc, ← hchars]
        exact htext
      · rw [List.length_append, hposition]
        exact congrArg (fun n => Issue.mk _ (n + blanks.length)) (Nat.zero_add _)

theorem scan_ok_iff_cuttable (text : List Char) :
    (∃ tokens stop, scan (.whole text) = .ok (tokens, stop)) ↔
      Cuttable (text.takeWhile (· ≠ sampleMarker)) := by
  constructor
  · rintro ⟨tokens, stop, hscan⟩
    obtain ⟨front, rest, rfl, hcuts, hend, -⟩ := cuts_of_scan_ok hscan
    have hcut := hcuts.cuttable
    rwa [takeWhile_marker hcut.marker_not_mem hend]
  · intro hcut
    obtain ⟨tokens, hcuts⟩ := hcut.exists_cuts 0
    have hend : Ahead (· = sampleMarker) (text.dropWhile (· ≠ sampleMarker)) :=
      (ahead_dropWhile _ text).mono fun c hc => by simpa using hc
    have hscan := hcuts.scan_append hend
    rw [List.takeWhile_append_dropWhile] at hscan
    exact ⟨_, _, hscan⟩

/-- What comes of tokenizing a source.  Either the tokens tile all that is in front of the first
marker, or the first stray character is refused, and the tokens in front of it have been taken. -/
def PlacesIn (source : String) : Except RuleError (List Token × Nat) → Prop
  | .ok (tokens, stop) =>
      stop = source.toList.idxOf sampleMarker ∧ Tiles source.toList 0 stop tokens
  | .error error =>
      error.source = source ∧ error.kind = .unexpectedToken ∧
        error.position < source.toList.idxOf sampleMarker ∧
        ∃ earlier rest, Takes (.whole source.toList) earlier rest ∧
          nextToken rest = .error error.toIssue ∧
          Tiles source.toList 0 error.position earlier ∧
          IsLeast {offset | IsStray source.toList earlier offset} error.position

theorem placesIn_of_scan_ok {source : String} {tokens : List Token} {stop : Nat}
    (h : scan (.whole source.toList) = .ok (tokens, stop)) :
    PlacesIn source (.ok (tokens, stop)) := by
  obtain ⟨front, rest, hsource, hcuts, hend, rfl⟩ := cuts_of_scan_ok h
  have hindex : rest.idxOf sampleMarker = 0 := by
    cases rest with
    | nil => rfl
    | cons c tail => rw [ahead_cons.mp hend, List.idxOf_cons_self]
  refine ⟨?_, hcuts.tiles_front hsource⟩
  rw [hsource, List.idxOf_append_of_notMem hcuts.cuttable.marker_not_mem, hindex, Nat.add_zero]

theorem placesIn_of_scan_error {source : String} {issue : Issue}
    (h : scan (.whole source.toList) = .error issue) :
    PlacesIn source (.error ⟨issue, source⟩) := by
  obtain ⟨earlier, s, front, c, rest, htakes, hrefused, hsource, hcuts, rfl, hblank, hmarker,
    hnone⟩ := cuts_of_scan_error h
  have htiles := hcuts.tiles_front hsource
  have hdrop : source.toList.drop front.length = c :: rest := by
    rw [hsource, List.drop_left]
  refine ⟨rfl, rfl, ?_, earlier, s, htakes, hrefused, htiles,
    htiles.isLeast_stray hdrop hblank hnone⟩
  show front.length < source.toList.idxOf sampleMarker
  rw [hsource, List.idxOf_append_of_notMem hcuts.cuttable.marker_not_mem,
    List.idxOf_cons_ne rest hmarker]
  omega

/-- Tokenizing loses nothing and stops in the right place. -/
theorem tokenize_places (source : String) :
    ((∃ tokens stop, tokenize source = .ok (tokens, stop)) ↔
        Cuttable (source.toList.takeWhile (· ≠ sampleMarker))) ∧
      PlacesIn source (tokenize source) := by
  constructor
  · simp only [tokenize, refusedIn_eq_ok_iff]
    exact scan_ok_iff_cuttable source.toList
  · cases hscan : scan (.whole source.toList) with
    | ok result =>
        rw [tokenize, hscan]
        exact placesIn_of_scan_ok hscan
    | error issue =>
        rw [tokenize, hscan]
        exact placesIn_of_scan_error hscan

/-- A single point is no lexeme, so the number before it ends the earlier tokens. -/
example : tokenize "n = 1.5" = .error ⟨⟨.unexpected "." none, 5⟩, "n = 1.5"⟩ := by
  decide +kernel

end PluralForms
