import PluralForms.Proofs.Grammar
import PluralForms.Proofs.WrittenText

/-!
# Written conditions are read back

A written condition is cut into tokens that derive it.  This is shown piece by piece, for any text
that may follow a piece, so that the pieces can be put together from right to left.
-/

namespace PluralForms

open Text

/-! ## Limits -/

namespace Condition

def IntervalFits (interval : Interval) : Prop := interval.All (· ≤ maxInteger)

def RelationFits (relation : Relation) : Prop := relation.All (· ≤ maxInteger)

/-- Every number of a condition is small enough to be read. -/
def Fits (condition : Condition) : Prop := condition.All (· ≤ maxInteger)

instance (condition : Condition) : Decidable condition.Fits :=
  inferInstanceAs (Decidable (condition.All _))

instance (condition : Condition) : Decidable condition.NoEmptyGroup :=
  inferInstanceAs (Decidable (∀ group ∈ condition.groups, _))

theorem Separated.forall_mem {Piece : Tokens → α → Prop} {separator : Token → Bool} {p : α → Prop}
    (hpiece : ∀ tokens a, Piece tokens a → p a) {tokens : Tokens} {as : List α}
    (h : Separated Piece separator tokens as) : ∀ a ∈ as, p a := by
  induction h with
  | last piece =>
      intro a ha
      rw [List.mem_singleton.mp ha]
      exact hpiece _ _ piece
  | more piece hmark hrest ih =>
      intro a ha
      rcases List.mem_cons.mp ha with rfl | ha
      · exact hpiece _ _ piece
      · exact ih a ha

theorem DerivesInterval.fits {tokens : Tokens} {interval : Interval}
    (h : DerivesInterval tokens interval) : IntervalFits interval := by
  cases h with
  | single hvalue => exact ⟨hvalue.le_max, hvalue.le_max⟩
  | range hlow hsign hhigh => exact ⟨hlow.le_max, hhigh.le_max⟩

theorem DerivesRanges.fits {tokens : Tokens} {ranges : RangeList}
    (h : DerivesRanges tokens ranges) : ∀ interval ∈ ranges.toList, IntervalFits interval := by
  have hinterval : ∀ tokens interval, DerivesInterval tokens interval → IntervalFits interval :=
    fun _ _ => DerivesInterval.fits
  exact Separated.forall_mem hinterval h

theorem DerivesComparison.fits {outer inner : Bool} {tokens : Tokens} {comparison : Comparison}
    (h : DerivesComparison outer tokens comparison inner) :
    ∀ interval ∈ comparison.ranges, IntervalFits interval := by
  cases h with
  | equality hword hnot hone hvalue =>
      intro interval hmem
      rw [List.mem_singleton.mp hmem]
      exact ⟨hvalue.le_max, hvalue.le_max⟩
  | membership hmark hranges => exact DerivesRanges.fits hranges
  | exclusion hsign hranges => exact DerivesRanges.fits hranges
  | within hword hranges => exact DerivesRanges.fits hranges

theorem DerivesRelation.fits {tokens : Tokens} {relation : Relation}
    (h : DerivesRelation tokens relation) : RelationFits relation := by
  cases h with
  | intro hexpression hnot htest =>
      refine ⟨?_, htest.fits⟩
      cases hexpression with
      | plain hname => nofun
      | remainder hname hmark hvalue =>
          intro modulus hmem
          cases hmem
          exact hvalue.le_max

/-- Only conditions without empty groups and too large numbers are ever read. -/
theorem Derives.noEmptyGroup_and_fits {tokens : Tokens} {condition : Condition}
    (h : Derives tokens condition) : condition.NoEmptyGroup ∧ condition.Fits := by
  cases h with
  | always => exact ⟨nofun, nofun⟩
  | groups hgroups =>
      constructor
      · exact hgroups.forall_mem fun _ _ hgroup => hgroup.ne_nil
      · exact hgroups.forall_mem fun _ _ hgroup =>
          hgroup.forall_mem fun _ _ hrelation => hrelation.fits

end Condition

/-! ## Texts and their tokens -/

namespace Condition

/-- Wherever the text stands, it is cut into tokens of the language. -/
def Spells (text : List Char) (Language : Tokens → Prop) : Prop :=
  ∀ position, ∃ tokens, Cuts position text tokens ∧ Language tokens

def Then (Piece Rest : Tokens → Prop) (tokens : Tokens) : Prop :=
  ∃ taken rest, tokens = taken ++ rest ∧ Piece taken ∧ Rest rest

/-- Before a text that begins with a character of the class `follow`, or is empty, the given text
adds the tokens of a piece. -/
def Writes (text : List Char) (follow : Char → Prop) (Piece : Tokens → Prop) : Prop :=
  ∀ (rest : List Char) (Rest : Tokens → Prop), Ahead follow rest → Spells rest Rest →
    Spells (text ++ rest) (Then Piece Rest)

def One (p : Token → Prop) (tokens : Tokens) : Prop :=
  ∃ token, tokens = [token] ∧ p token

theorem Writes.mono {text : List Char} {follow : Char → Prop} {P Q : Tokens → Prop}
    (h : Writes text follow P) (hpq : ∀ tokens, P tokens → Q tokens) : Writes text follow Q := by
  intro rest Rest hrest hspells position
  obtain ⟨tokens, hcuts, taken, left, htokens, hpiece, hleft⟩ := h rest Rest hrest hspells position
  exact ⟨tokens, hcuts, taken, left, htokens, hpq taken hpiece, hleft⟩

theorem Writes.weaken {text : List Char} {f g : Char → Prop} {P : Tokens → Prop}
    (h : Writes text f P) (hgf : ∀ c, g c → f c) : Writes text g P := by
  intro rest Rest hrest hspells
  exact h rest Rest (hrest.mono hgf) hspells

/-- Two written pieces make one, if the second may follow the first. -/
theorem Writes.append {s t : List Char} {f g : Char → Prop} {P Q R : Tokens → Prop}
    (hs : Writes s f P) (ht : Writes t g Q) (hfit : ∀ rest, Ahead g rest → Ahead f (t ++ rest))
    (hjoin : ∀ a b, P a → Q b → R (a ++ b)) : Writes (s ++ t) g R := by
  intro rest Rest hrest hspells position
  rw [List.append_assoc]
  obtain ⟨tokens, hcuts, a, others, htokens, ha, b, left, hothers, hb, hleft⟩ :=
    hs (t ++ rest) _ (hfit rest hrest) (ht rest Rest hrest hspells) position
  refine ⟨tokens, hcuts, a ++ b, left, ?_, hjoin a b ha hb, hleft⟩
  rw [htokens, hothers, List.append_assoc]

theorem Writes.blank {text : List Char} {follow : Char → Prop} {P : Tokens → Prop}
    (h : Writes text follow P) : Writes (' ' :: text) follow P := by
  intro rest Rest hrest hspells position
  obtain ⟨tokens, hcuts, hthen⟩ := h rest Rest hrest hspells (position + 1)
  exact ⟨tokens, .blank rfl hcuts, hthen⟩

theorem Writes.before_blank {s t : List Char} {f g : Char → Prop} {P Q : Tokens → Prop}
    (hs : Writes s f P) (hblank : f ' ') (ht : Writes t g Q) :
    Writes (s ++ ' ' :: t) g (Then P Q) :=
  hs.append ht.blank (fun _ _ => ahead_cons.mpr hblank) fun a b ha hb => ⟨a, b, rfl, ha, hb⟩

theorem Writes.append_blank {text : List Char} {follow : Char → Prop} {P : Tokens → Prop}
    (h : Writes text follow P) (hblank : follow ' ') : Writes (text ++ [' ']) (fun _ => True) P := by
  intro rest Rest _ hspells position
  have hrest : Spells (' ' :: rest) Rest := by
    intro position
    obtain ⟨tokens, hcuts, hlanguage⟩ := hspells (position + 1)
    exact ⟨tokens, .blank rfl hcuts, hlanguage⟩
  rw [List.append_assoc, List.singleton_append]
  exact h (' ' :: rest) Rest (ahead_cons.mpr hblank) hrest position

theorem writes_lexeme {kind : TokenKind} {piece : List Char} (h : IsLexeme kind piece) :
    Writes piece (fun c => kind.continues c = false)
      (One fun token => token.kind = kind ∧ token.text = String.ofList piece) := by
  intro rest Rest hrest hspells position
  obtain ⟨tokens, hcuts, hlanguage⟩ := hspells (position + piece.length)
  exact ⟨_, .token h hrest hcuts, [_], tokens, rfl, ⟨_, rfl, rfl, rfl⟩, hlanguage⟩

theorem writes_word (word : String) (hne : word.toList ≠ [])
    (hall : word.toList.all isLetter = true) :
    Writes word.toList (fun c => isLetter c = false) (One fun token => token.isWord word = true) := by
  apply (writes_lexeme (.word hne (List.all_eq_true.mp hall))).mono
  intro tokens hpieces
  rcases hpieces with ⟨token, rfl, hkind, htext⟩
  refine ⟨token, rfl, ?_⟩
  rw [String.ofList_toList] at htext
  simp [Token.isWord, hkind, htext]

theorem writes_sign {kind : TokenKind} {piece : List Char} (h : IsLexeme kind piece)
    (hsign : ∀ c, kind.continues c = false) :
    Writes piece (fun _ => True) (One fun token => token.isKind kind = true) := by
  apply ((writes_lexeme h).weaken fun c _ => hsign c).mono
  intro tokens hpieces
  rcases hpieces with ⟨token, rfl, hkind, _⟩
  exact ⟨token, rfl, by simp [Token.isKind, hkind]⟩

theorem writes_number {value : Nat} (hle : value ≤ maxInteger) :
    Writes (Nat.toDigits 10 value) (fun c => isDigit c = false)
      (One fun token => Literal token value) := by
  have hdigits : ∀ c ∈ Nat.toDigits 10 value, isDigit c = true := by
    intro c hc
    exact Nat.isDigit_of_mem_toDigits (by decide) (by decide) hc
  apply (writes_lexeme (.number Nat.toDigits_ne_nil hdigits)).mono
  intro tokens hpieces
  rcases hpieces with ⟨token, rfl, hkind, htext⟩
  refine ⟨token, rfl, hkind, ?_, hle⟩
  rw [htext, String.toList_ofList, digitsValue_toDigits]

theorem writes_separated {Piece : Tokens → α → Prop} {separator : Token → Bool}
    {render : α → List Char} {mark : List Char} {follow : Char → Prop}
    (hmark : Writes mark (fun _ => True) (One fun token => separator token = true))
    (hfollow : ∀ rest, Ahead follow (mark ++ rest)) {as : List α} (hne : as ≠ [])
    (hpiece : ∀ a ∈ as, Writes (render a) follow (Piece · a)) :
    Writes (mark.intercalate (as.map render)) follow (Separated Piece separator · as) := by
  induction as with
  | nil => exact absurd rfl hne
  | cons a others ih =>
      have ha := hpiece a List.mem_cons_self
      cases others with
      | nil => simpa using ha.mono fun tokens h => .last h
      | cons b others =>
          have hothers := ih (by simp) fun c hc => hpiece c (List.mem_cons_of_mem a hc)
          have hrest : Writes (mark ++ mark.intercalate ((b :: others).map render)) follow
              (Then (One fun token => separator token = true)
                (Separated Piece separator · (b :: others))) :=
            hmark.append hothers (fun rest _ _ _ => trivial) fun x y hx hy => ⟨x, y, rfl, hx, hy⟩
          rw [List.map_cons, List.map_cons, List.intercalate_cons_cons, List.append_assoc]
          refine ha.append hrest (fun rest _ => ?_) ?_
          · rw [List.append_assoc]
            exact hfollow _
          · rintro x y hx ⟨_, z, rfl, ⟨token, rfl, htoken⟩, hz⟩
            exact .more hx htoken hz

/-! ## Writing conditions -/

def IsApart (c : Char) : Prop := isLetter c = false ∧ isDigit c = false

theorem toList_toString (n : Nat) : (toString n).toList = Nat.toDigits 10 n := by
  simp

theorem writes_interval {interval : Interval} (h : IntervalFits interval) :
    Writes interval.text.toList (fun c => isDigit c = false) (DerivesInterval · interval) := by
  by_cases hsingle : interval.isSingle = true
  · have heq := Interval.eq_single_of_isSingle hsingle
    rw [Interval.text, if_pos hsingle, toList_toString]
    apply (writes_number h.1).mono
    intro tokens hpieces
    rcases hpieces with ⟨token, rfl, hvalue⟩
    rw [heq]
    exact .single hvalue
  · have hsign : Writes "..".toList (fun _ => True) (One fun token => token.isKind .range = true) :=
      writes_sign .range fun _ => rfl
    have hupper : Writes ("..".toList ++ Nat.toDigits 10 interval.upper)
        (fun c => isDigit c = false)
        (Then (One fun token => token.isKind .range = true)
          (One fun token => Literal token interval.upper)) :=
      hsign.append (writes_number h.2) (fun rest _ _ _ => trivial)
        fun a b ha hb => ⟨a, b, rfl, ha, hb⟩
    rw [Interval.text, if_neg hsingle, String.toList_append, String.toList_append,
      toList_toString, toList_toString, List.append_assoc]
    apply (writes_number h.1).append hupper (fun rest _ => ahead_cons.mpr (by decide))
    rintro a b ⟨low, rfl, hlow⟩ ⟨_, _, rfl, ⟨sign, rfl, hsign⟩, high, rfl, hhigh⟩
    exact .range hlow hsign hhigh

theorem writes_ranges {ranges : List Interval} (hne : ranges ≠ [])
    (h : ∀ interval ∈ ranges, IntervalFits interval) :
    Writes (",".intercalate (ranges.map Interval.text)).toList (fun c => isDigit c = false)
      (Separated DerivesInterval (·.isKind .comma) · ranges) := by
  have hmark : Writes ",".toList (fun _ => True) (One fun token => token.isKind .comma = true) :=
    writes_sign .comma fun _ => rfl
  rw [String.toList_intercalate, List.map_map]
  exact writes_separated hmark (fun rest => ahead_cons.mpr (by decide)) hne
    fun interval hmem => writes_interval (h interval hmem)

def DerivesTest (comparison : Comparison) (negated : Bool) (tokens : Tokens) : Prop :=
  ∃ nots outer test inner, tokens = nots ++ test ∧ DerivesNot nots outer ∧
    DerivesComparison outer test comparison inner ∧ negated = (outer ^^ inner)

theorem writes_equality {value : Nat} (hle : value ≤ maxInteger) (negated : Bool) :
    Writes ((Comparison.keyword .equality negated).toList ++ ' ' :: Nat.toDigits 10 value)
      (fun c => isDigit c = false) (DerivesTest (.equality value) negated) := by
  have his := writes_word "is" (by decide) (by decide)
  have hnumber := writes_number hle
  cases negated with
  | false =>
      apply (his.before_blank (by decide) hnumber).mono
      intro tokens hpieces
      rcases hpieces with ⟨_, _, rfl, ⟨token, rfl, hword⟩, number, rfl, hvalue⟩
      exact ⟨[], false, token :: ([] ++ [number]), false, rfl, .absent,
        .equality hword .absent (by simp) hvalue, rfl⟩
  | true =>
      have hnot := writes_word "not" (by decide) (by decide)
      apply (his.before_blank (by decide) (hnot.before_blank (by decide) hnumber)).mono
      intro tokens hpieces
      rcases hpieces with ⟨_, _, rfl, ⟨token, rfl, hword⟩, _, _, rfl, ⟨sign, rfl, hsign⟩, number,
        rfl, hvalue⟩
      exact ⟨[], false, token :: ([sign] ++ [number]), true, rfl, .absent,
        .equality hword (.present hsign) (by simp) hvalue, rfl⟩

theorem writes_membership {ranges : RangeList}
    (h : ∀ interval ∈ ranges.toList, IntervalFits interval) (negated : Bool) :
    Writes ((Comparison.keyword .membership negated).toList ++
        ' ' :: (",".intercalate (ranges.toList.map Interval.text)).toList)
      (fun c => isDigit c = false) (DerivesTest (.membership ranges) negated) := by
  have hranges := writes_ranges ranges.toList_ne_nil h
  cases negated with
  | false =>
      have hsign := writes_sign .equals fun _ => rfl
      apply (hsign.before_blank trivial hranges).mono
      intro tokens hpieces
      rcases hpieces with ⟨_, others, rfl, ⟨token, rfl, hkind⟩, hderived⟩
      exact ⟨[], false, token :: others, false, rfl, .absent,
        .membership (by simp [isMembershipMark, hkind]) hderived, rfl⟩
  | true =>
      have hsign := writes_sign .notEquals fun _ => rfl
      apply (hsign.before_blank trivial hranges).mono
      intro tokens hpieces
      rcases hpieces with ⟨_, others, rfl, ⟨token, rfl, hkind⟩, hderived⟩
      exact ⟨[], false, token :: others, true, rfl, .absent, .exclusion hkind hderived, rfl⟩

theorem writes_within {ranges : RangeList}
    (h : ∀ interval ∈ ranges.toList, IntervalFits interval) (negated : Bool) :
    Writes ((Comparison.keyword .within negated).toList ++
        ' ' :: (",".intercalate (ranges.toList.map Interval.text)).toList)
      (fun c => isDigit c = false) (DerivesTest (.within ranges) negated) := by
  have hranges := writes_ranges ranges.toList_ne_nil h
  have hwithin := writes_word "within" (by decide) (by decide)
  have htest := hwithin.before_blank (by decide) hranges
  cases negated with
  | false =>
      apply htest.mono
      intro tokens hpieces
      rcases hpieces with ⟨_, others, rfl, ⟨token, rfl, hword⟩, hderived⟩
      exact ⟨[], false, token :: others, false, rfl, .absent, .within hword hderived, rfl⟩
  | true =>
      have hnot := writes_word "not" (by decide) (by decide)
      apply (hnot.before_blank (by decide) htest).mono
      intro tokens hpieces
      rcases hpieces with ⟨_, _, rfl, ⟨sign, rfl, hsign⟩, _, others, rfl, ⟨token, rfl, hword⟩,
        hderived⟩
      exact ⟨[sign], true, token :: others, false, rfl, .present hsign,
        .within hword hderived, rfl⟩

theorem writes_test {comparison : Comparison}
    (h : ∀ interval ∈ comparison.ranges, IntervalFits interval) (negated : Bool) :
    Writes ((Comparison.keyword comparison.operator negated).toList ++
        ' ' :: comparison.rangesText.toList)
      (fun c => isDigit c = false) (DerivesTest comparison negated) := by
  cases comparison with
  | equality value =>
      have hvalue := h (.single value) List.mem_cons_self
      have hranges : (Comparison.equality value).rangesText.toList = Nat.toDigits 10 value := by
        simp [Comparison.rangesText, Comparison.ranges, Interval.text, Interval.single,
          Interval.isSingle]
      rw [hranges]
      exact writes_equality hvalue.1 negated
  | membership ranges => exact writes_membership h negated
  | within ranges => exact writes_within h negated

theorem writes_operand (operand : Operand) :
    Writes operand.name.toList (fun c => isLetter c = false)
      (One fun token => token.isWord operand.name = true) := by
  refine writes_word operand.name ?_ ?_ <;> cases operand <;> decide

theorem writes_expression {relation : Relation} (h : RelationFits relation) :
    Writes relation.expressionText.toList IsApart
      (DerivesExpression · relation.operand relation.modulus) := by
  obtain ⟨operand, modulus, comparison, negated⟩ := relation
  have hoperand := writes_operand operand
  cases modulus with
  | none =>
      apply (hoperand.weaken fun c hc => hc.1).mono
      intro tokens hpieces
      rcases hpieces with ⟨token, rfl, hname⟩
      exact .plain hname
  | some modulus =>
      have hpercent := writes_sign .percent fun _ => rfl
      have hnumber := writes_number (h.1 modulus rfl)
      have htext : (Relation.mk operand (some modulus) comparison negated).expressionText.toList =
          operand.name.toList ++ ' ' :: (['%'] ++ ' ' :: Nat.toDigits 10 modulus.value) := by
        simp [Relation.expressionText]
      rw [htext]
      refine Writes.mono (Writes.weaken (hoperand.before_blank (by decide)
        (hpercent.before_blank trivial hnumber)) fun c hc => hc.2) ?_
      intro tokens hpieces
      rcases hpieces with ⟨_, _, rfl, ⟨token, rfl, hname⟩, _, _, rfl, ⟨mark, rfl, hmark⟩, number,
        rfl, hvalue⟩
      exact .remainder hname (by simp [isModulusMark, hmark]) hvalue

theorem writes_relation {relation : Relation} (h : RelationFits relation) :
    Writes relation.text.toList (fun c => isDigit c = false) (DerivesRelation · relation) := by
  have hexpression := writes_expression h
  have htest := writes_test h.2 relation.negated
  have htext : relation.text.toList = relation.expressionText.toList ++
      ' ' :: ((Comparison.keyword relation.comparison.operator relation.negated).toList ++
        ' ' :: relation.comparison.rangesText.toList) := by
    simp [Relation.text]
  rw [htext]
  refine (hexpression.before_blank ⟨by decide, by decide⟩ htest).mono ?_
  intro tokens hpieces
  rcases hpieces with ⟨expression, _, rfl, hderived, nots, outer, test, inner, rfl, hnot, htest,
    hsign⟩
  have hrelation := DerivesRelation.intro hderived hnot htest
  rw [← hsign] at hrelation
  exact hrelation

theorem writes_separator (word : String) (hne : word.toList ≠ [])
    (hall : word.toList.all isLetter = true) :
    Writes (' ' :: (word.toList ++ [' '])) (fun _ => True)
      (One fun token => token.isWord word = true) :=
  ((writes_word word hne hall).append_blank (by decide)).blank

theorem writes_group {group : List Relation} (hne : group ≠ [])
    (h : ∀ relation ∈ group, RelationFits relation) :
    Writes (groupText group).toList (fun c => isDigit c = false) (DerivesConjunction · group) := by
  have hmark := writes_separator "and" (by decide) (by decide)
  rw [groupText, String.toList_intercalate, List.map_map]
  exact writes_separated hmark (fun rest => ahead_cons.mpr (by decide)) hne
    fun relation hmem => writes_relation (h relation hmem)

theorem writes_condition {condition : Condition} (hgroups : condition.NoEmptyGroup)
    (hfits : condition.Fits) :
    Writes condition.text.toList (fun c => isDigit c = false) (Derives · condition) := by
  obtain ⟨groups⟩ := condition
  by_cases hne : groups = []
  · subst hne
    intro rest Rest _ hspells position
    obtain ⟨tokens, hcuts, hlanguage⟩ := hspells position
    exact ⟨tokens, hcuts, [], tokens, rfl, .always, hlanguage⟩
  · have hmark := writes_separator "or" (by decide) (by decide)
    have hwrites := writes_separated hmark (fun rest => ahead_cons.mpr (by decide)) hne
      fun group hmem => writes_group (hgroups group hmem) (hfits group hmem)
    rw [text, String.toList_intercalate, List.map_map]
    exact hwrites.mono fun tokens h => .groups h

/-! ## Reading what was written -/

theorem spells_blanks {blanks : List Char} (h : ∀ c ∈ blanks, isBlank c = true) :
    Spells blanks (· = []) :=
  fun position => ⟨[], cuts_blanks h position, rfl⟩

/-- A text that writes a condition is read as that condition, with blanks behind it and the samples
of a rule behind those; reading stops behind the blanks. -/
theorem readText_of_writes {text : List Char} {condition : Condition}
    (hwrites : Writes text (fun c => isDigit c = false) (Derives · condition))
    {blanks rest : List Char} (hblanks : ∀ c ∈ blanks, isBlank c = true)
    (hrest : Ahead (· = sampleMarker) rest)
    (hlength : ((text ++ blanks) ++ rest).length ≤ maxRuleLength) :
    readText ((text ++ blanks) ++ rest) = .ok (condition, (text ++ blanks).length) := by
  have hahead : Ahead (fun c => isDigit c = false) blanks := ahead_of_blanks hblanks .number
  obtain ⟨tokens, hcuts, taken, left, rfl, hderived, rfl⟩ :=
    hwrites blanks _ hahead (spells_blanks hblanks) 0
  have hscan := hcuts.scan_append hrest
  rw [List.append_nil] at hscan
  rw [Nat.zero_add] at hscan
  exact readText_eq_ok_iff.mpr ⟨hlength, taken, hscan, hderived⟩

theorem parse_of_writes {text : String} {condition : Condition}
    (hwrites : Writes text.toList (fun c => isDigit c = false) (Derives · condition))
    (hlength : text.length ≤ maxRuleLength) : parse text = .ok condition := by
  have hlist : ((text.toList ++ []) ++ []).length ≤ maxRuleLength := by
    rwa [List.append_nil, List.append_nil, String.length_toList]
  have hblanks : ∀ c ∈ ([] : List Char), isBlank c = true := nofun
  have hread := readText_of_writes hwrites hblanks (ahead_nil _) hlist
  rw [List.append_nil, List.append_nil] at hread
  exact parse_eq_ok_iff.mpr ⟨_, hread⟩

theorem parse_text {condition : Condition} (hgroups : condition.NoEmptyGroup)
    (hfits : condition.Fits) (hlength : condition.text.length ≤ maxRuleLength) :
    parse condition.text = .ok condition :=
  parse_of_writes (writes_condition hgroups hfits) hlength

/-- What reading gives has a length that was allowed, and only groups and numbers that are. -/
theorem parse_ok_bounds {source : String} {condition : Condition}
    (h : parse source = .ok condition) :
    source.length ≤ maxRuleLength ∧ condition.NoEmptyGroup ∧ condition.Fits := by
  obtain ⟨stop, hread⟩ := parse_eq_ok_iff.mp h
  obtain ⟨hlength, tokens, hscan, hderived⟩ := readText_eq_ok_iff.mp hread
  rw [String.length_toList] at hlength
  exact ⟨hlength, hderived.noEmptyGroup_and_fits⟩

theorem readText_tooLong {text : List Char} (h : maxRuleLength < text.length) :
    ∃ next, readText text = .error ⟨.tooLong next, maxRuleLength⟩ := by
  cases hdrop : text.drop maxRuleLength with
  | nil =>
      have hle := List.drop_eq_nil_iff.mp hdrop
      omega
  | cons next others =>
      refine ⟨next, ?_⟩
      simp only [readText, checkLength, hdrop, bind, Except.bind]

/-! ## Writing and reading -/

/-- What can be read can be written. -/
theorem render_of_fits {condition : Condition} (h : condition.Fits) :
    condition.render = .ok condition.text :=
  condition.writing.eq_ok (h.mono fun _ => isShort_of_le_maxInteger)

/-- Writing and reading give a condition back just when none of its groups is empty, its numbers
are small enough and its text is short enough.  Otherwise it has an integer that cannot be written,
or its text is refused or means something else. -/
theorem parse_render_eq_ok_iff (condition : Condition) :
    ((∃ text, condition.render = .ok text ∧ parse text = .ok condition) ↔
      condition.NoEmptyGroup ∧ condition.Fits ∧
        ∃ text, condition.render = .ok text ∧ text.length ≤ maxRuleLength) ∧
    (condition.render = .error .writing ↔ ¬condition.All (· < 10 ^ maxTextDigits)) ∧
    (¬(condition.NoEmptyGroup ∧ condition.Fits ∧
        ∃ text, condition.render = .ok text ∧ text.length ≤ maxRuleLength) →
      condition.render = .error .writing ∨
        ∃ text, condition.render = .ok text ∧
          ((∃ refusal, parse text = .error refusal) ∨
            ∃ other, parse text = .ok other ∧ other ≠ condition)) := by
  have hiff : (∃ text, condition.render = .ok text ∧ parse text = .ok condition) ↔
      condition.NoEmptyGroup ∧ condition.Fits ∧
        ∃ text, condition.render = .ok text ∧ text.length ≤ maxRuleLength := by
    constructor
    · rintro ⟨text, hrender, hread⟩
      obtain ⟨hlength, hgroups, hfits⟩ := parse_ok_bounds hread
      exact ⟨hgroups, hfits, text, hrender, hlength⟩
    · rintro ⟨hgroups, hfits, text, hrender, hlength⟩
      obtain ⟨-, rfl⟩ := condition.writing.eq_ok_iff.mp hrender
      exact ⟨_, hrender, parse_text hgroups hfits hlength⟩
  refine ⟨hiff, condition.writing.eq_error_iff, ?_⟩
  intro hbad
  by_cases hshort : condition.All IsShort
  · have hrender := condition.writing.eq_ok hshort
    refine .inr ⟨condition.text, hrender, ?_⟩
    cases hread : parse condition.text with
    | error refusal => exact .inl ⟨refusal, rfl⟩
    | ok other =>
        refine .inr ⟨other, rfl, ?_⟩
        rintro rfl
        exact hbad (hiff.mp ⟨_, hrender, hread⟩)
  · exact .inl (condition.writing.eq_error_iff.mpr hshort)

def ofRanges (operand : Operand) (ranges : RangeList) : Condition :=
  ⟨[[{ operand, comparison := .membership ranges }]]⟩

theorem render_ofRanges_pow (operand : Operand) {digits : Nat} (h : maxTextDigits ≤ digits) :
    (ofRanges operand ⟨.single (10 ^ digits), []⟩).render = .error .writing := by
  rw [(Condition.writing _).eq_error_iff]
  intro hshort
  obtain ⟨-, hranges⟩ := hshort _ List.mem_cons_self _ List.mem_cons_self
  obtain ⟨hlower, -⟩ := hranges _ List.mem_cons_self
  exact Nat.not_lt.mpr (Nat.pow_le_pow_right (by decide) h) hlower

/-- An integer of five thousand digits and one cannot be written, so there is no text to read. -/
theorem render_ofRanges_ten_pow :
    (ofRanges .n ⟨.single (10 ^ 5000), []⟩).render = .error .writing := by
  have hlong : maxTextDigits ≤ 5000 := by decide
  have hstopped := render_ofRanges_pow .n hlong
  exact hstopped

end Condition

end PluralForms
