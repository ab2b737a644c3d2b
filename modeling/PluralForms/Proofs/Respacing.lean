import PluralForms.Proofs.Lookahead
import PluralForms.Proofs.TokenPlaces

/-!
# Blanks between tokens

Any two texts that write the same symbols in the same order tokenize to them, whatever blanks stand
around the symbols; only two words or two numbers have to be kept apart.  The parser sees the places
of the tokens nowhere but in refusals, so it makes the same of both texts.
-/

namespace PluralForms

open Text Sample

/-! ## Spaced symbols -/

/-- The text writes the symbols in their order, with blanks around them at will.  Behind a word
there is a blank before the next word, and behind a number before the next number. -/
inductive Spaced : Option TokenKind → List Symbol → List Char → Prop where
  | last {before blanks} (hblanks : Blanks blanks) : Spaced before [] blanks
  | next {before symbol symbols blanks text} (hblanks : Blanks blanks)
      (hgap : before = some symbol.kind → symbol.kind.isRun = true → blanks ≠ [])
      (hrest : Spaced (some symbol.kind) symbols text) :
      Spaced before (symbol :: symbols) (blanks ++ (symbol.text.toList ++ text))

def Symbol.WellFormed (symbol : Symbol) : Prop :=
  IsLexeme symbol.kind symbol.text.toList

section

variable {kind : TokenKind} {before : Option TokenKind} {symbols : List Symbol} {text : List Char}

/-- No symbol goes on in what is written behind it. -/
theorem Spaced.ahead (h : Spaced (some kind) symbols text)
    (hsymbols : ∀ symbol ∈ symbols, symbol.WellFormed) :
    Ahead (fun c => kind.continues c = false) text := by
  cases h with
  | last hblanks => exact ahead_of_blanks hblanks kind
  | @next _ symbol symbols blanks rest hblanks hgap hrest =>
      cases blanks with
      | cons c blanks =>
          exact ahead_cons.mpr (continues_of_isBlank (hblanks c List.mem_cons_self) kind)
      | nil =>
          -- Symbols that touch are not both words and not both numbers.
          have hlexeme : symbol.WellFormed := hsymbols symbol List.mem_cons_self
          have hapart : kind = symbol.kind → kind.isRun = false := by
            rintro rfl
            exact Bool.eq_false_iff.mpr fun hrun => hgap rfl hrun rfl
          exact (hlexeme.ahead_of_apart hapart).append_of_ne_nil hlexeme.ne_nil rest

/-- Wherever a spaced text stands, it is cut into its symbols. -/
theorem Spaced.exists_cuts (h : Spaced before symbols text)
    (hsymbols : ∀ symbol ∈ symbols, symbol.WellFormed) (position : Nat) :
    ∃ tokens, Cuts position text tokens ∧ tokens.map Token.symbol = symbols := by
  induction h generalizing position with
  | last hblanks => exact ⟨[], cuts_blanks hblanks position, rfl⟩
  | @next before symbol symbols blanks text hblanks hgap hrest ih =>
      obtain ⟨hlexeme, hothers⟩ := List.forall_mem_cons.mp hsymbols
      obtain ⟨tokens, hcuts, hsame⟩ :=
        ih hothers (position + blanks.length + symbol.text.toList.length)
      refine ⟨_, .of_blanks hblanks (.token hlexeme (hrest.ahead hothers) hcuts), ?_⟩
      rw [List.map_cons, hsame, String.ofList_toList]
      rfl

theorem Spaced.exists_scan (h : Spaced before symbols text)
    (hsymbols : ∀ symbol ∈ symbols, symbol.WellFormed) :
    ∃ tokens, scan (.whole text) = .ok (tokens, text.length) ∧
      tokens.map Token.symbol = symbols := by
  obtain ⟨tokens, hcuts, hsame⟩ := h.exists_cuts hsymbols 0
  have hscan := hcuts.scan_append (ahead_nil (· = sampleMarker))
  rw [List.append_nil, Nat.zero_add] at hscan
  exact ⟨tokens, hscan, hsame⟩

theorem wellFormed_of_tokenize {source : String} {tokens : List Token} {stop : Nat}
    (h : tokenize source = .ok (tokens, stop)) :
    ∀ symbol ∈ tokens.map Token.symbol, symbol.WellFormed := by
  have hstands := standsIn_of_scan (Suffix.whole_within source.toList)
    (refusedIn_eq_ok_iff.mp h)
  intro symbol hmem
  obtain ⟨token, htoken, rfl⟩ := List.mem_map.mp hmem
  exact (hstands token htoken).isLexeme

end

/-! ## What is made of the tokens -/

namespace Condition

/-- Two readings of tokens at other places come to the same: one condition, a want at both ends, or
a refusal of the tokens at one index. -/
inductive SameReading (first second : String) (firsts seconds : Tokens) :
    Except RuleError Condition → Except RuleError Condition → Prop where
  | read (condition : Condition) :
      SameReading first second firsts seconds (.ok condition) (.ok condition)
  | ended (expected : Expectation) :
      SameReading first second firsts seconds
        (.error ⟨⟨.ended expected, first.length⟩, first⟩)
        (.error ⟨⟨.ended expected, second.length⟩, second⟩)
  | refused {problem : Problem} {index : Nat} {token other : Token}
      (hkind : problem.kind ≠ .unexpectedEnd)
      (hfirst : firsts[index]? = some token) (hsecond : seconds[index]? = some other) :
      SameReading first second firsts seconds
        (.error ⟨⟨problem, token.position⟩, first⟩) (.error ⟨⟨problem, other.position⟩, second⟩)

theorem sameReading_of_alike (first second : String) {firsts seconds : Tokens}
    (h : Alike seconds firsts) :
    SameReading first second firsts seconds
      (refusedIn first (ofTokens first.length firsts))
      (refusedIn second (ofTokens second.length seconds)) := by
  cases hread : ofTokens first.length firsts with
  | ok condition =>
      rw [ofTokens_of_alike hread h]
      exact .read condition
  | error issue =>
      have hsettled := readWhole_settles firsts first.length
      rw [readWhole_eq_error_iff.mpr hread] at hsettled
      cases hsettled with
      | ended hagain =>
          rw [readWhole_eq_error_iff.mp (hagain second.length seconds h)]
          exact .ended _
      | @refused problem before token after htokens hkind hagain =>
          rw [htokens] at h
          obtain ⟨before', after', rfl, hbefore, hafter⟩ := h.exists_append
          obtain ⟨token', after', rfl, htoken, -⟩ := hafter.exists_cons
          rw [readWhole_eq_error_iff.mp (hagain second.length before' token' after' hbefore htoken)]
          -- As many tokens stand before the refused one in both lists.
          have hlength : before'.length = before.length := by
            simpa using congrArg List.length hbefore
          have hfirst : firsts[before.length]? = some token := by
            rw [htokens, List.getElem?_append_right (Nat.le_refl _), Nat.sub_self]
            rfl
          have hsecond : (before' ++ token' :: after')[before.length]? = some token' := by
            rw [← hlength, List.getElem?_append_right (Nat.le_refl _), Nat.sub_self]
            rfl
          exact .refused hkind hfirst hsecond

theorem parse_of_scan {source : String} {tokens : List Token} {stop : Nat}
    (hlength : source.length ≤ maxRuleLength)
    (hscan : scan (.whole source.toList) = .ok (tokens, stop)) :
    parse source = refusedIn source (ofTokens stop tokens) := by
  have hshort : checkLength source.toList = .ok () := checkLength_eq_ok_iff.mpr hlength
  simp only [parse, readText, hshort, hscan, bind, Except.bind]
  cases ofTokens stop tokens <;> rfl

/-- Blanks have no part in what a condition is.  The tokens of a source, written with any blanks
around them in two texts, are the same tokens there, and both texts are read as the same condition
or refused at the same token or at their ends. -/
theorem parse_respaced {source first second : String} {tokens : List Token} {stop : Nat}
    (h : tokenize source = .ok (tokens, stop))
    (hfirst : Spaced none (tokens.map Token.symbol) first.toList)
    (hsecond : Spaced none (tokens.map Token.symbol) second.toList)
    (hfirstLength : first.length ≤ maxRuleLength) (hsecondLength : second.length ≤ maxRuleLength) :
    ∃ firsts seconds,
      tokenize first = .ok (firsts, first.length) ∧
      tokenize second = .ok (seconds, second.length) ∧
      firsts.map Token.symbol = tokens.map Token.symbol ∧
      seconds.map Token.symbol = tokens.map Token.symbol ∧
      SameReading first second firsts seconds (parse first) (parse second) := by
  have hsymbols := wellFormed_of_tokenize h
  obtain ⟨firsts, hfirsts, hfirstSame⟩ := hfirst.exists_scan hsymbols
  obtain ⟨seconds, hseconds, hsecondSame⟩ := hsecond.exists_scan hsymbols
  rw [String.length_toList] at hfirsts hseconds
  refine ⟨firsts, seconds, refusedIn_eq_ok_iff.mpr hfirsts, refusedIn_eq_ok_iff.mpr hseconds,
    hfirstSame, hsecondSame, ?_⟩
  rw [parse_of_scan hfirstLength hfirsts, parse_of_scan hsecondLength hseconds]
  exact sameReading_of_alike first second (hsecondSame.trans hfirstSame.symm)

/-- With no blank in front of `3`, and with blanks of all kinds around every token, the comma is
refused as the fourth token. -/
theorem parse_respaced_comma :
    ∃ tokens firsts seconds,
      tokenize "n is 3 ," = .ok (tokens, 8) ∧
      Spaced none (tokens.map Token.symbol) "n is3,".toList ∧
      Spaced none (tokens.map Token.symbol) "\tn\r\nis 3 , ".toList ∧
      tokenize "n is3," = .ok (firsts, 6) ∧ tokenize "\tn\r\nis 3 , " = .ok (seconds, 11) ∧
      firsts.map Token.symbol = tokens.map Token.symbol ∧
      seconds.map Token.symbol = tokens.map Token.symbol ∧
      SameReading "n is3," "\tn\r\nis 3 , " firsts seconds
        (parse "n is3,") (parse "\tn\r\nis 3 , ") ∧
      parse "n is3," = .error ⟨⟨.unexpected "," (some .continuation), 5⟩, "n is3,"⟩ := by
  have htokens : tokenize "n is 3 ," =
      .ok ([⟨.word, "n", 0⟩, ⟨.word, "is", 2⟩, ⟨.number, "3", 5⟩, ⟨.comma, ",", 7⟩], 8) := by
    decide +kernel
  have hrefused : parse "n is3," =
      .error ⟨⟨.unexpected "," (some .continuation), 5⟩, "n is3,"⟩ := by
    decide +kernel
  have hdense : "n is3,".toList =
      [] ++ ("n".toList ++ ([' '] ++ ("is".toList ++ ([] ++ ("3".toList ++ ([] ++ (",".toList ++
        []))))))) := by
    decide
  have hloose : "\tn\r\nis 3 , ".toList =
      ['\t'] ++ ("n".toList ++ (['\r', '\n'] ++ ("is".toList ++ ([' '] ++ ("3".toList ++ ([' '] ++
        (",".toList ++ [' ']))))))) := by
    decide
  have hfirst : Spaced none [⟨.word, "n"⟩, ⟨.word, "is"⟩, ⟨.number, "3"⟩, ⟨.comma, ","⟩]
      "n is3,".toList := by
    rw [hdense]
    exact .next blanks_nil nofun (.next blanks_space (by simp) (.next blanks_nil nofun
      (.next blanks_nil nofun (.last blanks_nil))))
  have hsecond : Spaced none [⟨.word, "n"⟩, ⟨.word, "is"⟩, ⟨.number, "3"⟩, ⟨.comma, ","⟩]
      "\tn\r\nis 3 , ".toList := by
    rw [hloose]
    exact .next (by simp [Blanks, isBlank]) nofun (.next (by simp [Blanks, isBlank]) (by simp)
      (.next blanks_space nofun (.next blanks_space nofun (.last blanks_space))))
  obtain ⟨firsts, seconds, hfirsts, hseconds, hsame⟩ :=
    parse_respaced htokens hfirst hsecond (by decide) (by decide)
  exact ⟨_, firsts, seconds, htokens, hfirst, hsecond, hfirsts, hseconds, hsame.1, hsame.2.1,
    hsame.2.2, hrefused⟩

end Condition

end PluralForms
