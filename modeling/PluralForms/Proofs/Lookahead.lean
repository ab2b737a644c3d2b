import PluralForms.Proofs.Grammar

/-!
# One token of look-ahead

A reader of conditions decides by the tokens that it takes and by the one behind them, and of these
it sees kinds and texts only.  So what it takes and what it refuses is the same whatever follows,
and wherever the tokens stand; their places only come back in refusals.
-/

namespace PluralForms

/-- A token as it is spelled, wherever it stands. -/
structure Symbol where
  kind : TokenKind
  text : String
  deriving DecidableEq, Repr

def Token.symbol (token : Token) : Symbol := ⟨token.kind, token.text⟩

namespace Condition

/-! ## Tokens that differ in their places -/

def Alike (s t : Tokens) : Prop := s.map Token.symbol = t.map Token.symbol

def SameNext (s t : Tokens) : Prop := s.head?.map Token.symbol = t.head?.map Token.symbol

theorem Alike.exists_append {r s t : Tokens} (h : Alike r (s ++ t)) :
    ∃ s' t', r = s' ++ t' ∧ Alike s' s ∧ Alike t' t := by
  rw [Alike, List.map_append] at h
  exact List.map_eq_append_iff.mp h

theorem Alike.exists_cons {r t : Tokens} {token : Token} (h : Alike r (token :: t)) :
    ∃ token' t', r = token' :: t' ∧ token'.symbol = token.symbol ∧ Alike t' t := by
  rw [Alike, List.map_cons] at h
  exact List.map_eq_cons_iff.mp h

theorem Alike.eq_nil {s : Tokens} (h : Alike s []) : s = [] :=
  List.map_eq_nil_iff.mp h

theorem SameNext.append {s s' t t' : Tokens} (hs : Alike s' s) (ht : SameNext t' t) :
    SameNext (s' ++ t') (s ++ t) := by
  simp only [SameNext, ← List.head?_map] at ht ⊢
  rw [List.map_append, List.map_append, List.head?_append, List.head?_append, hs, ht]

theorem Alike.sameNext {s s' : Tokens} (h : Alike s' s) : SameNext s' s := by
  simp only [SameNext, ← List.head?_map]
  rw [h]

theorem SameNext.eq_nil {s : Tokens} (h : SameNext s []) : s = [] := by
  simpa [SameNext] using h

theorem SameNext.exists_cons {s t : Tokens} {token : Token} (h : SameNext s (token :: t)) :
    ∃ token' t', s = token' :: t' ∧ token'.symbol = token.symbol := by
  cases s with
  | nil => simp [SameNext] at h
  | cons first rest => exact ⟨first, rest, rfl, by simpa [SameNext] using h⟩

/-! ## Settled outcomes -/

abbrev Reader (α : Type) := Nat → Tokens → Except Issue (α × Tokens)

/-- What a reader gives for some tokens, and gives again for all that are spelled like the tokens
that decide it: those that are taken and the next one; all of them, where another is missing; or
those up to the refused one. -/
inductive Settled (read : Reader α) (stop : Nat) (tokens : Tokens) :
    Except Issue (α × Tokens) → Prop where
  | taken {taken a rest} (htokens : tokens = taken ++ rest)
      (hagain : ∀ stop' taken' rest', Alike taken' taken → SameNext rest' rest →
        read stop' (taken' ++ rest') = .ok (a, rest')) :
      Settled read stop tokens (.ok (a, rest))
  | ended {expected}
      (hagain : ∀ stop' tokens', Alike tokens' tokens →
        read stop' tokens' = .error ⟨.ended expected, stop'⟩) :
      Settled read stop tokens (.error ⟨.ended expected, stop⟩)
  | refused {problem before token after} (htokens : tokens = before ++ token :: after)
      (hkind : problem.kind ≠ .unexpectedEnd)
      (hagain : ∀ stop' before' token' after', Alike before' before →
        token'.symbol = token.symbol →
        read stop' (before' ++ token' :: after') = .error ⟨problem, token'.position⟩) :
      Settled read stop tokens (.error ⟨problem, token.position⟩)

def Settles (read : Reader α) (tokens : Tokens) : Prop :=
  ∀ stop, Settled read stop tokens (read stop tokens)

section Settles

variable {read : Reader α} {tokens rest : Tokens} {token : Token}

theorem Settles.keep (a : α) (tokens : Tokens) :
    Settles (fun _ tokens => .ok (a, tokens)) tokens := by
  intro stop
  refine .taken (List.nil_append tokens).symm ?_
  intro stop' taken' rest' htaken _
  rw [htaken.eq_nil, List.nil_append]

theorem Settles.nil {expected : Expectation}
    (h : ∀ stop, read stop [] = .error ⟨.ended expected, stop⟩) : Settles read [] := by
  intro stop
  rw [h]
  refine .ended ?_
  intro stop' tokens' halike
  rw [halike.eq_nil, h]

/-- The first token is refused by what it is. -/
theorem Settles.refuse {problem : Problem} (hkind : problem.kind ≠ .unexpectedEnd)
    (h : ∀ stop token' rest', token'.symbol = token.symbol →
      read stop (token' :: rest') = .error ⟨problem, token'.position⟩) :
    Settles read (token :: rest) := by
  intro stop
  rw [h stop token rest rfl]
  refine .refused (List.nil_append _).symm hkind ?_
  intro stop' before' token' after' hbefore htoken
  rw [hbefore.eq_nil, List.nil_append, h stop' token' after' htoken]

theorem Settles.congr {other : Reader α}
    (h : ∀ stop tokens', SameNext tokens' tokens → read stop tokens' = other stop tokens')
    (hother : Settles other tokens) : Settles read tokens := by
  intro stop
  rw [h stop tokens rfl]
  have hsettled := hother stop
  generalize other stop tokens = outcome at hsettled ⊢
  cases hsettled with
  | taken htokens hagain =>
      refine .taken htokens ?_
      intro stop' taken' rest' htaken hrest
      rw [h stop' _ (htokens ▸ SameNext.append htaken hrest)]
      exact hagain stop' taken' rest' htaken hrest
  | ended hagain =>
      refine .ended ?_
      intro stop' tokens' halike
      rw [h stop' tokens' halike.sameNext]
      exact hagain stop' tokens' halike
  | @refused problem before token after htokens hkind hagain =>
      refine .refused htokens hkind ?_
      intro stop' before' token' after' hbefore htoken
      have hnext : SameNext (token' :: after') (token :: after) := by
        simp [SameNext, htoken]
      rw [h stop' _ (htokens ▸ SameNext.append hbefore hnext)]
      exact hagain stop' before' token' after' hbefore htoken

/-- The first token is taken for what it is, and the reader goes on as another one. -/
theorem Settles.cons {next : Reader α}
    (h : ∀ stop token' rest', token'.symbol = token.symbol →
      read stop (token' :: rest') = next stop rest')
    (hnext : Settles next rest) : Settles read (token :: rest) := by
  intro stop
  rw [h stop token rest rfl]
  have hsettled := hnext stop
  generalize next stop rest = outcome at hsettled ⊢
  cases hsettled with
  | @taken taken a last htokens hagain =>
      have hsplit : token :: rest = token :: taken ++ last := congrArg (token :: ·) htokens
      refine .taken hsplit ?_
      intro stop' taken' rest' htaken hrest
      obtain ⟨token', tail, rfl, htoken, htail⟩ := htaken.exists_cons
      rw [List.cons_append, h stop' token' _ htoken]
      exact hagain stop' tail rest' htail hrest
  | ended hagain =>
      refine .ended ?_
      intro stop' tokens' halike
      obtain ⟨token', tail, rfl, htoken, htail⟩ := halike.exists_cons
      rw [h stop' token' _ htoken]
      exact hagain stop' tail htail
  | @refused problem before culprit after htokens hkind hagain =>
      have hsplit : token :: rest = token :: before ++ culprit :: after :=
        congrArg (token :: ·) htokens
      refine .refused hsplit hkind ?_
      intro stop' before' culprit' after' hbefore hculprit
      obtain ⟨token', tail, rfl, htoken, htail⟩ := hbefore.exists_cons
      rw [List.cons_append, h stop' token' _ htoken]
      exact hagain stop' tail culprit' after' htail hculprit

/-- Readers that settle what they give do so one after the other. -/
theorem Settles.bind {first : Reader α} {next : Nat → α × Tokens → Except Issue (β × Tokens)}
    (hfirst : Settles first tokens)
    (hnext : ∀ stop a rest, first stop tokens = .ok (a, rest) →
      Settles (fun stop rest => next stop (a, rest)) rest) :
    Settles (fun stop tokens => first stop tokens >>= next stop) tokens := by
  intro stop
  have hsettled := hfirst stop
  show Settled _ stop tokens (first stop tokens >>= next stop)
  generalize hout : first stop tokens = outcome at hsettled ⊢
  cases hsettled with
  | ended hagain =>
      refine .ended ?_
      intro stop' tokens' halike
      rw [hagain stop' tokens' halike]
      rfl
  | refused htokens hkind hagain =>
      refine .refused htokens hkind ?_
      intro stop' before' token' after' hbefore htoken
      rw [hagain stop' before' token' after' hbefore htoken]
      rfl
  | @taken taken a rest htokens hagain =>
      have hsecond : Settled (fun stop rest => next stop (a, rest)) stop rest
          (next stop (a, rest)) := hnext stop a rest hout stop
      -- What the first one takes is taken again, since the second one keeps the token behind it.
      have hbind : ∀ stop' taken' rest', Alike taken' taken → SameNext rest' rest →
          (first stop' (taken' ++ rest') >>= next stop') = next stop' (a, rest') := by
        intro stop' taken' rest' htaken hrest
        rw [hagain stop' taken' rest' htaken hrest]
        rfl
      show Settled _ stop tokens (next stop (a, rest))
      generalize next stop (a, rest) = outcome at hsecond ⊢
      cases hsecond with
      | @taken takenNext b last hrest hagainNext =>
          have hsplit : tokens = (taken ++ takenNext) ++ last := by
            rw [htokens, hrest, List.append_assoc]
          refine .taken hsplit ?_
          intro stop' taken' rest' halike hlast
          obtain ⟨s, t, rfl, hs, ht⟩ := halike.exists_append
          rw [List.append_assoc, hbind stop' s _ hs (hrest ▸ SameNext.append ht hlast)]
          exact hagainNext stop' t rest' ht hlast
      | ended hagainNext =>
          refine .ended ?_
          intro stop' tokens' halike
          rw [htokens] at halike
          obtain ⟨s, t, rfl, hs, ht⟩ := halike.exists_append
          rw [hbind stop' s t hs ht.sameNext]
          exact hagainNext stop' t ht
      | @refused problem before token after hrest hkind hagainNext =>
          have hsplit : tokens = (taken ++ before) ++ token :: after := by
            rw [htokens, hrest, List.append_assoc]
          refine .refused hsplit hkind ?_
          intro stop' before' token' after' halike htoken
          obtain ⟨s, t, rfl, hs, ht⟩ := halike.exists_append
          have hnext : SameNext (token' :: after') (token :: after) := by
            simp [SameNext, htoken]
          rw [List.append_assoc, hbind stop' s _ hs (hrest ▸ SameNext.append ht hnext)]
          exact hagainNext stop' t token' after' ht htoken

/-- The value plays no part in what a reader settles. -/
theorem Settles.map (f : α → β) (h : Settles read tokens) :
    Settles (fun stop tokens => read stop tokens >>= fun r => pure (f r.1, r.2)) tokens :=
  h.bind fun _ a rest _ => .keep (f a) rest

/-! ## Single tokens -/

theorem symbol_eq_iff {token token' : Token} :
    token'.symbol = token.symbol ↔ token'.kind = token.kind ∧ token'.text = token.text := by
  simp [Token.symbol]

def Spelled (test : Token → Bool) : Prop :=
  ∀ {token token' : Token}, token'.symbol = token.symbol → test token' = test token

theorem spelled_isWord (word : String) : Spelled (·.isWord word) := by
  intro token token' h
  obtain ⟨hkind, htext⟩ := symbol_eq_iff.mp h
  simp only [Token.isWord, hkind, htext]

theorem spelled_isKind (kind : TokenKind) : Spelled (·.isKind kind) := by
  intro token token' h
  simp only [Token.isKind, (symbol_eq_iff.mp h).1]

theorem Spelled.or {p q : Token → Bool} (hp : Spelled p) (hq : Spelled q) :
    Spelled fun token => p token || q token := by
  intro token token' h
  simp only [hp h, hq h]

theorem Settles.accept {test : Token → Bool} (htest : Spelled test) {absent present : Reader α}
    (habsent : Settles absent tokens)
    (hpresent : ∀ rest, accept test tokens = some rest → Settles present rest)
    (hnone : ∀ stop tokens, accept test tokens = none → read stop tokens = absent stop tokens)
    (hsome : ∀ stop tokens rest, accept test tokens = some rest →
      read stop tokens = present stop rest) : Settles read tokens := by
  cases haccept : Condition.accept test tokens with
  | none =>
      refine habsent.congr ?_
      intro stop tokens' hnext
      refine hnone stop tokens' ?_
      cases tokens with
      | nil =>
          rw [hnext.eq_nil]
          rfl
      | cons token rest =>
          obtain ⟨token', rest', rfl, htoken⟩ := hnext.exists_cons
          have hfalse : test token = false := accept_eq_none_iff.mp haccept token rfl
          simp [Condition.accept, htest htoken, hfalse]
  | some rest =>
      obtain ⟨token, rfl, htrue⟩ := accept_eq_some haccept
      refine .cons ?_ (hpresent rest haccept)
      intro stop token' rest' htoken
      refine hsome stop _ rest' (accept_cons_of_pos ?_ rest')
      rw [htest htoken, htrue]

theorem kind_unexpected_ne (text : String) (expected : Option Expectation) :
    (Problem.unexpected text expected).kind ≠ .unexpectedEnd := by
  intro h
  cases h

theorem kind_literal_ne (text : String) (fault : LiteralFault) :
    (Problem.literal text fault).kind ≠ .unexpectedEnd := by
  intro h
  cases h

theorem kind_unknownOperand_ne (name : String) :
    (Problem.unknownOperand name).kind ≠ .unexpectedEnd := by
  intro h
  cases h

/-- Makes something of a token by its kind and text, or refuses it for these. -/
structure Judges (judge : Token → Except Issue α) : Prop where
  again {token token'} : token'.symbol = token.symbol →
    judge token' = (judge token).mapError fun issue => ⟨issue.problem, token'.position⟩
  kind_ne {token issue} : judge token = .error issue → issue.problem.kind ≠ .unexpectedEnd

theorem Settles.judged {judge : Token → Except Issue α} (hjudge : Judges judge) {read : Reader α}
    (h : ∀ stop token' rest', token'.symbol = token.symbol →
      read stop (token' :: rest') = (judge token').map fun a => (a, rest')) :
    Settles read (token :: rest) := by
  cases hout : judge token with
  | error issue =>
      refine .refuse (hjudge.kind_ne hout) ?_
      intro stop token' rest' htoken
      rw [h stop token' rest' htoken, hjudge.again htoken, hout]
      rfl
  | ok a =>
      refine .cons ?_ (.keep a rest)
      intro stop token' rest' htoken
      rw [h stop token' rest' htoken, hjudge.again htoken, hout]
      rfl

theorem literalValue_judges : Judges literalValue where
  again := by
    intro token token' h
    simp only [literalValue, badLiteral, (symbol_eq_iff.mp h).2]
    split <;> rfl
  kind_ne := by
    intro token issue h
    simp only [literalValue] at h
    split at h <;> cases h
    exact kind_literal_ne _ _

theorem Judges.checked {judge : Token → Except Issue α} (hjudge : Judges judge) {p : α → Prop}
    [DecidablePred p] (make : ∀ a, p a → β) (fault : LiteralFault) :
    Judges fun token => judge token >>= fun a =>
      if h : p a then .ok (make a h) else .error (badLiteral token fault) where
  again := by
    intro token token' h
    rw [hjudge.again h]
    cases judge token with
    | error issue => rfl
    | ok a =>
        show (if hp : p a then Except.ok (make a hp) else .error (badLiteral token' fault)) =
          (if hp : p a then Except.ok (make a hp) else .error (badLiteral token fault)).mapError _
        rw [badLiteral, (symbol_eq_iff.mp h).2]
        split <;> rfl
  kind_ne := by
    intro token issue h
    cases hout : judge token with
    | error other =>
        rw [hout] at h
        cases h
        exact hjudge.kind_ne hout
    | ok a =>
        simp only [hout, bind, Except.bind] at h
        split at h <;> cases h
        exact kind_literal_ne _ _

theorem operandOf_judges : Judges operandOf where
  again := by
    intro token token' h
    simp only [operandOf, unexpected, (symbol_eq_iff.mp h).1, (symbol_eq_iff.mp h).2]
    split
    · split <;> rfl
    · rfl
  kind_ne := by
    intro token issue h
    simp only [operandOf] at h
    split at h
    · split at h <;> cases h
      exact kind_unknownOperand_ne _
    · cases h
      exact kind_unexpected_ne _ _

def readNumberAs (judge : Token → Except Issue α) : Reader α := fun stop tokens => do
  let (token, rest) ← readNumber stop tokens
  let a ← judge token
  return (a, rest)

theorem readNumberAs_settles {judge : Token → Except Issue α} (hjudge : Judges judge)
    (tokens : Tokens) : Settles (readNumberAs judge) tokens := by
  cases tokens with
  | nil => exact .nil fun _ => rfl
  | cons token rest =>
      by_cases hkind : token.kind = .number
      · refine .judged hjudge ?_
        intro stop token' rest' htoken
        rw [readNumberAs, readNumber_cons ((symbol_eq_iff.mp htoken).1.trans hkind)]
        show (judge token' >>= fun a => pure (a, rest')) = (judge token').map fun a => (a, rest')
        cases judge token' <;> rfl
      · refine .refuse (kind_unexpected_ne token.text (some .number)) ?_
        intro stop token' rest' htoken
        obtain ⟨hkind', htext⟩ := symbol_eq_iff.mp htoken
        have hne : token'.kind ≠ .number := hkind' ▸ hkind
        simp [readNumberAs, readNumber, if_neg hne, unexpected, htext, bind, Except.bind]

theorem readOperand_settles (tokens : Tokens) : Settles readOperand tokens := by
  cases tokens with
  | nil => exact .nil fun _ => rfl
  | cons token rest =>
      refine .judged operandOf_judges ?_
      intro stop token' rest' _
      simp only [readOperand, readToken, bind, Except.bind]
      cases operandOf token' <;> rfl

theorem modulusOf_judges : Judges modulusOf :=
  literalValue_judges.checked (fun value h => Modulus.mk value h) .zeroModulus

theorem readModulus_of_mark {stop : Nat} {tokens rest : Tokens}
    (h : accept isModulusMark tokens = some rest) : readModulus stop tokens =
      readNumberAs modulusOf stop rest >>= fun r => pure (some r.1, r.2) := by
  have hmark : accept (fun token => token.isWord "mod" || token.isKind .percent) tokens =
    some rest := h
  simp only [readModulus, hmark, readNumberAs, bind_assoc, pure_bind]

theorem readModulus_of_no_mark {stop : Nat} {tokens : Tokens}
    (h : accept isModulusMark tokens = none) : readModulus stop tokens = .ok (none, tokens) := by
  have hmark : accept (fun token => token.isWord "mod" || token.isKind .percent) tokens = none := h
  simp only [readModulus, hmark]

theorem readModulus_settles (tokens : Tokens) : Settles readModulus tokens := by
  have hmark : Spelled isModulusMark := Spelled.or (spelled_isWord "mod") (spelled_isKind .percent)
  exact .accept hmark (.keep none tokens)
    (fun rest _ => (readNumberAs_settles modulusOf_judges rest).map some)
    (fun _ _ => readModulus_of_no_mark) fun _ _ _ => readModulus_of_mark

def upperOf (lower : Nat) (token : Token) : Except Issue Interval := do
  let upper ← literalValue token
  if h : lower ≤ upper then .ok ⟨lower, upper, h⟩ else .error (badLiteral token .belowLowerBound)

theorem upperOf_judges (lower : Nat) : Judges (upperOf lower) :=
  literalValue_judges.checked (fun upper h => Interval.mk lower upper h) .belowLowerBound

def readUpper (lower : Nat) : Reader Interval := fun stop tokens =>
  match accept (·.isKind .range) tokens with
  | none => .ok (.single lower, tokens)
  | some rest => readNumberAs (upperOf lower) stop rest

theorem readInterval_eq (stop : Nat) (tokens : Tokens) : readInterval stop tokens =
    readNumberAs literalValue stop tokens >>= fun r => readUpper r.1 stop r.2 := by
  simp only [readInterval, readNumberAs, readUpper, upperOf, bind_assoc, pure_bind]
  congr 1
  funext r
  congr 1
  funext lower
  cases accept (·.isKind .range) r.2 with
  | none => rfl
  | some rest =>
      dsimp only
      congr 1
      funext s
      congr 1
      funext upper
      split <;> rfl

theorem readUpper_settles (lower : Nat) (tokens : Tokens) : Settles (readUpper lower) tokens := by
  refine .accept (spelled_isKind .range) (.keep (.single lower) tokens)
    (fun rest _ => readNumberAs_settles (upperOf_judges lower) rest) ?_ ?_
  · intro stop tokens hnone
    simp only [readUpper, hnone]
  · intro stop tokens rest hsome
    simp only [readUpper, hsome]

theorem readInterval_settles (tokens : Tokens) : Settles readInterval tokens := by
  refine ((readNumberAs_settles literalValue_judges tokens).bind ?_).congr fun stop tokens _ =>
    readInterval_eq stop tokens
  intro stop lower rest _
  exact readUpper_settles lower rest

/-! ### Lists -/

/-- `many` reads one piece, and after a separator again; the values are put together by `single` and
`cons`. -/
def Repeats (one : Reader α) (separator : Token → Bool) (single : α → β) (cons : α → β → β)
    (many : Reader β) : Prop :=
  ∀ stop tokens, many stop tokens = one stop tokens >>= fun r =>
    match accept separator r.2 with
    | none => .ok (single r.1, r.2)
    | some more => many stop more >>= fun s => pure (cons r.1 s.1, s.2)

theorem Repeats.settles {one : Reader α} {separator : Token → Bool} {single : α → β}
    {cons : α → β → β} {many : Reader β} (hmany : Repeats one separator single cons many)
    (hone : ∀ tokens, Settles one tokens) (hseparator : Spelled separator)
    (hprogress : ∀ {stop tokens a rest}, one stop tokens = .ok (a, rest) →
      rest.length < tokens.length) (tokens : Tokens) : Settles many tokens := by
  refine ((hone tokens).bind ?_).congr fun stop tokens _ => hmany stop tokens
  intro stop a rest hfirst
  have hmore : ∀ more, accept separator rest = some more →
      Settles (fun stop more => many stop more >>= fun s => pure (cons a s.1, s.2)) more := by
    intro more haccept
    -- A piece and a separator are taken, so fewer tokens are left.
    have hless : more.length < tokens.length := by
      have hpiece := hprogress hfirst
      have hmark := accept_length haccept
      omega
    exact (hmany.settles hone hseparator hprogress more).map (cons a)
  refine .accept hseparator (.keep (single a) rest) hmore ?_ ?_
  · intro stop tokens hnone
    simp only [hnone]
  · intro stop tokens more hsome
    simp only [hsome]
termination_by tokens.length

theorem repeats_of_readsSeparated {one : Reader α} {separator : Token → Bool}
    {many : Reader (List α)} (h : ∀ stop, ReadsSeparated (one stop) separator (many stop)) :
    Repeats one separator (fun first => [first]) List.cons many := by
  intro stop tokens
  rw [h stop tokens]
  cases one stop tokens with
  | error issue => rfl
  | ok r =>
      simp only [bind, Except.bind]
      cases accept separator r.2 with
      | none => rfl
      | some more =>
          dsimp only
          cases many stop more <;> rfl

theorem readRanges_repeats : Repeats readInterval (·.isKind .comma) (fun first => ⟨first, []⟩)
    RangeList.cons readRanges := by
  intro stop tokens
  rw [readRanges]
  cases readInterval stop tokens with
  | error issue => rfl
  | ok r =>
      simp only [bind, Except.bind]
      cases accept (·.isKind .comma) r.2 with
      | none => rfl
      | some more =>
          dsimp only
          cases readRanges stop more <;> rfl

theorem readRanges_settles (tokens : Tokens) : Settles readRanges tokens :=
  readRanges_repeats.settles readInterval_settles (spelled_isKind .comma) readInterval_length tokens

/-! ### Relations -/

theorem readIsNot_settles (negated : Bool) (tokens : Tokens) :
    Settles (fun _ => readIsNot negated) tokens := by
  cases tokens with
  | nil =>
      refine (Settles.keep negated []).congr ?_
      intro stop tokens' hnext
      rw [hnext.eq_nil]
      rfl
  | cons token rest =>
      by_cases hword : token.isWord "not" = true
      · cases negated with
        | false =>
            refine .cons ?_ (.keep true rest)
            intro stop token' rest' htoken
            simp [readIsNot, spelled_isWord "not" htoken, hword]
        | true =>
            refine .refuse (kind_unexpected_ne token.text (some .value)) ?_
            intro stop token' rest' htoken
            simp [readIsNot, spelled_isWord "not" htoken, hword, unexpected,
              (symbol_eq_iff.mp htoken).2]
      · refine (Settles.keep negated _).congr ?_
        intro stop tokens' hnext
        obtain ⟨token', rest', rfl, htoken⟩ := hnext.exists_cons
        simp [readIsNot, spelled_isWord "not" htoken, hword]

theorem readEquality_eq (negated : Bool) (stop : Nat) (tokens : Tokens) :
    readEquality stop negated tokens = readIsNot negated tokens >>= fun r =>
      readNumberAs literalValue stop r.2 >>= fun s => pure ((.equality s.1, r.1), s.2) := by
  simp only [readEquality, readNumberAs, bind_assoc, pure_bind]

theorem readEquality_settles (negated : Bool) (tokens : Tokens) :
    Settles (fun stop => readEquality stop negated) tokens := by
  refine ((readIsNot_settles negated tokens).bind ?_).congr fun stop tokens _ =>
    readEquality_eq negated stop tokens
  intro stop sign rest _
  exact (readNumberAs_settles literalValue_judges rest).map fun value =>
    (Comparison.equality value, sign)

theorem readComparison_settles (negated : Bool) (tokens : Tokens) :
    Settles (fun stop => readComparison stop negated) tokens := by
  cases tokens with
  | nil => exact .nil fun _ => rfl
  | cons token rest =>
      have hranges : ∀ (make : RangeList → Comparison) (sign : Bool),
          Settles (fun stop rest => readRanges stop rest >>= fun r =>
            pure ((make r.1, sign), r.2)) rest :=
        fun make sign => (readRanges_settles rest).map fun ranges => (make ranges, sign)
      by_cases his : token.isWord "is" = true
      · refine .cons ?_ (readEquality_settles negated rest)
        intro stop token' rest' htoken
        simp [readComparison, readToken, bind, Except.bind, spelled_isWord _ htoken, his]
      · by_cases hwithin : token.isWord "within" = true
        · refine .cons ?_ (hranges .within negated)
          intro stop token' rest' htoken
          simp [readComparison, readToken, bind, Except.bind, spelled_isWord _ htoken, his, hwithin]
        · by_cases hmember : isMembershipMark token = true
          · refine .cons ?_ (hranges .membership negated)
            intro stop token' rest' htoken
            simp only [isMembershipMark] at hmember
            simp [readComparison, readToken, bind, Except.bind, spelled_isWord _ htoken,
              spelled_isKind _ htoken, his, hwithin, hmember]
          · by_cases hexclude : token.isKind .notEquals = true
            · refine .cons ?_ (hranges .membership !negated)
              intro stop token' rest' htoken
              simp only [isMembershipMark] at hmember
              simp [readComparison, readToken, bind, Except.bind, spelled_isWord _ htoken,
                spelled_isKind _ htoken, his, hwithin, hmember, hexclude]
            · refine .refuse (kind_unexpected_ne token.text (some .operator)) ?_
              intro stop token' rest' htoken
              simp only [isMembershipMark] at hmember
              simp [readComparison, readToken, bind, Except.bind, spelled_isWord _ htoken,
                spelled_isKind _ htoken, his, hwithin, hmember, hexclude, unexpected,
                (symbol_eq_iff.mp htoken).2]

theorem readNot_settles (tokens : Tokens) :
    Settles (fun _ tokens => .ok (readNot tokens)) tokens := by
  refine .accept (spelled_isWord "not") (.keep false tokens) (fun rest _ => .keep true rest) ?_ ?_
  · intro stop tokens hnone
    simp only [readNot, hnone]
  · intro stop tokens rest hsome
    simp only [readNot, hsome]

theorem readRelation_settles (tokens : Tokens) : Settles readRelation tokens := by
  refine (readOperand_settles tokens).bind ?_
  intro stop operand afterOperand _
  refine (readModulus_settles afterOperand).bind ?_
  intro stop modulus afterModulus _
  have hcomparison : Settles (fun stop tokens => Except.ok (readNot tokens) >>= fun r =>
      readComparison stop r.1 r.2 >>= fun s =>
        pure (Relation.mk operand modulus s.1.1 s.1.2, s.2)) afterModulus := by
    refine (readNot_settles afterModulus).bind ?_
    intro stop outer afterNot _
    exact (readComparison_settles outer afterNot).map fun test =>
      Relation.mk operand modulus test.1 test.2
  exact hcomparison

/-! ### Conditions -/

theorem readConjunction_settles (tokens : Tokens) : Settles readConjunction tokens :=
  (repeats_of_readsSeparated readConjunction_eq).settles readRelation_settles (spelled_isWord "and")
    readRelation_length tokens

theorem readDisjunction_settles (tokens : Tokens) : Settles readDisjunction tokens :=
  (repeats_of_readsSeparated readDisjunction_eq).settles readConjunction_settles
    (spelled_isWord "or") readConjunction_length tokens

def closed (groups : List (List Relation)) : Reader Condition
  | _, [] => .ok (⟨groups⟩, [])
  | _, token :: _ => .error (unexpected token .continuation)

theorem closed_settles (groups : List (List Relation)) (tokens : Tokens) :
    Settles (closed groups) tokens := by
  cases tokens with
  | nil =>
      refine (Settles.keep (Condition.mk groups) []).congr ?_
      intro stop tokens' hnext
      rw [hnext.eq_nil]
      rfl
  | cons token rest =>
      refine .refuse (kind_unexpected_ne token.text (some .continuation)) ?_
      intro stop token' rest' htoken
      rw [closed, unexpected, (symbol_eq_iff.mp htoken).2]

def readWhole : Reader Condition := fun stop tokens =>
  ofTokens stop tokens >>= fun condition => pure (condition, [])

theorem readWhole_cons (stop : Nat) (token : Token) (rest : Tokens) :
    readWhole stop (token :: rest) =
      readDisjunction stop (token :: rest) >>= fun r => closed r.1 stop r.2 := by
  simp only [readWhole, ofTokens]
  cases readDisjunction stop (token :: rest) with
  | error issue => rfl
  | ok r =>
      obtain ⟨groups, left⟩ := r
      cases left <;> rfl

theorem readWhole_settles (tokens : Tokens) : Settles readWhole tokens := by
  cases tokens with
  | nil =>
      refine (Settles.keep Condition.always []).congr ?_
      intro stop tokens' hnext
      rw [hnext.eq_nil]
      rfl
  | cons token rest =>
      have hread : Settles (fun stop tokens => readDisjunction stop tokens >>= fun r =>
          closed r.1 stop r.2) (token :: rest) :=
        (readDisjunction_settles _).bind fun _ groups left _ => closed_settles groups left
      refine hread.congr ?_
      intro stop tokens' hnext
      obtain ⟨token', rest', rfl, -⟩ := hnext.exists_cons
      exact readWhole_cons stop token' rest'

end Settles

/-! ## Conditions and their tokens -/

theorem readWhole_eq_ok_iff {stop : Nat} {tokens rest : Tokens} {condition : Condition} :
    readWhole stop tokens = .ok (condition, rest) ↔
      ofTokens stop tokens = .ok condition ∧ rest = [] := by
  rw [readWhole]
  cases ofTokens stop tokens with
  | error issue => exact ⟨nofun, nofun⟩
  | ok found =>
      show (Except.ok (found, []) : Except Issue _) = _ ↔ _
      simp [eq_comm]

theorem readWhole_eq_error_iff {stop : Nat} {tokens : Tokens} {issue : Issue} :
    readWhole stop tokens = .error issue ↔ ofTokens stop tokens = .error issue := by
  rw [readWhole]
  cases ofTokens stop tokens with
  | error other => exact ⟨fun h => by cases h; rfl, fun h => by cases h; rfl⟩
  | ok found => exact ⟨nofun, nofun⟩

/-- Where the tokens stand is of no account. -/
theorem ofTokens_of_alike {stop stop' : Nat} {tokens tokens' : Tokens} {condition : Condition}
    (h : ofTokens stop tokens = .ok condition) (halike : Alike tokens' tokens) :
    ofTokens stop' tokens' = .ok condition := by
  have hread : readWhole stop tokens = .ok (condition, []) := readWhole_eq_ok_iff.mpr ⟨h, rfl⟩
  have hsettled := readWhole_settles tokens stop
  rw [hread] at hsettled
  cases hsettled with
  | taken htokens hagain =>
      rw [List.append_nil] at htokens
      have hread' := hagain stop' tokens' [] (htokens ▸ halike) rfl
      rw [List.append_nil] at hread'
      exact (readWhole_eq_ok_iff.mp hread').1

/-- A refusal is about the end, or about a token that is refused wherever it stands after tokens
that are spelled in the same way. -/
theorem ofTokens_refused {stop : Nat} {tokens : Tokens} {issue : Issue}
    (h : ofTokens stop tokens = .error issue) :
    (issue.problem.kind = .unexpectedEnd ∧ issue.position = stop) ∨
      issue.problem.kind ≠ .unexpectedEnd ∧
        ∃ before token after, tokens = before ++ token :: after ∧ issue.position = token.position ∧
          ∀ stop' before' token' after', Alike before' before → token'.symbol = token.symbol →
            ofTokens stop' (before' ++ token' :: after') =
              .error ⟨issue.problem, token'.position⟩ := by
  have hsettled := readWhole_settles tokens stop
  rw [readWhole_eq_error_iff.mpr h] at hsettled
  cases hsettled with
  | ended hagain => exact .inl ⟨rfl, rfl⟩
  | @refused problem before token after htokens hkind hagain =>
      refine .inr ⟨hkind, before, token, after, htokens, rfl, ?_⟩
      intro stop' before' token' after' hbefore htoken
      exact readWhole_eq_error_iff.mp (hagain stop' before' token' after' hbefore htoken)

end Condition

end PluralForms
