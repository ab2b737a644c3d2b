import PluralForms.Rule.Token

/-!
# Cutting a text into tokens

`Cuts` says what the scanner does without it: a text is made of lexemes and blanks, and no lexeme
could be longer.  The scanner gives the tokens of such a text and stops behind it.
-/

namespace PluralForms

open Text

/-- The list is at its end or goes on with an element of the class. -/
def Ahead (p : α → Prop) (list : List α) : Prop :=
  ∀ a ∈ list.head?, p a

@[simp] theorem ahead_nil (p : α → Prop) : Ahead p [] := by
  intro a h
  cases h

@[simp] theorem ahead_cons {p : α → Prop} {a : α} {rest : List α} :
    Ahead p (a :: rest) ↔ p a := by
  simp [Ahead]

theorem Ahead.mono {p q : α → Prop} {list : List α} (h : Ahead p list) (hpq : ∀ a, p a → q a) :
    Ahead q list := by
  intro a ha
  exact hpq a (h a ha)

/-- What follows a list matters only where the list is empty. -/
theorem Ahead.append {p : α → Prop} {list rest : List α} (h : Ahead p list) (hrest : Ahead p rest) :
    Ahead p (list ++ rest) := by
  cases list with
  | nil => exact hrest
  | cons a tail => exact ahead_cons.mpr (h a rfl)

theorem Ahead.append_of_ne_nil {p : α → Prop} {list : List α} (h : Ahead p list) (hne : list ≠ [])
    (rest : List α) : Ahead p (list ++ rest) := by
  obtain ⟨a, tail, rfl⟩ := List.exists_cons_of_ne_nil hne
  exact ahead_cons.mpr (h a rfl)

theorem Ahead.of_append {p : α → Prop} {list rest : List α} (h : Ahead p (list ++ rest)) :
    Ahead p list := by
  cases list with
  | nil => exact ahead_nil p
  | cons a tail => exact ahead_cons.mpr (h a rfl)

theorem takeWhile_run {p : α → Bool} {run rest : List α} (hrun : ∀ a ∈ run, p a = true)
    (hrest : Ahead (fun a => p a = false) rest) : (run ++ rest).takeWhile p = run := by
  rw [List.takeWhile_append_of_pos hrun]
  cases rest with
  | nil => simp
  | cons a tail => simp [hrest a rfl]

theorem dropWhile_run {p : α → Bool} {run rest : List α} (hrun : ∀ a ∈ run, p a = true)
    (hrest : Ahead (fun a => p a = false) rest) : (run ++ rest).dropWhile p = rest := by
  rw [List.dropWhile_append_of_pos hrun]
  cases rest with
  | nil => simp
  | cons a tail => simp [hrest a rfl]

theorem ahead_dropWhile (p : α → Bool) (list : List α) :
    Ahead (fun a => p a = false) (list.dropWhile p) := by
  intro a ha
  have hhead := List.head?_dropWhile_not p list
  rw [ha] at hhead
  simpa using hhead

/-! ## Lexemes -/

inductive IsLexeme : TokenKind → List Char → Prop where
  | word {letters} (hne : letters ≠ []) (hall : ∀ c ∈ letters, isLetter c = true) :
      IsLexeme .word letters
  | number {digits} (hne : digits ≠ []) (hall : ∀ c ∈ digits, isDigit c = true) :
      IsLexeme .number digits
  | equals : IsLexeme .equals ['=']
  | notEquals : IsLexeme .notEquals ['!', '=']
  | percent : IsLexeme .percent ['%']
  | comma : IsLexeme .comma [',']
  | range : IsLexeme .range ['.', '.']

def TokenKind.continues : TokenKind → Char → Bool
  | word => isLetter
  | number => isDigit
  | _ => fun _ => false

theorem continues_sampleMarker (kind : TokenKind) : kind.continues sampleMarker = false := by
  cases kind <;> decide

theorem continues_of_isBlank {c : Char} (h : isBlank c = true) (kind : TokenKind) :
    kind.continues c = false := by
  simp only [isBlank, Bool.or_eq_true, beq_iff_eq] at h
  rcases h with ((rfl | rfl) | rfl) | rfl <;> cases kind <;> decide

theorem ahead_of_blanks {blanks : List Char} (h : ∀ c ∈ blanks, isBlank c = true)
    (kind : TokenKind) : Ahead (fun c => kind.continues c = false) blanks :=
  fun c hc => continues_of_isBlank (h c (List.mem_of_mem_head? hc)) kind

/-- A lexeme begins neither with a blank nor with the marker. -/
theorem IsLexeme.exists_cons {kind : TokenKind} {piece : List Char} (h : IsLexeme kind piece) :
    ∃ c tail, piece = c :: tail ∧ isBlank c = false ∧ c ≠ sampleMarker := by
  cases h with
  | word hne hall =>
      obtain ⟨c, tail, rfl⟩ := List.exists_cons_of_ne_nil hne
      have hletter := hall c List.mem_cons_self
      refine ⟨c, tail, rfl, isBlank_of_isLetter hletter, ?_⟩
      rintro rfl
      exact absurd hletter (by decide)
  | number hne hall =>
      obtain ⟨c, tail, rfl⟩ := List.exists_cons_of_ne_nil hne
      have hdigit := hall c List.mem_cons_self
      refine ⟨c, tail, rfl, isBlank_of_isDigit hdigit, ?_⟩
      rintro rfl
      exact absurd hdigit (by decide)
  | equals => exact ⟨'=', [], rfl, by decide, by decide⟩
  | notEquals => exact ⟨'!', ['='], rfl, by decide, by decide⟩
  | percent => exact ⟨'%', [], rfl, by decide, by decide⟩
  | comma => exact ⟨',', [], rfl, by decide, by decide⟩
  | range => exact ⟨'.', ['.'], rfl, by decide, by decide⟩

theorem IsLexeme.ne_nil {kind : TokenKind} {piece : List Char} (h : IsLexeme kind piece) :
    piece ≠ [] := by
  obtain ⟨c, tail, rfl, -⟩ := h.exists_cons
  exact List.cons_ne_nil c tail

/-- A lexeme that could not go on is cut off as a whole. -/
theorem IsLexeme.lexeme?_append {kind : TokenKind} {piece text : List Char}
    (h : IsLexeme kind piece) (hnext : Ahead (fun c => kind.continues c = false) text) :
    lexeme? (piece ++ text) = some ⟨kind, piece, text⟩ := by
  cases h with
  | word hne hall =>
      obtain ⟨c, tail, rfl⟩ := List.exists_cons_of_ne_nil hne
      obtain ⟨hletter, htail⟩ := List.forall_mem_cons.mp hall
      have htake : (tail ++ text).takeWhile isLetter = tail := takeWhile_run htail hnext
      have hdrop : (tail ++ text).dropWhile isLetter = text := dropWhile_run htail hnext
      simp only [List.cons_append, lexeme?, hletter, if_true, htake, hdrop]
  | number hne hall =>
      obtain ⟨c, tail, rfl⟩ := List.exists_cons_of_ne_nil hne
      obtain ⟨hdigit, htail⟩ := List.forall_mem_cons.mp hall
      have htake : (tail ++ text).takeWhile isDigit = tail := takeWhile_run htail hnext
      have hdrop : (tail ++ text).dropWhile isDigit = text := dropWhile_run htail hnext
      simp only [List.cons_append, lexeme?, isLetter_of_isDigit hdigit, hdigit, if_true,
        Bool.false_eq_true, if_false, htake, hdrop]
  | equals => rfl
  | notEquals => rfl
  | percent => rfl
  | comma => rfl
  | range => rfl

/-- What is cut off is a lexeme, and it could not be longer. -/
theorem isLexeme_of_lexeme? {chars : List Char} {piece : Lexeme} (h : lexeme? chars = some piece) :
    IsLexeme piece.kind piece.text ∧ Ahead (fun c => piece.kind.continues c = false) piece.rest := by
  unfold lexeme? at h
  split at h
  · cases h
  · next c tail =>
      split at h
      · next hletter =>
          cases h
          have hrun : ∀ d ∈ tail.takeWhile isLetter, isLetter d = true :=
            List.all_eq_true.mp List.all_takeWhile
          exact ⟨.word (List.cons_ne_nil _ _) (List.forall_mem_cons.mpr ⟨hletter, hrun⟩),
            ahead_dropWhile isLetter tail⟩
      · split at h
        · next hdigit =>
            cases h
            have hrun : ∀ d ∈ tail.takeWhile isDigit, isDigit d = true :=
              List.all_eq_true.mp List.all_takeWhile
            exact ⟨.number (List.cons_ne_nil _ _) (List.forall_mem_cons.mpr ⟨hdigit, hrun⟩),
              ahead_dropWhile isDigit tail⟩
        · split at h <;> cases h <;> exact ⟨by constructor, fun _ _ => rfl⟩

theorem lexeme?_eq_some_iff {chars : List Char} {piece : Lexeme} :
    lexeme? chars = some piece ↔ piece.text ++ piece.rest = chars ∧
      IsLexeme piece.kind piece.text ∧
      Ahead (fun c => piece.kind.continues c = false) piece.rest := by
  constructor
  · intro h
    exact ⟨lexeme?_append h, isLexeme_of_lexeme? h⟩
  · rintro ⟨rfl, hpiece, hnext⟩
    exact hpiece.lexeme?_append hnext

/-! ## Cuts -/

/-- The text at an offset is made of the tokens in their order and of blanks. -/
inductive Cuts : Nat → List Char → List Token → Prop where
  | nil {position} : Cuts position [] []
  | blank {position c text tokens} (hblank : isBlank c = true)
      (hrest : Cuts (position + 1) text tokens) : Cuts position (c :: text) tokens
  | token {position kind piece text tokens} (hpiece : IsLexeme kind piece)
      (hnext : Ahead (fun c => kind.continues c = false) text)
      (hrest : Cuts (position + piece.length) text tokens) :
      Cuts position (piece ++ text) (⟨kind, String.ofList piece, position⟩ :: tokens)

theorem Cuts.of_blanks {blanks text : List Char} {position : Nat} {tokens : List Token}
    (h : ∀ c ∈ blanks, isBlank c = true)
    (hcuts : Cuts (position + blanks.length) text tokens) :
    Cuts position (blanks ++ text) tokens := by
  induction blanks generalizing position with
  | nil => exact hcuts
  | cons c blanks ih =>
      obtain ⟨hblank, hblanks⟩ := List.forall_mem_cons.mp h
      refine .blank hblank (ih hblanks ?_)
      rw [List.length_cons] at hcuts
      rwa [Nat.add_assoc, Nat.add_comm 1]

theorem cuts_blanks {blanks : List Char} (h : ∀ c ∈ blanks, isBlank c = true) (position : Nat) :
    Cuts position blanks [] := by
  have hcuts : Cuts position (blanks ++ []) [] := .of_blanks h .nil
  rwa [List.append_nil] at hcuts

theorem skipBlanks_cons {c : Char} (h : isBlank c = true) (position : Nat) (text : List Char) :
    (Suffix.mk position (c :: text)).skipBlanks = (Suffix.mk (position + 1) text).skipBlanks := by
  simp only [Suffix.skipBlanks, Suffix.dropRun, List.takeWhile_cons_of_pos h,
    List.dropWhile_cons_of_pos h, List.length_cons, Suffix.mk.injEq, and_true]
  omega

theorem skipBlanks_of_not_blank {c : Char} (h : isBlank c = false) (position : Nat)
    (text : List Char) :
    (Suffix.mk position (c :: text)).skipBlanks = ⟨position, c :: text⟩ := by
  simp [Suffix.skipBlanks, Suffix.dropRun, h]

theorem nextToken_blank {c : Char} (h : isBlank c = true) (position : Nat) (text : List Char) :
    nextToken ⟨position, c :: text⟩ = nextToken ⟨position + 1, text⟩ := by
  simp only [nextToken, skipBlanks_cons h]

theorem nextToken_end {rest : List Char} (h : Ahead (· = sampleMarker) rest) (position : Nat) :
    nextToken ⟨position, rest⟩ = .ok (none, ⟨position, rest⟩) := by
  cases rest with
  | nil => rfl
  | cons c tail =>
      have hc : c = sampleMarker := h c rfl
      have hblank : isBlank c = false := by
        rw [hc]
        rfl
      have hskip := skipBlanks_of_not_blank hblank position tail
      simp only [nextToken, hskip, if_pos hc]

theorem nextToken_token {kind : TokenKind} {piece text : List Char} (hpiece : IsLexeme kind piece)
    (hnext : Ahead (fun c => kind.continues c = false) text) (position : Nat) :
    nextToken ⟨position, piece ++ text⟩ =
      .ok (some ⟨kind, String.ofList piece, position⟩, ⟨position + piece.length, text⟩) := by
  have hlexeme := hpiece.lexeme?_append hnext
  rcases hpiece.exists_cons with ⟨c, tail, rfl, hblank, hmarker⟩
  have hskip := skipBlanks_of_not_blank hblank position (tail ++ text)
  rw [List.cons_append] at hlexeme ⊢
  simp only [nextToken, hskip, if_neg hmarker, hlexeme]

theorem scan_congr {s r : Suffix} (h : nextToken s = nextToken r) : scan s = scan r := by
  rw [scan, scan, h]

theorem scan_of_none {s rest : Suffix} (h : nextToken s = .ok (none, rest)) :
    scan s = .ok ([], rest.position) := by
  rw [scan]
  split <;> simp_all

theorem scan_of_some {s rest : Suffix} {token : Token} {tokens : List Token} {stop : Nat}
    (h : nextToken s = .ok (some token, rest)) (hrest : scan rest = .ok (tokens, stop)) :
    scan s = .ok (token :: tokens, stop) := by
  rw [scan]
  split <;> simp_all

/-- The scanner finds the tokens of a text that ends with its source or before the marker. -/
theorem Cuts.scan_append {position : Nat} {text : List Char} {tokens : List Token}
    (h : Cuts position text tokens) {rest : List Char} (hrest : Ahead (· = sampleMarker) rest) :
    scan ⟨position, text ++ rest⟩ = .ok (tokens, position + text.length) := by
  induction h with
  | nil => exact scan_of_none (nextToken_end hrest _)
  | @blank position c text tokens hblank hcuts ih =>
      rw [List.cons_append, scan_congr (nextToken_blank hblank _ _), ih, List.length_cons]
      rw [Nat.add_assoc, Nat.add_comm 1]
  | @token position kind piece text tokens hpiece hnext hcuts ih =>
      -- No token goes on with the marker, so what follows the text leaves its last lexeme alone.
      have hahead : Ahead (fun c => kind.continues c = false) (text ++ rest) := by
        refine hnext.append (hrest.mono ?_)
        rintro c rfl
        exact continues_sampleMarker kind
      have htoken := nextToken_token hpiece hahead position
      rw [List.append_assoc, scan_of_some htoken ih, List.length_append, Nat.add_assoc]

end PluralForms
