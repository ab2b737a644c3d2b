import PluralForms.Rule.Error
import PluralForms.Text.Suffix

/-!
# Tokens

The condition of a rule ends at the first `@` or with the text.  Up to there it is cut into
words, numbers and five signs, each as long as can be, with blanks between them wherever they
please.  `nextToken` takes one token; `tokenize` takes them all.
-/

namespace PluralForms

open Text

inductive TokenKind where
  | word
  | number
  | equals
  | notEquals
  | percent
  | comma
  | range
  deriving DecidableEq, Repr

/-- Words and numbers are named by their class, the signs by themselves. -/
def TokenKind.name : TokenKind → String
  | word => "word"
  | number => "number"
  | equals => "="
  | notEquals => "!="
  | percent => "%"
  | comma => ","
  | range => ".."

structure Token where
  kind : TokenKind
  text : String
  position : Nat
  deriving DecidableEq, Repr

def Token.stop (token : Token) : Nat :=
  token.position + token.text.length

def Token.isWord (token : Token) (word : String) : Bool :=
  token.kind == .word && token.text == word

def Token.isKind (token : Token) (kind : TokenKind) : Bool :=
  token.kind == kind

/-- The marker before which a condition ends. -/
def sampleMarker : Char := '@'

/-! ## One token -/

structure Lexeme where
  kind : TokenKind
  text : List Char
  rest : List Char
  deriving DecidableEq, Repr

def lexeme? : List Char → Option Lexeme
  | [] => none
  | c :: chars =>
      if isLetter c then some ⟨.word, c :: chars.takeWhile isLetter, chars.dropWhile isLetter⟩
      else if isDigit c then some ⟨.number, c :: chars.takeWhile isDigit, chars.dropWhile isDigit⟩
      else match c, chars with
        | '=', rest => some ⟨.equals, ['='], rest⟩
        | '%', rest => some ⟨.percent, ['%'], rest⟩
        | ',', rest => some ⟨.comma, [','], rest⟩
        | '!', '=' :: rest => some ⟨.notEquals, ['!', '='], rest⟩
        | '.', '.' :: rest => some ⟨.range, ['.', '.'], rest⟩
        | _, _ => none

/-- Nothing is lost: the piece and the rest make up the text. -/
theorem lexeme?_append {chars : List Char} {piece : Lexeme} (h : lexeme? chars = some piece) :
    piece.text ++ piece.rest = chars := by
  unfold lexeme? at h
  split at h
  · cases h
  · split at h
    · cases h
      simp [List.takeWhile_append_dropWhile]
    · split at h
      · cases h
        simp [List.takeWhile_append_dropWhile]
      · split at h <;> cases h <;> rfl

theorem lexeme?_text_ne_nil {chars : List Char} {piece : Lexeme} (h : lexeme? chars = some piece) :
    piece.text ≠ [] := by
  unfold lexeme? at h
  split at h
  · cases h
  · split at h
    · cases h
      simp
    · split at h
      · cases h
        simp
      · split at h <;> cases h <;> simp

theorem lexeme?_rest_lt {chars : List Char} {piece : Lexeme} (h : lexeme? chars = some piece) :
    piece.rest.length < chars.length := by
  have happ := congrArg List.length (lexeme?_append h)
  have hpos := List.length_pos_iff.mpr (lexeme?_text_ne_nil h)
  simp only [List.length_append] at happ
  omega

/-! ## The next token -/

/-- Takes the next token, after the blanks before it.  At the marker or the end there is none, and
what is left begins there. -/
def nextToken (s : Suffix) : Except Issue (Option Token × Suffix) :=
  match s.skipBlanks.chars with
  | [] => .ok (none, s.skipBlanks)
  | c :: _ =>
      if c = sampleMarker then .ok (none, s.skipBlanks)
      else match lexeme? s.skipBlanks.chars with
        | none => .error ⟨.unexpected (String.singleton c) none, s.skipBlanks.position⟩
        | some piece =>
            .ok (some ⟨piece.kind, String.ofList piece.text, s.skipBlanks.position⟩,
              ⟨s.skipBlanks.position + piece.text.length, piece.rest⟩)

/-- A token takes at least one character. -/
theorem nextToken_length {s rest : Suffix} {token : Token}
    (h : nextToken s = .ok (some token, rest)) : rest.chars.length < s.chars.length := by
  have hle := s.length_skipBlanks_le
  unfold nextToken at h
  split at h
  · cases h
  · split at h
    · cases h
    · split at h
      · cases h
      · rename_i piece hpiece
        have hlt := lexeme?_rest_lt hpiece
        cases h
        dsimp only
        omega

/-! ## All tokens -/

/-- Cuts a suffix into tokens, up to the marker or the end, and says where that is. -/
def scan (s : Suffix) : Except Issue (List Token × Nat) :=
  match _hnext : nextToken s with
  | .error issue => .error issue
  | .ok (none, rest) => .ok ([], rest.position)
  | .ok (some token, rest) =>
      match scan rest with
      | .error issue => .error issue
      | .ok (tokens, stop) => .ok (token :: tokens, stop)
termination_by s.chars.length
decreasing_by exact nextToken_length _hnext

def tokenize (source : String) : Except RuleError (List Token × Nat) :=
  refusedIn source (scan (.whole source.toList))

end PluralForms
