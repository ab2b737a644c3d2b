import PluralForms.Text.CaseFold
import PluralForms.Text.Classes

/-!
# Locale codes

Codes are spelled with hyphens or underscores; the underscore spelling is the normal one.  The
ancestors of a code drop its subtags from the back, one after the other.
-/

namespace PluralForms.Locale

open Text

/-- White space around the code is dropped, hyphens become underscores, letter case stays. -/
def normalizeChars (code : List Char) : List Char :=
  (trim code).map fun c => if c = '-' then '_' else c

def normalize (code : String) : String :=
  String.ofList (normalizeChars code.toList)

def pieces : List Char → List (List Char)
  | [] => [[]]
  | c :: rest =>
      if c = '_' then [] :: pieces rest
      else match pieces rest with
        | [] => [[c]]
        | first :: others => (c :: first) :: others

def join : List (List Char) → List Char
  | [] => []
  | [piece] => piece
  | piece :: others => piece ++ '_' :: join others

theorem pieces_ne_nil (code : List Char) : pieces code ≠ [] := by
  cases code with
  | nil => simp [pieces]
  | cons c rest =>
      unfold pieces
      split
      · simp
      · split <;> simp

theorem join_pieces (code : List Char) : join (pieces code) = code := by
  induction code with
  | nil => rfl
  | cons c rest ih =>
      have hne := pieces_ne_nil rest
      unfold pieces
      split
      · rename_i h
        cases hp : pieces rest with
        | nil => exact absurd hp hne
        | cons first others =>
            rw [hp] at ih
            simp only [join, List.nil_append, ih, h]
      · split
        · rename_i hp
          exact absurd hp hne
        · rename_i first others hp
          rw [hp] at ih
          cases others with
          | nil => simpa [join] using ih
          | cons second more => simpa [join] using ih

/-- The subtags of a code; empty ones do not count. -/
def subtags (code : String) : List (List Char) :=
  (pieces (normalizeChars code.toList)).filter fun piece => !piece.isEmpty

/-- The code and its ancestors, longest first; a code without subtags has none. -/
def chain (code : String) : List String :=
  let parts := subtags code
  (List.range parts.length).map fun dropped =>
    String.ofList (join (parts.take (parts.length - dropped)))

def key (code : String) : String :=
  foldCase (normalize code)

end PluralForms.Locale
