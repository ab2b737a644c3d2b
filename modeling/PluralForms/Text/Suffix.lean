import PluralForms.Text.Classes

/-!
# Ends of a text

Reading goes from left to right, so what matters is the end of the text that is still to be
read and the offset at which it begins.  Every step below keeps the two in agreement.
-/

namespace PluralForms.Text

/-- What is left of a text from the offset `position` on. -/
structure Suffix where
  position : Nat
  chars : List Char
  deriving DecidableEq, Repr

namespace Suffix

def whole (text : List Char) : Suffix := ⟨0, text⟩

def ofText (text : List Char) (position : Nat) : Suffix := ⟨position, text.drop position⟩

def dropRun (s : Suffix) (p : Char → Bool) : Suffix :=
  ⟨s.position + (s.chars.takeWhile p).length, s.chars.dropWhile p⟩

/-- The suffix after `count` characters, or after all if there are fewer. -/
def drop (s : Suffix) (count : Nat) : Suffix :=
  ⟨s.position + min count s.chars.length, s.chars.drop count⟩

def skipBlanks (s : Suffix) : Suffix := s.dropRun isBlank

/-- The suffix lies in `text` at its own offset. -/
def Within (s : Suffix) (text : List Char) : Prop :=
  s.position ≤ text.length ∧ s.chars = text.drop s.position

theorem whole_within (text : List Char) : (whole text).Within text := by
  simp [Within, whole]

theorem drop_takeWhile_length (p : Char → Bool) (chars : List Char) :
    chars.drop (chars.takeWhile p).length = chars.dropWhile p := by
  induction chars with
  | nil => rfl
  | cons c rest ih =>
      by_cases h : p c = true
      · simp [h, ih]
      · simp [h]

theorem Within.dropRun {s : Suffix} {text : List Char} (h : s.Within text) (p : Char → Bool) :
    (s.dropRun p).Within text := by
  obtain ⟨hle, hchars⟩ := h
  have hlen : s.chars.length = text.length - s.position := by simp [hchars]
  have hrun : (s.chars.takeWhile p).length ≤ s.chars.length :=
    (List.takeWhile_sublist p).length_le
  refine ⟨?_, ?_⟩
  · simp only [Suffix.dropRun]
    omega
  · simp only [Suffix.dropRun]
    rw [← drop_takeWhile_length, ← List.drop_drop, ← hchars]

theorem Within.drop {s : Suffix} {text : List Char} (h : s.Within text) (count : Nat) :
    (s.drop count).Within text := by
  obtain ⟨hle, hchars⟩ := h
  have hlen : s.chars.length = text.length - s.position := by simp [hchars]
  refine ⟨?_, ?_⟩
  · simp only [Suffix.drop]
    omega
  · simp only [Suffix.drop]
    rw [← List.drop_drop, ← hchars]
    by_cases hc : count ≤ s.chars.length
    · rw [Nat.min_eq_left hc]
    · rw [Nat.min_eq_right (by omega), List.drop_length, List.drop_eq_nil_iff.mpr (by omega)]

theorem length_dropRun_le (s : Suffix) (p : Char → Bool) :
    (s.dropRun p).chars.length ≤ s.chars.length :=
  (List.dropWhile_sublist p).length_le

theorem length_skipBlanks_le (s : Suffix) : s.skipBlanks.chars.length ≤ s.chars.length :=
  length_dropRun_le s isBlank

theorem length_drop_le (s : Suffix) (count : Nat) :
    (s.drop count).chars.length ≤ s.chars.length := by
  simp [Suffix.drop]

end Suffix

end PluralForms.Text
