import PluralForms.Text.Classes

/-!
# Cursors

A cursor is an offset into a text.  It may stand beyond the end; advancing brings it back to
the end, and the runs that it takes there are empty.  Offsets below zero count from the end: what
lies ahead of them is the end of the text and then all of it.
-/

namespace PluralForms.Text

structure Cursor where
  source : String
  position : Int
  deriving DecidableEq, Repr

inductive OffsetError where
  | endOfText (position : Int)
  /-- The text does not reach that far back. -/
  | beforeStart
  deriving DecidableEq, Repr

def OffsetError.message : OffsetError → String
  | endOfText position => s!"No character at position {position}: end of rule"
  | beforeStart => "string index out of range"

/-! ## Offsets -/

/-- The distance from the start at which an offset into a text of `length` characters lies; one
that reaches too far back lies at the start. -/
def place (length : Nat) (offset : Int) : Nat :=
  if 0 ≤ offset then offset.toNat else (length + offset).toNat

def slice (text : List Char) (start stop : Int) : List Char :=
  (text.take (place text.length stop)).drop (place text.length start)

def ahead (text : List Char) (offset : Int) : Except OffsetError (List Char) :=
  if 0 ≤ offset then .ok (text.drop offset.toNat)
  else if -(text.length : Int) ≤ offset then
    .ok (text.drop (place text.length offset) ++ text)
  else .error .beforeStart

@[simp] theorem place_natCast (length n : Nat) : place length (n : Int) = n := by
  simp [place]

theorem ahead_natCast (text : List Char) (n : Nat) : ahead text (n : Int) = .ok (text.drop n) := by
  simp [ahead]

theorem slice_natCast (text : List Char) (start count : Nat) :
    slice text (start : Int) ((start + count : Nat) : Int) = (text.drop start).take count := by
  simp only [slice, place_natCast]
  rw [List.drop_take, Nat.add_sub_cancel_left]

theorem take_takeWhile_length (p : Char → Bool) (chars : List Char) :
    chars.take (chars.takeWhile p).length = chars.takeWhile p := by
  induction chars with
  | nil => rfl
  | cons c rest ih =>
      by_cases h : p c = true
      · simp [h, ih]
      · simp [h]

/-! ## Steps -/

namespace Cursor

def atEnd (cursor : Cursor) : Bool :=
  cursor.source.length ≤ cursor.position

/-- The character `offset` places ahead, none beyond the end. -/
def peek (cursor : Cursor) (offset : Int) : Except OffsetError (Option Char) :=
  (ahead cursor.source.toList (cursor.position + offset)).map List.head?

def current (cursor : Cursor) : Except OffsetError Char :=
  match cursor.peek 0 with
  | .ok (some c) => .ok c
  | .ok none => .error (.endOfText cursor.position)
  | .error e => .error e

def advance (cursor : Cursor) (count : Int) : Cursor :=
  { cursor with position := min (cursor.position + count) cursor.source.length }

/-- Takes the longest run of characters of a class.  The text of a run that goes on through the end
is what lies between its two ends. -/
def takeWhile (cursor : Cursor) (p : Char → Bool) : Except OffsetError (String × Cursor) :=
  match ahead cursor.source.toList cursor.position with
  | .error e => .error e
  | .ok chars =>
      let stop := cursor.position + (chars.takeWhile p).length
      .ok (String.ofList (slice cursor.source.toList cursor.position stop),
        { cursor with position := stop })

def skipBlanks (cursor : Cursor) : Except OffsetError Cursor :=
  (cursor.takeWhile isBlank).map (·.2)

theorem takeWhile_natCast (source : String) (n : Nat) (p : Char → Bool) :
    (Cursor.mk source n).takeWhile p =
      .ok (String.ofList ((source.toList.drop n).takeWhile p),
        ⟨source, ((n + ((source.toList.drop n).takeWhile p).length : Nat) : Int)⟩) := by
  simp only [takeWhile, ahead_natCast]
  rw [← Int.natCast_add, slice_natCast, take_takeWhile_length]

end Cursor

end PluralForms.Text
