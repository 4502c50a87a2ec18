import Mathlib.Tactic.SplitIfs
import SqlWire.Calendar.DateTimeField
import SqlWire.Proofs.Framing

/-!
# How far binary calendar fields reach

The declared length of a time or date-time field says which of its parts are there, and these take a
number of bytes of their own, `TimeField.width` and `DateTimeField.width`.  A reading of a field goes
on by at most that many bytes, and by exactly as many if they are there.  So it keeps within the
declared length just when the parts fit into it, `Temporal.within_read_iff`: for every length of the
layouts, but not for all of those between them.
-/

namespace SqlWire

open Reader

namespace TimeField

/-- The number of bytes of the parts that a field of the given length has. -/
def width (length : Nat) : Nat :=
  if length = 0 then 0
  else if length ≤ 4 then 1
  else if length ≤ 7 then 5
  else if length ≤ 8 then 8
  else 12

theorem width_le_iff
    (n : Nat) :
  width n ≤ n ↔ n ≤ 8 ∨ 12 ≤ n
  := by
  rw [width]
  split_ifs <;> omega

theorem spans_read
    (n : Nat) :
  (read n).Spans (width n)
  := by
  rw [read, width]
  split
  · apply spans_pure
  split
  · exact spans_byte.bind fun _ => spans_pure _
  split
  · exact spans_byte.bind fun _ => (spans_uint 4).bind fun _ => spans_pure _
  split
  · exact spans_byte.bind fun _ => (spans_uint 4).bind fun _ => spans_byte.bind fun _ =>
      spans_byte.bind fun _ => spans_byte.bind fun _ => spans_pure _
  · exact spans_byte.bind fun _ => (spans_uint 4).bind fun _ => spans_byte.bind fun _ =>
      spans_byte.bind fun _ => spans_byte.bind fun _ => (spans_uint 4).bind fun _ => spans_pure _

end TimeField

namespace DateTimeField

/-- The number of bytes of the parts that a field of the given length has. -/
def width (length : Nat) : Nat :=
  if length = 0 then 0
  else if length ≤ 4 then 4
  else if length ≤ 7 then 7
  else 11

theorem width_le_iff
    (n : Nat) :
  width n ≤ n ↔ n = 0 ∨ n = 4 ∨ n = 7 ∨ 11 ≤ n
  := by
  rw [width]
  split_ifs <;> omega

theorem spans_read
    (n : Nat) :
  (read n).Spans (width n)
  := by
  rw [read, width]
  split
  · apply spans_pure
  split
  · exact (spans_uint 2).bind fun _ => spans_byte.bind fun _ => spans_byte.bind fun _ =>
      spans_pure _
  split
  · exact (spans_uint 2).bind fun _ => spans_byte.bind fun _ => spans_byte.bind fun _ =>
      spans_byte.bind fun _ => spans_byte.bind fun _ => spans_byte.bind fun _ => spans_pure _
  · exact (spans_uint 2).bind fun _ => spans_byte.bind fun _ => spans_byte.bind fun _ =>
      spans_byte.bind fun _ => spans_byte.bind fun _ => spans_byte.bind fun _ =>
      (spans_uint 4).bind fun _ => spans_pure _

end DateTimeField

namespace Temporal

/-- A reading of a time or date-time field goes on by at most the bytes of the parts that its
declared length asks for, and by all of them if they are there; so it keeps within the declared
length exactly if the parts fit into it. -/
theorem within_read_iff
    (n : Nat) :
  ((TimeField.read n).Spans (TimeField.width n) ∧
    ((TimeField.read n).Within n ↔ n ≤ 8 ∨ 12 ≤ n)) ∧
  ((DateTimeField.read n).Spans (DateTimeField.width n) ∧
    ((DateTimeField.read n).Within n ↔ n = 0 ∨ n = 4 ∨ n = 7 ∨ 11 ≤ n))
  := by
  have time := TimeField.spans_read n
  have dateTime := DateTimeField.spans_read n
  refine ⟨⟨time, ?_⟩, dateTime, ?_⟩
  · rw [time.within_iff, TimeField.width_le_iff]
  · rw [dateTime.within_iff, DateTimeField.width_le_iff]

/-- A date-time field that is declared to have five bytes is read with seven, and a time field that
is declared to have nine bytes with twelve, although what is behind belongs to the next field. -/
theorem not_within_read :
  let dateTime := Cursor.ofBytes [0xE8, 7, 10, 21, 12, 36, 5]
  let time := Cursor.ofBytes [0, 1, 0, 0, 0, 12, 36, 5, 7, 8, 0, 0]
  (DateTimeField.read 5 dateTime).2.position = 7 ∧ (TimeField.read 9 time).2.position = 12 ∧
    ¬ ∀ n c, (TimeField.read n c).2.position ≤ c.position + n ∧
      (DateTimeField.read n c).2.position ≤ c.position + n
  := by
  intro dateTime time
  have seven : (DateTimeField.read 5 dateTime).2.position = 7 := by decide
  have twelve : (TimeField.read 9 time).2.position = 12 := by decide
  refine ⟨seven, twelve, ?_⟩
  intro h
  have kept := (h 5 dateTime).2
  rw [seven] at kept
  revert kept
  decide

end Temporal

end SqlWire
