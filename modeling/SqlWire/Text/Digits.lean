import SqlWire.Bytes

/-!
# Decimal digits in text

The writing `pad w n` of a number in at least `w` decimal digits, and the number `value ds` that a
run of digit characters denotes.  Only the ten ASCII digits count as digits.

A run may be long.  `below?` gives up at the first digit that takes the number to a bound, and
`longValue` joins the numbers of the halves of a run; both agree with `value`.
-/

namespace SqlWire.Digits

/-- The ten ASCII digits. -/
def isDigit (c : Char) : Bool :=
  '0' ≤ c && c ≤ '9'

/-- The value of a digit character. -/
def digitValue (c : Char) : Nat :=
  c.toNat - 48

/-- The number that a run of digits denotes. -/
def value (ds : List Char) : Nat :=
  ds.foldl (fun n c => 10 * n + digitValue c) 0

/-- The number that a run of digits makes behind the digits of `n`, while it stays below a bound. -/
def belowFrom? (bound n : Nat) : List Char → Option Nat
  | [] => some n
  | c :: cs =>
    let next := 10 * n + digitValue c
    if next < bound then belowFrom? bound next cs else none

/-- The number that a run of digits denotes, if it is below a bound. -/
def below? (bound : Nat) (ds : List Char) : Option Nat :=
  belowFrom? bound 0 ds

/-- The number that a run of digits denotes, from those of its halves, halved `depth` times. -/
def halvedValue : Nat → List Char → Nat
  | 0, ds => value ds
  | depth + 1, ds =>
    let half := ds.length / 2
    halvedValue depth (ds.take half) * 10 ^ (ds.length - half) + halvedValue depth (ds.drop half)

/-- The number that a run of digits denotes, from those of pieces of at most some fifty digits. -/
def longValue (ds : List Char) : Nat :=
  halvedValue (ds.length / 32).log2 ds

/-- The decimal digits of a number, without leading zeros. -/
def ofNat (n : Nat) : List Char :=
  Nat.toDigits 10 n

/-- A text filled up with zeros on its left to at least `w` characters. -/
def fill (w : Nat) (ds : List Char) : List Char :=
  List.replicate (w - ds.length) '0' ++ ds

/-- The decimal digits of a number, filled up with zeros to at least `w` of them. -/
def pad (w n : Nat) : String :=
  String.ofList (fill w (ofNat n))

/-- The run is a number: it is not empty and holds only digits. -/
def isNumber (ds : List Char) : Bool :=
  !ds.isEmpty && ds.all isDigit

/-! ### Values -/

theorem foldl_value
    (ds : List Char) (n : Nat) :
  ds.foldl (fun n c => 10 * n + digitValue c) n = n * 10 ^ ds.length + value ds
  := by
  induction ds generalizing n with
  | nil => simp [value]
  | cons c ds ih =>
    simp only [value, List.foldl_cons, List.length_cons, Nat.pow_succ]
    rw [ih, ih (10 * 0 + digitValue c)]
    simp only [Nat.mul_zero, Nat.zero_add, Nat.add_mul, Nat.add_assoc]
    rw [Nat.mul_comm 10 n, Nat.mul_assoc, Nat.mul_comm 10]

/-- The digits behind others count for themselves, and move the others up. -/
theorem value_append
    (as bs : List Char) :
  value (as ++ bs) = value as * 10 ^ bs.length + value bs
  := by
  rw [value, List.foldl_append, foldl_value]
  rfl

theorem halvedValue_eq
    (depth : Nat) (ds : List Char) :
  halvedValue depth ds = value ds
  := by
  induction depth generalizing ds with
  | zero => rfl
  | succ depth ih =>
    have split := value_append (ds.take (ds.length / 2)) (ds.drop (ds.length / 2))
    rw [List.take_append_drop, List.length_drop] at split
    rw [halvedValue, ih, ih, split]

theorem longValue_eq
    (ds : List Char) :
  longValue ds = value ds
  :=
  halvedValue_eq _ ds

theorem belowFrom?_eq
    {bound n : Nat} (h : n < bound) (ds : List Char) :
  belowFrom? bound n ds =
    if n * 10 ^ ds.length + value ds < bound then some (n * 10 ^ ds.length + value ds) else none
  := by
  induction ds generalizing n with
  | nil => simp [belowFrom?, value, h]
  | cons c ds ih =>
    have step : n * 10 ^ (c :: ds).length + value (c :: ds) =
        (10 * n + digitValue c) * 10 ^ ds.length + value ds := by
      rw [← foldl_value, ← foldl_value, List.foldl_cons]
    rw [step, belowFrom?]
    split
    next small => exact ih small
    next large =>
      have power : 0 < 10 ^ ds.length := Nat.pow_pos (by decide)
      have grows := Nat.le_mul_of_pos_right (10 * n + digitValue c) power
      rw [if_neg (by omega)]

/-- The bounded reading gives the number exactly when it is below the bound. -/
theorem below?_eq
    {bound : Nat} (h : 0 < bound) (ds : List Char) :
  below? bound ds = if value ds < bound then some (value ds) else none
  := by
  rw [below?, belowFrom?_eq h, Nat.zero_mul, Nat.zero_add]

end SqlWire.Digits
