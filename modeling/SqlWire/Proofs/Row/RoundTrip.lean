import SqlWire.Proofs.Column.RoundTrip
import SqlWire.Proofs.Row.Splitting

/-!
# Parameters are read back from rows

Values that are written as the parameters of a statement, one behind the other, are the fields of a
row in binary form with a column for each: every value is read back from its column, and every null
from the bitmap, `Row.get_ofBinary`.  A field `Stands` for a value in a column when it is the one
that was written.
-/

namespace SqlWire

namespace Value

theorem isNull_eq
    (v : Value) :
  v.isNull = v.target?.isNone
  := by
  cases v <;> rfl

theorem eq_null_of_target?_eq_none
    {v : Value} (h : v.target? = none) :
  v = null
  := by
  cases v with
  | null => rfl
  | _ => cases h

/-- The field of a value; the null value has none. -/
def field (v : Value) : Bytes :=
  match v.binaryBytes none with
  | .ok (_, bs) => bs
  | .error _ => []

/-- The fields of values, one behind the other. -/
def block (vs : List Value) : Bytes :=
  vs.flatMap field

end Value

namespace Row

/-- What stands for a value in a column: nothing for the null value, and the bytes that carry it for
any other. -/
inductive Stands : Column × Value → Option Bytes → Prop where
  | null {c : Column} {v : Value} (htarget : v.target? = none) : Stands (c, v) none
  | carried {c : Column} {v : Value} {target : Target} {bs : Bytes}
      (htarget : v.target? = some target) (hbs : c.Carries target v bs) : Stands (c, v) (some bs)

theorem exists_stands
    {e : Column × Value} (he : (∀ target ∈ e.2.target?, e.1.IsFor target) ∧ e.2.Fits) :
  ∃ field, Stands e field
  := by
  obtain ⟨c, v⟩ := e
  obtain ⟨hc, hfits⟩ := he
  cases htarget : v.target? with
  | none => exact ⟨none, .null htarget⟩
  | some target =>
    obtain ⟨bs, hbs⟩ := Column.exists_carries (hc target htarget) htarget hfits
    exact ⟨some bs, .carried htarget hbs⟩

theorem isNone_of_stands
    {e : Column × Value} {field : Option Bytes} (h : Stands e field) :
  field.isNone = e.2.isNull
  := by
  rw [Value.isNull_eq]
  cases h with
  | null htarget => rw [htarget, Option.isNone_none, Option.isNone_none]
  | carried htarget => rw [htarget, Option.isNone_some, Option.isNone_some]

theorem fieldBytes_of_stands
    {e : Column × Value} {field : Option Bytes} (h : Stands e field) :
  fieldBytes e.1 field = e.2.field
  := by
  cases h with
  | null htarget =>
    rw [Value.eq_null_of_target?_eq_none htarget]
    rfl
  | carried _ hbs =>
    rw [Value.field, hbs.written]
    rfl

theorem canHold_of_stands
    {e : Column × Value} {field : Option Bytes} (h : Stands e field)
    (hlength : e.2.field.length < 2 ^ 64) :
  CanHold e.1 field
  := by
  rw [← fieldBytes_of_stands h] at hlength
  cases h with
  | null => nofun
  | @carried c v target bs _ hbs =>
    rintro _ ⟨⟩
    exact ⟨Nat.lt_of_le_of_lt (length_le_binaryField c bs) hlength, hbs.width⟩

/-- Every value of its columns has a field. -/
theorem exists_forall₂_stands
    {entries : List (Column × Value)}
    (hentries : ∀ e ∈ entries, (∀ target ∈ e.2.target?, e.1.IsFor target) ∧ e.2.Fits) :
  ∃ fields, List.Forall₂ Stands entries fields
  := by
  induction entries with
  | nil => exact ⟨[], .nil⟩
  | cons e entries ih =>
    obtain ⟨he, hentries⟩ := List.forall_mem_cons.mp hentries
    obtain ⟨field, hfield⟩ := exists_stands he
    obtain ⟨fields, hfields⟩ := ih hentries
    exact ⟨field :: fields, .cons hfield hfields⟩

theorem forall₂_canHold
    {entries : List (Column × Value)} {fields : List (Option Bytes)}
    (h : List.Forall₂ Stands entries fields)
    (hlength : (Value.block (entries.map Prod.snd)).length < 2 ^ 64) :
  List.Forall₂ CanHold (entries.map Prod.fst) fields
  := by
  induction h with
  | nil => exact .nil
  | cons hfield _ ih =>
    rw [List.map_cons, Value.block, List.flatMap_cons, List.length_append, ← Value.block] at hlength
    exact .cons (canHold_of_stands hfield (by omega)) (ih (by omega))

theorem block_eq
    {entries : List (Column × Value)} {fields : List (Option Bytes)}
    (h : List.Forall₂ Stands entries fields) :
  Value.block (entries.map Prod.snd) =
    (List.zipWith fieldBytes (entries.map Prod.fst) fields).flatten
  := by
  induction h with
  | nil => rfl
  | cons hfield _ ih =>
    rw [List.map_cons, List.map_cons, List.zipWith_cons_cons, List.flatten_cons, ← ih,
      fieldBytes_of_stands hfield]
    rfl

theorem map_isNone_eq
    {entries : List (Column × Value)} {fields : List (Option Bytes)}
    (h : List.Forall₂ Stands entries fields) :
  fields.map Option.isNone = entries.map fun e => e.2.isNull
  := by
  induction h with
  | nil => rfl
  | cons hfield _ ih => rw [List.map_cons, List.map_cons, ih, isNone_of_stands hfield]

/-- What stands for a value is read back as the value. -/
theorem get_of_stands
    {cs : Columns} {fields : List (Option Bytes)} {i : Nat} {e : Column × Value}
    {field : Option Bytes} (hcolumn : cs[i]? = some e.1) (hfield : fields[i]? = some field)
    (h : Stands e field) :
  match e.2.target? with
  | none => ∀ target, get ⟨cs, fields, .binary⟩ target i = .ok none
  | some target =>
    (∃ bs, e.2.binaryBytes none = .ok (target.wireType, bs)) ∧
      ∃ w, get ⟨cs, fields, .binary⟩ target i = .ok (some w) ∧ e.2.ReadBack w
  := by
  cases h with
  | null htarget =>
    simp only [htarget]
    intro target
    simp only [get, column, field?, hcolumn, hfield]
    rfl
  | carried htarget hbs =>
    simp only [htarget]
    obtain ⟨hwritten, -, w, hdecode, hback⟩ := hbs
    use ⟨_, hwritten⟩, w
    simp only [get, column, field?, hcolumn, hfield]
    constructor
    · change (do return some (← Column.decode _ _ _ _)) = _
      rw [hdecode]
      rfl
    · apply hback

/-- Parameters with a bitmap of their nulls in front are a row of their columns, from which each is
read back, provided that the lengths of the fields have eight bytes. -/
theorem get_ofBinary
    (entries : List (Column × Value)) (bitmap : Bytes)
    (hentries : ∀ e ∈ entries, (∀ target ∈ e.2.target?, e.1.IsFor target) ∧ e.2.Fits)
    (hbitmap : bitmap.length = (entries.length + 9) / 8)
    (hbits : ∀ (i : Nat) (h : i < entries.length), bit bitmap (i + 2) = entries[i].2.isNull)
    (hlength : (Value.block (entries.map Prod.snd)).length < 2 ^ 64) :
  ∃ row, ofBinary (entries.map Prod.fst) (0 :: bitmap ++ Value.block (entries.map Prod.snd)) =
      .ok row ∧
    ∀ (i : Nat) (h : i < entries.length),
      match entries[i].2.target? with
      | none => ∀ target, row.get target i = .ok none
      | some target =>
        (∃ field, entries[i].2.binaryBytes none = .ok (target.wireType, field)) ∧
          ∃ w, row.get target i = .ok (some w) ∧ entries[i].2.ReadBack w
  := by
  obtain ⟨fields, hfields⟩ := exists_forall₂_stands hentries
  use ⟨entries.map Prod.fst, fields, .binary⟩
  constructor
  · rw [block_eq hfields]
    apply ofBinary_eq_ok (forall₂_canHold hfields hlength)
    · rw [List.length_map, hbitmap, bitmapWidth]
    · rw [map_isNone_eq hfields]
      apply List.ext_getElem
      · rw [List.length_map, List.length_map, List.length_range', hfields.length_eq]
      · intro i _ h
        rw [List.length_map] at h
        simp only [List.getElem_map, List.getElem_range', Nat.one_mul, Nat.add_comm 2, hbits i h]
  · intro i h
    have hi : i < fields.length := hfields.length_eq ▸ h
    have hcolumn : (entries.map Prod.fst)[i]? = some entries[i].1 := by
      rw [List.getElem?_map, List.getElem?_eq_getElem h]
      rfl
    apply get_of_stands hcolumn (List.getElem?_eq_getElem hi) (hfields.get h hi)

/-- A number, a null and some bytes. -/
theorem get_ofBinary_three :
  let entries : List (Column × Value) :=
    [(.ofNameAndType "n" .tiny, .int8 (-5)), (.ofNameAndType "d" .date, .null),
      (.ofNameAndType "b" .blob, .bytes [7, 8])]
  (∀ e ∈ entries, (∀ target ∈ e.2.target?, e.1.IsFor target) ∧ e.2.Fits) ∧
  ([0x08] : Bytes).length = (entries.length + 9) / 8 ∧
  (∀ (i : Nat) (h : i < entries.length), bit [0x08] (i + 2) = entries[i].2.isNull) ∧
  (Value.block (entries.map Prod.snd)).length < 2 ^ 64 ∧
  ∃ row, ofBinary (entries.map Prod.fst) [0, 0x08, 0xFB, 2, 7, 8] = .ok row ∧
    row.get .int8 0 = .ok (some (.int8 (-5))) ∧ row.get .text 1 = .ok none ∧
    row.get .bytes 2 = .ok (some (.bytes [7, 8]))
  := by
  intro entries
  have hentries : ∀ e ∈ entries, (∀ target ∈ e.2.target?, e.1.IsFor target) ∧ e.2.Fits := by
    simp only [entries, List.forall_mem_cons]
    refine ⟨⟨?_, trivial⟩, ⟨?_, trivial⟩, ⟨?_, trivial⟩, List.forall_mem_nil _⟩
    · rintro _ ⟨⟩
      exact ⟨rfl, by decide, by decide⟩
    · rintro _ ⟨⟩
    · rintro _ ⟨⟩
      exact ⟨rfl, by decide, by decide⟩
  have hbits : ∀ (i : Nat) (h : i < entries.length), bit [0x08] (i + 2) = entries[i].2.isNull := by
    decide
  have hlength : (Value.block (entries.map Prod.snd)).length < 2 ^ 64 := by decide
  have hbitmap : ([0x08] : Bytes).length = (entries.length + 9) / 8 := by decide
  refine ⟨hentries, hbitmap, hbits, hlength, ?_⟩
  obtain ⟨row, hrow, hget⟩ := get_ofBinary entries [0x08] hentries hbitmap hbits hlength
  obtain ⟨-, _, first, rfl⟩ := hget 0 (by decide)
  obtain ⟨-, _, third, rfl⟩ := hget 2 (by decide)
  exact ⟨row, hrow, first, hget 1 (by decide) .text, third⟩

end Row

end SqlWire
