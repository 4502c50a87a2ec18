import Mathlib.Data.List.Forall2
import Mathlib.Tactic.Use
import SqlWire.Geometry.Binary

/-!
# The grammar of well-known binary

The bytes `Encodes orders g bs` that stand for a geometry when every body in it, its own and those
of its members however deep, is in one of the given byte orders.  A body is its header and what
`ByteOrder.payload` puts behind it, where `members` are the geometries whose bodies are nested in it
and `counts` the numbers written in it.  The body that is written, `toBinary`, is the one in which
all orders are little-endian: `encodes_little_iff`.
-/

namespace SqlWire

namespace ByteOrder

/-- The byte order and shape in front of a body. -/
def header (order : ByteOrder) (s : Shape) : Bytes :=
  order.marker :: order.bytes 4 s.code

/-- Parts behind their number. -/
def counted (order : ByteOrder) (parts : List Bytes) : Bytes :=
  order.bytes 4 parts.length ++ parts.flatten

/-- The coordinates of a point. -/
def point (order : ByteOrder) (p : Point) : Bytes :=
  order.bytes 8 p.x.bits.toNat ++ order.bytes 8 p.y.bits.toNat

/-- The points of a run behind their number. -/
def run (order : ByteOrder) (points : PointRun) : Bytes :=
  order.counted (points.map order.point)

/-- What is behind the header of a body whose members have the given bodies. -/
def payload (order : ByteOrder) (g : Geometry) (bodies : List Bytes) : Bytes :=
  match g with
  | .point p => order.point p
  | .lineString points => order.run points
  | .polygon rings => order.counted (rings.map order.run)
  | _ => order.counted bodies

end ByteOrder

namespace Geometry

/-- The geometries whose bodies are nested in the body of a geometry. -/
def members : Geometry → List Geometry
  | multiPoint points => points.map .point
  | multiLineString lines => lines.map .lineString
  | multiPolygon polygons => polygons.map .polygon
  | collection members => members
  | _ => []

/-- The numbers of parts that are written in the body of a geometry, outside of its members. -/
def counts : Geometry → List Nat
  | point _ => []
  | lineString points => [points.length]
  | polygon rings => rings.length :: rings.map List.length
  | g => [g.members.length]

/-- The number of parts from which on four bytes cannot count them. -/
def countLimit : Nat := 2 ^ 32

/-- The bytes stand for the geometry, with every body in one of the given byte orders. -/
inductive Encodes (orders : ByteOrder → Prop) : Geometry → Bytes → Prop where
  | body {g : Geometry} {bodies : List Bytes} (order : ByteOrder) (horder : orders order)
      (hcounts : ∀ n ∈ g.counts, n < countLimit)
      (hmembers : List.Forall₂ (Encodes orders) g.members bodies) :
      Encodes orders g (order.header g.shape ++ order.payload g bodies)

/-- Four bytes can count the parts of the geometry and those of its members, however deep. -/
inductive CountsFit : Geometry → Prop where
  | intro {g : Geometry} (hcounts : ∀ n ∈ g.counts, n < countLimit)
      (hmembers : ∀ m ∈ g.members, CountsFit m) : CountsFit g

/-! ### Members -/

theorem depth_eq_membersDepth
    (g : Geometry) :
  g.depth = membersDepth g.members
  := by
  have flat {α : Type} (f : α → Geometry) (h : ∀ a, (f a).depth = 0) (as : List α) :
      membersDepth (as.map f) = if as.isEmpty then 0 else 1 := by
    induction as with
    | nil => rfl
    | cons a as ih =>
      rw [List.map_cons, membersDepth, ih, h]
      cases as <;> rfl
  cases g with
  | point | lineString | polygon | collection => simp only [depth, members, membersDepth]
  | multiPoint points => rw [depth, members, flat _ fun _ => rfl]
  | multiLineString lines => rw [depth, members, flat _ fun _ => rfl]
  | multiPolygon polygons => rw [depth, members, flat _ fun _ => rfl]

theorem membersDepth_le_iff
    {n : Nat} {ms : List Geometry} :
  membersDepth ms ≤ n ↔ ∀ m ∈ ms, m.depth < n
  := by
  induction ms with
  | nil => simp [membersDepth]
  | cons m ms ih => rw [membersDepth, Nat.max_le, ih, List.forall_mem_cons, Nat.succ_le_iff]

/-- A geometry is deep as its members say, each of which is less deep. -/
theorem depth_le_iff
    {n : Nat} {g : Geometry} :
  g.depth ≤ n ↔ ∀ m ∈ g.members, m.depth < n
  := by
  rw [depth_eq_membersDepth, membersDepth_le_iff]

/-- What holds of a geometry when it holds of its members holds of every geometry. -/
theorem members_induction
    {P : Geometry → Prop} (step : ∀ g, (∀ m ∈ g.members, P m) → P g) (g : Geometry) :
  P g
  := by
  generalize hn : g.depth = n
  induction n using Nat.strongRecOn generalizing g with
  | ind n ih =>
    apply step
    intro m hm
    apply ih m.depth (hn ▸ depth_le_iff.mp (Nat.le_refl _) m hm) m rfl

/-! ### Parts -/

theorem forall₂_congr_of_mem
    {α β : Type} {R S : α → β → Prop} {as : List α} {bs : List β}
    (h : ∀ a ∈ as, ∀ b, R a b ↔ S a b) :
  List.Forall₂ R as bs ↔ List.Forall₂ S as bs
  := by
  constructor
  · intro hR
    apply ((List.forall₂_and_left _ _).mpr ⟨h, hR⟩).imp
    rintro a b ⟨hab, hR⟩
    apply (hab b).mp hR
  · intro hS
    apply ((List.forall₂_and_left _ _).mpr ⟨h, hS⟩).imp
    rintro a b ⟨hab, hS⟩
    apply (hab b).mpr hS

theorem forall₂_eq_iff
    {α β : Type} {f : α → β} {as : List α} {bs : List β} :
  List.Forall₂ (fun a b => b = f a) as bs ↔ bs = as.map f
  := by
  simp only [eq_comm (b := f _)]
  rw [← List.forall₂_map_left_iff (R := Eq), List.forall₂_eq_eq_eq, eq_comm]

/-! ### Byte orders -/

theorem Encodes.mono
    {orders orders' : ByteOrder → Prop} (h : ∀ o, orders o → orders' o) {g : Geometry} {bs : Bytes}
    (hg : Encodes orders g bs) :
  Encodes orders' g bs
  := by
  induction g using members_induction generalizing bs with
  | step g ih =>
    obtain ⟨order, horder, hcounts, hmembers⟩ := hg
    apply Encodes.body order (h order horder) hcounts
    have himp (m : Geometry) (hm : m ∈ g.members) (bs : Bytes) :
        Encodes orders m bs → Encodes orders' m bs := ih m hm
    apply ((List.forall₂_and_left _ _).mpr ⟨himp, hmembers⟩).imp
    rintro m bs ⟨hm, hbs⟩
    apply hm bs hbs

/-! ### The body that is written -/

theorem counted_little
    {α : Type} (f : α → Bytes) (as : List α) :
  ByteOrder.little.counted (as.map f) = Bytes.ofNatLE 4 as.length ++ as.flatMap f
  := by
  rw [ByteOrder.counted, List.length_map, List.flatMap_def]
  rfl

theorem run_little :
  ByteOrder.little.run = runBytes
  := by
  funext points
  apply counted_little pointBytes points

/-- The body that is written is made of the bodies of the members, with all orders little-endian. -/
theorem toBinary_eq
    (g : Geometry) :
  g.toBinary =
    ByteOrder.little.header g.shape ++ ByteOrder.little.payload g (g.members.map toBinary)
  := by
  have nested (ms : List Geometry) : membersBinary ms = ms.flatMap toBinary := by
    induction ms with
    | nil => rfl
    | cons m ms ih => rw [membersBinary, ih, List.flatMap_cons]
  have header (s : Shape) : header s = ByteOrder.little.header s := rfl
  cases g with
  | point p => rw [toBinary]; rfl
  | lineString points => rw [toBinary, ← run_little]; rfl
  | polygon rings => rw [toBinary, ringsBytes, ← counted_little, ← run_little]; rfl
  | multiPoint points =>
    rw [toBinary, List.append_assoc, ← counted_little, members, List.map_map]
    simp only [Function.comp_def, toBinary]
    rfl
  | multiLineString lines =>
    rw [toBinary, List.append_assoc, ← counted_little, members, List.map_map]
    simp only [Function.comp_def, toBinary]
    rfl
  | multiPolygon polygons =>
    rw [toBinary, List.append_assoc, ← counted_little, members, List.map_map]
    simp only [Function.comp_def, toBinary]
    rfl
  | collection ms => rw [toBinary, nested, List.append_assoc, ← counted_little]; rfl

theorem encodes_little_iff
    (g : Geometry) (bs : Bytes) :
  Encodes (· = .little) g bs ↔ g.CountsFit ∧ bs = g.toBinary
  := by
  induction g using members_induction generalizing bs with
  | step g ih =>
    have bodies_iff (bodies : List Bytes) :
        List.Forall₂ (Encodes (· = .little)) g.members bodies ↔
          (∀ m ∈ g.members, m.CountsFit) ∧ bodies = g.members.map toBinary := by
      rw [forall₂_congr_of_mem ih, List.forall₂_and_left, forall₂_eq_iff]
    constructor
    · rintro ⟨order, rfl, hcounts, hmembers⟩
      obtain ⟨hfit, rfl⟩ := (bodies_iff _).mp hmembers
      exact ⟨.intro hcounts hfit, (toBinary_eq g).symm⟩
    · rintro ⟨⟨hcounts, hfit⟩, rfl⟩
      rw [toBinary_eq]
      exact .body .little rfl hcounts ((bodies_iff _).mpr ⟨hfit, rfl⟩)

end Geometry

end SqlWire
