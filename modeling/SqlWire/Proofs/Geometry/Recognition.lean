import SqlWire.Proofs.Geometry.Grammar
import SqlWire.Proofs.Reading

/-!
# Well-known binary is recognised

The reader of bodies recognises the grammar of well-known binary up to its greatest depth,
`Geometry.recognises_readNested`.  So a body in which every part chooses its byte order is read as
the geometry it stands for, and nothing else is; what has been written is read back, and what has
been read from a little-endian body is written as it was: `Geometry.readBinary_iff_encodes`.
-/

namespace SqlWire

namespace ByteOrder

theorem length_bytes
    (order : ByteOrder) (w n : Nat) :
  (order.bytes w n).length = w
  := by
  cases order with
  | big => exact Bytes.length_ofNatBE w n
  | little => exact Bytes.length_ofNatLE w n

/-- Bytes denote a number exactly when they are its writing in their width. -/
theorem value_eq_iff
    {order : ByteOrder} {w n : Nat} {bs : Bytes} :
  (bs.length = w ∧ order.value bs = n) ↔ n < 256 ^ w ∧ bs = order.bytes w n
  := by
  constructor
  · rintro ⟨rfl, hvalue⟩
    cases order with
    | little => exact Bytes.littleEndian_eq_iff.mp hvalue
    | big =>
      rw [value, ← List.reverse_reverse bs, Bytes.bigEndian_reverse, Bytes.littleEndian_eq_iff,
        List.length_reverse, List.reverse_eq_iff] at hvalue
      apply hvalue
  · rintro ⟨hfits, rfl⟩
    use length_bytes order w n
    cases order with
    | little => exact Bytes.littleEndian_ofNatLE_of_lt hfits
    | big =>
      rw [value, bytes, Bytes.ofNatBE, Bytes.bigEndian_reverse]
      apply Bytes.littleEndian_ofNatLE_of_lt hfits

theorem ofMarker?_eq_some_iff
    {b : UInt8} {order : ByteOrder} :
  ofMarker? b = some order ↔ b = order.marker
  := by
  constructor
  · intro h
    unfold ofMarker? at h
    split at h
    next hb =>
      cases h
      apply hb
    next =>
      split at h
      next hb =>
        cases h
        apply hb
      next => cases h
  · rintro rfl
    cases order <;> rfl

end ByteOrder

namespace Geometry

open Reader

/-! ### Numbers and points -/

theorem recognises_readNumber
    (order : ByteOrder) :
  (readNumber order).Recognises fun n bs => n < countLimit ∧ bs = order.bytes 4 n
  := by
  apply ((recognises_bytes 4).map order.value).congr
  intro n bs
  rw [show countLimit = 256 ^ 4 from rfl, ← ByteOrder.value_eq_iff]
  constructor
  · rintro ⟨_, ⟨rfl, hlength⟩, hvalue⟩
    exact ⟨hlength, hvalue⟩
  · rintro ⟨hlength, hvalue⟩
    exact ⟨bs, ⟨rfl, hlength⟩, hvalue⟩

theorem recognises_readCoordinate
    (order : ByteOrder) :
  (readCoordinate order).Recognises fun x bs => bs = order.bytes 8 x.bits.toNat
  := by
  apply ((recognises_bytes 8).map fun bs => Double.ofBits (order.value bs)).congr
  intro x bs
  constructor
  · rintro ⟨_, ⟨rfl, hlength⟩, rfl⟩
    obtain ⟨hfits, hbytes⟩ := ByteOrder.value_eq_iff.mp ⟨hlength, rfl⟩
    rw [Double.ofBits, UInt64.toNat_ofNat_of_lt' hfits]
    apply hbytes
  · intro hbytes
    obtain ⟨hlength, hvalue⟩ := ByteOrder.value_eq_iff.mpr ⟨x.bits.toNat_lt, hbytes⟩
    refine ⟨bs, ⟨rfl, hlength⟩, ?_⟩
    rw [hvalue, Double.ofBits, UInt64.ofNat_toNat]

theorem recognises_readPoint
    (order : ByteOrder) :
  (readPoint order).Recognises fun p bs => bs = order.point p
  := by
  apply ((recognises_readCoordinate order).bind fun x =>
    (recognises_readCoordinate order).map (Point.mk x)).congr
  intro p bs
  constructor
  · rintro ⟨x, _, _, rfl, ⟨y, rfl, rfl⟩, rfl⟩
    rfl
  · rintro rfl
    exact ⟨p.x, _, _, rfl, ⟨p.y, rfl, rfl⟩, rfl⟩

/-! ### Parts behind their number -/

theorem recognises_readMany
    {α : Type} {item : Reader α} {G : α → Bytes → Prop} (hitem : item.Recognises G)
    (n : Nat) (read : List α) :
  (readMany item n read).Recognises fun as bs =>
    ∃ items parts, as = read.reverse ++ items ∧ items.length = n ∧ List.Forall₂ G items parts ∧
      bs = parts.flatten
  := by
  induction n generalizing read with
  | zero =>
    apply (recognises_pure _).congr
    intro as bs
    constructor
    · rintro ⟨rfl, rfl⟩
      exact ⟨[], [], (List.append_nil _).symm, rfl, .nil, rfl⟩
    · rintro ⟨items, parts, rfl, hlength, hparts, rfl⟩
      cases hparts with
      | nil => exact ⟨List.append_nil _, rfl⟩
      | cons => cases hlength
  | succ n ih =>
    apply (hitem.bind fun a => ih (a :: read)).congr
    intro as bs
    constructor
    · rintro ⟨a, cs, _, hcs, ⟨items, parts, rfl, hlength, hparts, rfl⟩, rfl⟩
      refine ⟨a :: items, cs :: parts, ?_, ?_, .cons hcs hparts, rfl⟩
      · rw [List.reverse_cons, List.append_assoc, List.singleton_append]
      · rw [List.length_cons, hlength]
    · rintro ⟨items, parts, rfl, hlength, hparts, rfl⟩
      cases hparts with
      | nil => cases hlength
      | @cons a cs items parts hcs hparts =>
        refine ⟨a, cs, parts.flatten, hcs, ⟨items, parts, ?_, ?_, hparts, rfl⟩, rfl⟩
        · rw [List.reverse_cons, List.append_assoc, List.singleton_append]
        · apply Nat.succ.inj hlength

/-- Items behind their number. -/
theorem recognises_readCounted
    {α : Type} {item : Reader α} {G : α → Bytes → Prop} (order : ByteOrder)
    (hitem : item.Recognises G) :
  (readCounted order item).Recognises fun as bs =>
    as.length < countLimit ∧ ∃ parts, List.Forall₂ G as parts ∧ bs = order.counted parts
  := by
  apply ((recognises_readNumber order).bind fun n => recognises_readMany hitem n []).congr
  intro as bs
  constructor
  · rintro ⟨n, _, _, ⟨hfits, rfl⟩, ⟨items, parts, rfl, rfl, hparts, rfl⟩, rfl⟩
    refine ⟨hfits, parts, hparts, ?_⟩
    rw [ByteOrder.counted, hparts.length_eq]
  · rintro ⟨hfits, parts, hparts, rfl⟩
    refine ⟨as.length, _, _, ⟨hfits, rfl⟩, ⟨as, parts, rfl, rfl, hparts, rfl⟩, ?_⟩
    rw [ByteOrder.counted, hparts.length_eq]

theorem recognises_readRun
    (order : ByteOrder) :
  (readRun order).Recognises fun points bs =>
    points.length < countLimit ∧ bs = order.run points
  := by
  apply (recognises_readCounted order (recognises_readPoint order)).congr
  intro points bs
  simp only [forall₂_eq_iff, exists_eq_left]
  rfl

theorem recognises_readRings
    (order : ByteOrder) :
  (readRings order).Recognises fun rings bs =>
    (∀ n ∈ (polygon rings).counts, n < countLimit) ∧ bs = order.counted (rings.map order.run)
  := by
  apply (recognises_readCounted order (recognises_readRun order)).congr
  intro rings bs
  simp only [List.forall₂_and_left, forall₂_eq_iff]
  simp [counts, and_assoc]

/-! ### Bodies -/

theorem recognises_readOrder :
  readOrder.Recognises fun order bs => bs = [order.marker]
  := by
  have steps : readOrder.Recognises fun order bs =>
      ∃ b cs ds, cs = [b] ∧ (b = ByteOrder.marker order ∧ ds = []) ∧ bs = cs ++ ds := by
    apply recognises_byte.bind
    intro b
    simp only [← ByteOrder.ofMarker?_eq_some_iff]
    split
    next order horder =>
      apply (recognises_pure order).congr
      intro order' bs
      rw [horder, Option.some.injEq, eq_comm]
    next hnone =>
      apply (recognises_fail _).congr
      intro order' bs
      simp [hnone]
  apply steps.congr
  intro order bs
  simp

/-- Members of one shape. -/
theorem recognises_readMember
    {α : Type} {member : Reader Geometry} {G : Geometry → Bytes → Prop}
    (hmember : member.Recognises G) {as : Geometry → Except Error α} {shape : α → Geometry}
    (has : ∀ g a, as g = .ok a ↔ g = shape a) :
  (readMember member as).Recognises fun a bs => G (shape a) bs
  := by
  have lifted : (readMember member as).Recognises fun a bs => ∃ g, G g bs ∧ as g = .ok a :=
    hmember.lift
  apply lifted.congr
  intro a bs
  simp only [has, exists_eq_right]

/-- What is behind the header of a body of the shape, when the members are those of a grammar. -/
def Behind (order : ByteOrder) (G : Geometry → Bytes → Prop) (s : Shape) (g : Geometry)
    (bs : Bytes) : Prop :=
  g.shape = s ∧ (∀ n ∈ g.counts, n < countLimit) ∧
    ∃ bodies, List.Forall₂ G g.members bodies ∧ bs = order.payload g bodies

theorem asPoint_eq_ok_iff
    (g : Geometry) (p : Point) :
  asPoint g = .ok p ↔ g = point p
  := by
  cases g <;> simp [asPoint]

theorem asRun_eq_ok_iff
    (g : Geometry) (points : PointRun) :
  asRun g = .ok points ↔ g = lineString points
  := by
  cases g <;> simp [asRun]

theorem asRings_eq_ok_iff
    (g : Geometry) (rings : Rings) :
  asRings g = .ok rings ↔ g = polygon rings
  := by
  cases g <;> simp [asRings]

/-- The reader of what is behind the header of a body of the given shape. -/
def readShape (member : Reader Geometry) (order : ByteOrder) : Shape → Reader Geometry
  | .point => do return point (← readPoint order)
  | .lineString => do return lineString (← readRun order)
  | .polygon => do return polygon (← readRings order)
  | .multiPoint => do return multiPoint (← readCounted order (readMember member asPoint))
  | .multiLineString => do
    return multiLineString (← readCounted order (readMember member asRun))
  | .multiPolygon => do return multiPolygon (← readCounted order (readMember member asRings))
  | .collection => do return collection (← readCounted order member)

theorem readBody_eq
    (member : Reader Geometry) :
  readBody member = (do
    let order ← readOrder
    let code ← readNumber order
    match Shape.ofCode? code with
    | some s => readShape member order s
    | none => Reader.fail (.protocol (.shapeCode code)))
  := by
  unfold readBody
  congr
  funext order
  congr
  funext code
  cases Shape.ofCode? code with
  | none => rfl
  | some s => cases s <;> rfl

theorem recognises_readShape
    {member : Reader Geometry} {G : Geometry → Bytes → Prop} (hmember : member.Recognises G)
    (order : ByteOrder) (s : Shape) :
  (readShape member order s).Recognises (Behind order G s)
  := by
  cases s with
  | point =>
    apply ((recognises_readPoint order).map point).congr
    intro g bs
    cases g <;> simp [Behind, shape, counts, members, ByteOrder.payload]
  | lineString =>
    apply ((recognises_readRun order).map lineString).congr
    intro g bs
    cases g <;> simp [Behind, shape, counts, members, ByteOrder.payload]
  | polygon =>
    apply ((recognises_readRings order).map polygon).congr
    intro g bs
    cases g <;> simp [Behind, shape, counts, members, ByteOrder.payload]
  | multiPoint =>
    have hmembers := recognises_readMember hmember asPoint_eq_ok_iff
    apply ((recognises_readCounted order hmembers).map multiPoint).congr
    intro g bs
    cases g <;> simp [Behind, shape, counts, members, ByteOrder.payload]
  | multiLineString =>
    have hmembers := recognises_readMember hmember asRun_eq_ok_iff
    apply ((recognises_readCounted order hmembers).map multiLineString).congr
    intro g bs
    cases g <;> simp [Behind, shape, counts, members, ByteOrder.payload]
  | multiPolygon =>
    have hmembers := recognises_readMember hmember asRings_eq_ok_iff
    apply ((recognises_readCounted order hmembers).map multiPolygon).congr
    intro g bs
    cases g <;> simp [Behind, shape, counts, members, ByteOrder.payload]
  | collection =>
    apply ((recognises_readCounted order hmember).map collection).congr
    intro g bs
    cases g <;> simp [Behind, shape, counts, members, ByteOrder.payload]

/-- When the members are recognised, so is the body. -/
theorem recognises_readBody
    {member : Reader Geometry} {G : Geometry → Bytes → Prop} (hmember : member.Recognises G) :
  (readBody member).Recognises fun g bs =>
    ∃ order bodies, (∀ n ∈ g.counts, n < countLimit) ∧ List.Forall₂ G g.members bodies ∧
      bs = ByteOrder.header order g.shape ++ order.payload g bodies
  := by
  have behind (order : ByteOrder) (code : Nat) :
      (match Shape.ofCode? code with
        | some s => readShape member order s
        | none => Reader.fail (.protocol (.shapeCode code))).Recognises
      fun g bs => g.shape.code = code ∧ Behind order G g.shape g bs := by
    simp only [← Shape.ofCode?_eq_some_iff]
    cases Shape.ofCode? code with
    | none =>
      apply (recognises_fail _).congr
      simp
    | some s =>
      apply (recognises_readShape hmember order s).congr
      simp [Behind, eq_comm]
  rw [readBody_eq]
  apply (recognises_readOrder.bind fun order =>
    (recognises_readNumber order).bind fun code => behind order code).congr
  intro g bs
  constructor
  · rintro ⟨order, _, _, rfl, ⟨_, _, _, ⟨-, rfl⟩, ⟨rfl, -, hcounts, bodies, hbodies, rfl⟩, rfl⟩,
      rfl⟩
    exact ⟨order, bodies, hcounts, hbodies, rfl⟩
  · rintro ⟨order, bodies, hcounts, hbodies, rfl⟩
    have hcode : g.shape.code < countLimit := by
      cases g.shape <;> decide
    exact ⟨order, _, _, rfl,
      ⟨_, _, _, ⟨hcode, rfl⟩, ⟨rfl, rfl, hcounts, bodies, hbodies, rfl⟩, rfl⟩, rfl⟩

/-! ### Nested bodies -/

/-- A body is recognised up to one level deeper than its members. -/
theorem recognises_readBody_of_depth
    {member : Reader Geometry} {levels : Nat}
    (hmember : member.Recognises fun m bs =>
      m.depth < levels ∧ Encodes (fun _ => True) m bs) :
  (readBody member).Recognises fun g bs =>
    g.depth ≤ levels ∧ Encodes (fun _ => True) g bs
  := by
  apply (recognises_readBody hmember).congr
  intro g bs
  simp only [List.forall₂_and_left, ← depth_le_iff]
  constructor
  · rintro ⟨order, bodies, hcounts, ⟨hdepth, hbodies⟩, rfl⟩
    exact ⟨hdepth, .body order trivial hcounts hbodies⟩
  · rintro ⟨hdepth, ⟨order, -, hcounts, hbodies⟩⟩
    exact ⟨order, _, hcounts, ⟨hdepth, hbodies⟩, rfl⟩

/-- Bodies are recognised whose members nest no deeper than allowed. -/
theorem recognises_readNested
    (levels : Nat) :
  (readNested levels).Recognises fun g bs => g.depth ≤ levels ∧ Encodes (fun _ => True) g bs
  := by
  induction levels with
  | zero =>
    apply recognises_readBody_of_depth
    apply (recognises_fail _).congr
    simp
  | succ levels ih =>
    apply recognises_readBody_of_depth
    apply ih.congr
    simp only [Nat.lt_succ_iff, implies_true]

/-- In a field a body is read behind its spatial reference, and what is behind it is passed over. -/
theorem reads_readField
    {reference bs left : Bytes} {g : Geometry} (hreference : reference.length = 4)
    (hg : Encodes (fun _ => True) g bs) (hdepth : g.depth ≤ maxDepth) :
  (readField (reference ++ (bs ++ left)).length).Reads (reference ++ (bs ++ left)) g
  := by
  intro position rest
  rw [List.append_assoc, List.append_assoc, readField]
  have passed := reads_skip hreference position (bs ++ (left ++ rest))
  have body := (recognises_readNested maxDepth).reads ⟨hdepth, hg⟩ (position + reference.length)
    (left ++ rest)
  have used : position + reference.length + bs.length - position =
      reference.length + bs.length := by omega
  have enough : ¬ reference.length + (bs.length + left.length) <
      reference.length + bs.length := by omega
  have passedLeft : (skip (reference.length + (bs.length + left.length) -
      (reference.length + bs.length))).Reads left () := reads_skip (by omega)
  simp only [List.length_append, bind_apply_eq_ok_iff]
  refine ⟨position, _, rfl, (), _, passed, g, _, body, _, _, rfl, ?_⟩
  simp only [used, if_neg enough]
  have finished := (passedLeft.map fun _ => g) (position + reference.length + bs.length) rest
  simp only [← Nat.add_assoc] at finished ⊢
  apply finished

/-- The bytes are a field of the given length: a spatial reference, a body of the geometry, and what
may be left behind it. -/
def IsField (length : Nat) (g : Geometry) (field : Bytes) : Prop :=
  ∃ reference body left, reference.length = 4 ∧ Encodes (fun _ => True) g body ∧
    g.depth ≤ maxDepth ∧ field = reference ++ (body ++ left) ∧ field.length = length

theorem IsField.length_eq
    {length : Nat} {g : Geometry} {field : Bytes} (h : IsField length g field) :
  field.length = length
  := by
  obtain ⟨_, _, _, -, -, -, -, hlength⟩ := h
  apply hlength

/-- Whatever is read as a field takes up all of its length. -/
theorem recognises_readField
    (length : Nat) :
  (readField length).Recognises (IsField length)
  := by
  apply recognises_of_reads
  · rintro g _ ⟨reference, body, left, hreference, hg, hdepth, rfl, rfl⟩
    apply reads_readField hreference hg hdepth
  · intro c g c' h
    rw [readField] at h
    simp only [bind_apply_eq_ok_iff] at h
    obtain ⟨start, _, ⟨⟩, ⟨⟩, c₁, hskip, g', c₂, hbody, _, _, ⟨⟩, h⟩ := h
    obtain ⟨reference, hreference, hrest₁, hposition₁⟩ := (recognises_skip 4 _ _ _).mp hskip
    obtain ⟨body, ⟨hdepth, hg⟩, hrest₂, hposition₂⟩ :=
      (recognises_readNested maxDepth _ _ _).mp hbody
    split at h
    next => cases h
    next enough =>
      simp only [bind_apply_eq_ok_iff] at h
      obtain ⟨⟨⟩, c₃, hleft, ⟨⟩⟩ := h
      obtain ⟨left, hlength, hrest₃, hposition₃⟩ := (recognises_skip _ _ _ _).mp hleft
      have total : (reference ++ (body ++ left)).length = length := by
        simp only [List.length_append]
        omega
      refine ⟨_, ⟨reference, body, left, hreference, hg, hdepth, rfl, total⟩, ?_, ?_⟩
      · rw [hrest₁, hrest₂, hrest₃, List.append_assoc, List.append_assoc]
      · simp only [List.length_append]
        omega

/-- Bytes stand for at most one geometry: both would be read, where members may nest deep enough. -/
theorem Encodes.unique
    {g h : Geometry} {bs : Bytes} (hg : Encodes (fun _ => True) g bs)
    (hh : Encodes (fun _ => True) h bs) :
  g = h
  := by
  have read {k : Geometry} (hk : Encodes (fun _ => True) k bs)
      (hdepth : k.depth ≤ max g.depth h.depth) :
      (readNested (max g.depth h.depth)).run bs = .ok k :=
    ((recognises_readNested _).reads ⟨hdepth, hk⟩).run
  have same := (read hg (Nat.le_max_left _ _)).symm.trans (read hh (Nat.le_max_right _ _))
  apply Except.ok.inj same

/-- The bytes `p`, whatever follows them, are read as the geometry exactly when they stand for it,
with each body in a byte order of its own, and no member is too deep; the bytes that are written are
those in which all bodies are little-endian, and such bytes are written again as they were read. -/
theorem readBinary_iff_encodes
    (g : Geometry) (p rest : Bytes) (position : Nat) :
  (readBinary ⟨position, p ++ rest⟩ = (.ok g, ⟨position + p.length, rest⟩) ↔
    Encodes (fun _ => True) g p ∧ g.depth ≤ maxDepth) ∧
  (∀ q, Encodes (· = .little) g q ↔ g.CountsFit ∧ q = g.toBinary) ∧
  ((∃ h, Encodes (· = .little) h p) →
    readBinary ⟨position, p ++ rest⟩ = (.ok g, ⟨position + p.length, rest⟩) → g.toBinary = p)
  := by
  have read : readBinary ⟨position, p ++ rest⟩ = (.ok g, ⟨position + p.length, rest⟩) ↔
      Encodes (fun _ => True) g p ∧ g.depth ≤ maxDepth := by
    rw [readBinary, recognises_readNested maxDepth]
    constructor
    · rintro ⟨bs, ⟨hdepth, hbs⟩, happend, -⟩
      obtain rfl := List.append_cancel_right happend
      exact ⟨hbs, hdepth⟩
    · rintro ⟨hp, hdepth⟩
      exact ⟨p, ⟨hdepth, hp⟩, rfl, rfl⟩
  refine ⟨read, encodes_little_iff g, ?_⟩
  rintro ⟨h, hlittle⟩ hread
  obtain rfl := (hlittle.mono fun _ _ => trivial).unique (read.mp hread).1
  apply ((encodes_little_iff h p).mp hlittle).2.symm

/-- A big-endian body without points in a little-endian collection, before another byte. -/
theorem readBinary_mixed :
  Encodes (fun _ => True) (collection [multiPoint []])
      [1, 7, 0, 0, 0, 1, 0, 0, 0, 0, 0, 0, 0, 4, 0, 0, 0, 0] ∧
  readBinary ⟨0, [1, 7, 0, 0, 0, 1, 0, 0, 0, 0, 0, 0, 0, 4, 0, 0, 0, 0, 9]⟩ =
    (.ok (collection [multiPoint []]), ⟨18, [9]⟩)
  := by
  have inner : Encodes (fun _ => True) (multiPoint []) [0, 0, 0, 0, 4, 0, 0, 0, 0] :=
    .body (g := multiPoint []) .big trivial (by decide) .nil
  have outer : Encodes (fun _ => True) (collection [multiPoint []])
      [1, 7, 0, 0, 0, 1, 0, 0, 0, 0, 0, 0, 0, 4, 0, 0, 0, 0] :=
    .body (g := collection [multiPoint []]) .little trivial (by decide) (.cons inner .nil)
  use outer
  apply (readBinary_iff_encodes (collection [multiPoint []]) _ [9] 0).1.mpr ⟨outer, by decide⟩

end Geometry

end SqlWire
