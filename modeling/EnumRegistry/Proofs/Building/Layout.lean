import EnumRegistry.Proofs.Building.Rows

/-!
Bits of bitfields. A declaration says how large the bitfield is and where its rows are, in numbers
that the model holds in 32 bits without sign; what does not fit there counts as a default. Where the
lengths fit, a bitfield is a finding exactly if the numbers held overflow its size.
-/

namespace EnumRegistry

open List (Forall₂)

/-! ## Layouts as declared -/

/-- The place of a row: its first bit and how many bits it has. -/
structure BitPlace where
  position : Int
  length : Int

/-- What a bitfield declares about its bits. -/
structure BitLayout where
  size : Int
  places : List BitPlace

/-- A row has one bit where it declares no length or less than one. -/
structure BitPlace.DeclaredBy (place : BitPlace) (e : Element) : Prop where
  position : e.requiredInt "bit_position" = .ok place.position
  length : ∃ length, e.int? "length" = .ok length ∧ place.length = max (length.getD 1) 1

structure BitLayout.DeclaredBy (l : BitLayout) (declared : Element × Forest) : Prop where
  size : declared.1.requiredInt "size" = .ok l.size
  places : Forall₂ (fun e place => place.DeclaredBy e) (declared.2.rowsOf (· == .bitfieldRow))
    l.places

/-- A number as it is held in 32 bits without sign; one that does not fit is 0. -/
def heldInWord (v : Int) : Int := if 0 ≤ v ∧ v < 0x100000000 then v else 0

namespace BitLayout

/-- The bits of all rows. -/
def used (l : BitLayout) : Int := l.places.foldr (·.length + ·) 0

/-- The first bit behind a row. -/
def reach (place : BitPlace) : Int := heldInWord place.position + place.length

/-- The rows use more bits than the size, or one of them reaches past it. -/
def overflows (l : BitLayout) : Bool :=
  heldInWord l.size < l.used || l.places.any fun place => heldInWord l.size < reach place

/-- The size is the largest that is held, and a row reaches past it; its end is cut off there. -/
def PastLimit (l : BitLayout) : Prop :=
  heldInWord l.size = maxWord32 ∧ ∃ place ∈ l.places, maxWord32 < reach place

def finding (l : BitLayout) (uid : String) : Diagnostic :=
  ⟨.bitfieldOverflow, "bitfield " ++ uid,
    "fields use " ++ toString l.used ++ " bits but the declared size is " ++
      toString (heldInWord l.size)⟩

end BitLayout

/-! ## Layouts as held -/

theorem word32?_eq (v : Int) :
    word32? v = if 0 ≤ v ∧ v < 0x100000000 then some v.toNat else none := by
  simp [word32?]

theorem word32?_getD_zero (v : Int) : (((word32? v).getD 0 : Nat) : Int) = heldInWord v := by
  rw [word32?_eq, heldInWord]
  split
  · rename_i fits
    exact Int.toNat_of_nonneg fits.1
  · rfl

theorem heldInWord_le (v : Int) : heldInWord v ≤ maxWord32 := by
  unfold heldInWord maxWord32
  split <;> omega

/-- A row holds the place that was declared for it. A length need not be held if it
does not fit. -/
structure BitfieldRow.Holds (row : BitfieldRow) (place : BitPlace) : Prop where
  position : (row.position : Int) = heldInWord place.position
  positive : 1 ≤ place.length
  length : place.length < 0x100000000 → (row.length : Int) = place.length

structure Bitfield.Holds (b : Bitfield) (l : BitLayout) : Prop where
  size : (b.totalBits : Int) = heldInWord l.size
  rows : Forall₂ (fun place row => row.Holds place) l.places b.rows

theorem BitfieldRow.PlacedBy.holds {row : BitfieldRow} {e : Element} (placed : row.PlacedBy e) :
    ∃ place : BitPlace, place.DeclaredBy e ∧ row.Holds place := by
  obtain ⟨⟨position, read, held⟩, length, read', held'⟩ := placed
  refine ⟨⟨position, max (length.getD 1) 1⟩, ⟨read, length, read', rfl⟩, ?_, ?_, ?_⟩
  · rw [held, word32?_getD_zero]
  · exact Int.le_max_right _ _
  · intro fits
    rw [held', word32?_eq]
    dsimp only at fits ⊢
    split
    · rw [Option.getD_some]
      omega
    · rw [Option.getD_none]
      omega

/-- Rows have positive lengths, and where these add up to less than 2^32 each of them is held. -/
theorem BitfieldRow.holds_all {places : List BitPlace} {rows : List BitfieldRow}
    (held : Forall₂ (fun place row => row.Holds place) places rows)
    (total : places.foldr (·.length + ·) 0 < 0x100000000) :
    0 ≤ places.foldr (·.length + ·) 0 ∧
      rows.map (fun row => ((row.position : Int), (row.length : Int))) =
        places.map fun place => (heldInWord place.position, place.length) := by
  induction held with
  | nil => exact ⟨Int.le_refl 0, rfl⟩
  | cons first behind ih =>
    simp only [List.map_cons, List.foldr_cons] at total ⊢
    have positive := first.positive
    obtain ⟨more, same⟩ := ih (by omega)
    rw [first.position, first.length (by omega), same]
    exact ⟨by omega, rfl⟩

namespace Bitfield

theorem cast_usedBits (b : Bitfield) :
    (b.usedBits : Int) = (b.rows.map fun row => (row.length : Int)).foldr (· + ·) 0 := by
  unfold usedBits
  induction b.rows with
  | nil => rfl
  | cons row rows ih => rw [List.foldr_cons, List.map_cons, List.foldr_cons, Int.natCast_add, ih]

namespace Holds

variable {b : Bitfield} {l : BitLayout}

theorem usedBits (h : b.Holds l) (total : l.used < 0x100000000) : (b.usedBits : Int) = l.used := by
  have same := congrArg (List.map Prod.snd) (BitfieldRow.holds_all h.rows total).2
  simp only [List.map_map, Function.comp_def] at same
  rw [cast_usedBits, same, List.foldr_map, BitLayout.used]

/-- Cutting ends off at the largest size does not matter where none is past it. -/
theorem any_exceeds (h : b.Holds l) (total : l.used < 0x100000000) (within : ¬l.PastLimit) :
    b.rows.any b.exceeds =
      l.places.any fun place => heldInWord l.size < BitLayout.reach place := by
  have cut (row : BitfieldRow) : b.exceeds row =
      decide ((b.totalBits : Int) < min ((row.position : Int) + row.length) maxWord32) :=
    decide_eq_decide.mpr (by omega)
  let past (place : Int × Int) : Bool :=
    (b.totalBits : Int) < min (place.1 + place.2) (maxWord32 : Int)
  have places := congrArg (List.any · past) (BitfieldRow.holds_all h.rows total).2
  simp only [List.any_map, Function.comp_def, past] at places
  rw [funext cut, places, h.size, Bool.eq_iff_iff]
  simp only [List.any_eq_true, decide_eq_true_eq]
  refine exists_congr fun place => and_congr_right fun hplace => ?_
  have limit := heldInWord_le l.size
  have inside : heldInWord l.size = maxWord32 → BitLayout.reach place ≤ maxWord32 := fun largest =>
    Int.not_lt.mp fun beyond => within ⟨largest, place, hplace, beyond⟩
  unfold BitLayout.reach at inside ⊢
  omega

/-- The findings of a bitfield are those of its layout. -/
theorem findings (h : b.Holds l) (total : l.used < 0x100000000) (within : ¬l.PastLimit) :
    b.findings = if l.overflows then [l.finding b.uid] else [] := by
  have used := h.usedBits total
  have overflows : (b.totalBits < b.usedBits || b.rows.any b.exceeds) = l.overflows := by
    rw [h.any_exceeds total within, BitLayout.overflows, ← used, ← h.size]
    simp only [Int.ofNat_lt]
  rw [Bitfield.findings, overflows, BitLayout.finding, ← used, ← h.size]
  rfl

end Holds

end Bitfield

/-! ## Bitfields and their declarations -/

/-- A bitfield has the size that an element declares, and its rows have the places that others
declare. -/
structure Bitfield.SizedBy (b : Bitfield) (e : Element) (elements : List Element) : Prop where
  size : ∃ size, e.requiredInt "size" = .ok size ∧ b.totalBits = (word32? size).getD 0
  rows : Forall₂ (fun e row => row.PlacedBy e) elements b.rows

/-- A bitfield has the bits that its declaration says. -/
structure Bitfield.LaidOut (declared : Element × Forest) (b : Bitfield) : Prop where
  uid : declared.1.uid? = some b.uid
  sized : b.SizedBy declared.1 (declared.2.rowsOf (· == .bitfieldRow))

theorem BitfieldRow.holds_placed {elements : List Element} {rows : List BitfieldRow}
    (placed : Forall₂ (fun e row => row.PlacedBy e) elements rows) :
    ∃ places : List BitPlace, Forall₂ (fun e place => place.DeclaredBy e) elements places ∧
      Forall₂ (fun place row => row.Holds place) places rows := by
  induction placed with
  | nil => exact ⟨[], .nil, .nil⟩
  | cons first behind ih =>
    obtain ⟨place, declared, held⟩ := first.holds
    obtain ⟨places, declared', held'⟩ := ih
    exact ⟨place :: places, .cons declared declared', .cons held held'⟩

theorem Bitfield.LaidOut.holds {b : Bitfield} {declared : Element × Forest}
    (laid : LaidOut declared b) : ∃ l : BitLayout, l.DeclaredBy declared ∧ b.Holds l := by
  obtain ⟨-, ⟨size, read, held⟩, rows⟩ := laid
  obtain ⟨places, declared, held'⟩ := BitfieldRow.holds_placed rows
  exact ⟨⟨size, places⟩, ⟨read, declared⟩, by rw [held, word32?_getD_zero], held'⟩

namespace TypeFrame

variable {t : NameTables} {frame frame' : TypeFrame} {done elements : List Element} {e : Element}

/-- An open bitfield has the bits that some elements declare. -/
def SizedBy (e : Element) (elements : List Element) : TypeFrame → Prop
  | bitfield type _ => type.SizedBy e elements
  | _ => True

theorem Opens.sizedBy {uid name : String} (h : frame.Opens e uid name) : frame.SizedBy e [] := by
  cases h with
  | bitfield kind sized => exact ⟨⟨_, sized, rfl⟩, .nil⟩
  | enumeration | dictionary => trivial

theorem Added.sizedBy {row : Element} (h : frame.Added t row frame')
    (before : frame.SizedBy e done) : frame'.SizedBy e (done ++ [row]) := by
  cases h with
  | bitfield read referred claimed placed => exact ⟨before.size, forall₂_concat before.rows placed⟩
  | enumeration | dictionary => trivial

theorem Gains.sizedBy (h : frame.Gains t elements frame') (before : frame.SizedBy e done) :
    frame'.SizedBy e (done ++ elements) := by
  induction h generalizing done with
  | nil => rwa [List.append_nil]
  | @cons row rest _ _ _ added behind ih =>
    rw [← List.singleton_append, ← List.append_assoc]
    exact ih (added.sizedBy before)

/-- A type that ends adds a bitfield to the model exactly if a bitfield is declared. -/
theorem Ends.laidOut {declared : List (Element × Forest)} {m m' : Model} {inside : Forest}
    {ceiling : Nat} (ends : frame.Ends ceiling m m') (kind : frame.kind = e.kind)
    (identified : e.uid? = some frame.uid)
    (sized : frame.SizedBy e (inside.rowsOf fun kind => frame.accepts kind))
    (before : Forall₂ Bitfield.LaidOut (declared.filter (·.1.kind == .bitfield)) m.bitfields) :
    Forall₂ Bitfield.LaidOut ((declared ++ [(e, inside)]).filter (·.1.kind == .bitfield))
      m'.bitfields := by
  cases ends with
  | bitfield type scope =>
    have bitfield : e.kind = .bitfield := kind.symm
    have own : Bitfield.LaidOut (e, inside) type := ⟨identified, sized⟩
    simpa [bitfield] using forall₂_concat before own
  | enumeration =>
    have enumeration : e.kind = .enumeration := kind.symm
    simpa [enumeration] using before
  | dictionary =>
    have dictionary : e.kind = .dictionary := kind.symm
    simpa [dictionary] using before

end TypeFrame

namespace Builder

variable {t : NameTables} {ceiling : Nat}

/-- The bitfields built so far have the bits that the declarations passed so far declare. -/
structure LaidOut (t : NameTables) (done : List (Element × Forest)) (b : Builder) : Prop where
  made : Made t done b
  bitfields : Forall₂ Bitfield.LaidOut
    ((t.types.accepted done).filter (·.1.kind == .bitfield)) b.model.bitfields

theorem LaidOut.declare {done : List (Element × Forest)} {b b' : Builder} {e : Element}
    {inside : Forest} (h : LaidOut t done b) (type : e.kind.declaresType = true)
    (declares : Declares t ceiling b e inside b') : LaidOut t (done ++ [(e, inside)]) b' := by
  refine ⟨h.made.declare type declares, ?_⟩
  cases declares with
  | out known => rw [h.made.accepted_out inside known]; exact h.bitfields
  | @built uid name frame frame' _ identified named fresh opens rows emitted ends =>
    have sized := rows.sizedBy opens.sizedBy
    rw [List.nil_append] at sized
    simp only [← TypeFrame.accepts_congr rows.kind] at sized
    rw [h.made.accepted_built inside identified named fresh]
    have uid' : frame'.uid = uid := rows.named.1.trans opens.named.1
    exact ends.laidOut (rows.kind.trans (opens.kind type)) (uid' ▸ identified) sized h.bitfields

end Builder

end EnumRegistry
