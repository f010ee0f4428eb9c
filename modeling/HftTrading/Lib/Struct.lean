import Mathlib.Algebra.Order.Ring.Int
import Mathlib.Algebra.Ring.Int.Defs
import Mathlib.Algebra.Ring.Nat
import Mathlib.Data.List.GetD

/-!
# Packed little-endian records

A record format is a list of fields without padding: integers of a fixed number of bytes, least
significant first, signed ones in two's complement, and byte strings. Packing refuses an integer
outside its field's range, and pads or cuts a byte string; unpacking wants exactly as many bytes as
the format has.

## What packing loses

Nothing of an integer that fits, and something of a byte string that does not have the field's
length. So reading back what was written gives what the *format* makes of the values (`wire`), and
the round trip is the identity exactly on records whose byte strings have their lengths. The other
way round nothing is lost at all: any bytes of the format's size hold values that fit, and are
written back as the same bytes (`pack_unpack`).

## Record classes

A program has a class for each format, with a `pack` and an `unpack` written out by hand. `Record`
is such a class together with the two laws that tie it to a list of fields: `pack` writes that list,
and `unpack` builds a record from it and from no other. Both round trips are then theorems about all
record classes at once (`Record.unpack_pack`, `Record.pack_unpack`), and a new class has to show its
two laws only. Trailing bytes are ignored on reading, as they are by a reader that is handed a
buffer with more in it.

A class whose `unpack` can refuse a value of the right width, as one with an enumeration among its
fields does, is a `Record`; one that takes every value is a `TotalRecord`.
-/

namespace Struct

/-- A field of a record format. -/
inductive Field
  | unsigned (width : ℕ)
  | signed (width : ℕ)
  | bytes (width : ℕ)
  deriving DecidableEq

/-- What a field holds. -/
inductive Value
  | int (n : ℤ)
  | bytes (b : List UInt8)
  deriving DecidableEq

/-- The bytes a field takes. -/
def Field.size : Field → ℕ
  | .unsigned width => width
  | .signed width => width
  | .bytes width => width

/-- The bytes a record takes. -/
def calcsize : List Field → ℕ
  | [] => 0
  | field :: format => field.size + calcsize format

/-! ### Integers -/

/-- The number that bytes stand for, least significant first. -/
def fromBytes : List UInt8 → ℕ
  | [] => 0
  | b :: rest => b.toNat + 256 * fromBytes rest

/-- The lowest `width` bytes of a number, least significant first. -/
def toBytes : ℕ → ℕ → List UInt8
  | 0, _ => []
  | width + 1, n => UInt8.ofNat n :: toBytes width (n / 256)

/-- A number of `width` bytes, read in two's complement. -/
def toSigned (width n : ℕ) : ℤ := if 2 * n < 256 ^ width then n else n - 256 ^ width

/-- An integer takes the bytes it is given. -/
@[simp] theorem length_toBytes (width n : ℕ) : (toBytes width n).length = width := by
  induction width generalizing n with
  | zero => rfl
  | succ width ih => rw [toBytes, List.length_cons, ih]

/-- Bytes stand for a number below the range of as many bytes. -/
theorem fromBytes_lt (data : List UInt8) : fromBytes data < 256 ^ data.length := by
  induction data with
  | nil => exact Nat.one_pos
  | cons b rest ih =>
    have hb : b.toNat < 256 := b.toNat_lt
    rw [fromBytes, List.length_cons, pow_succ]
    omega

/-- A number that fits is read back. -/
theorem fromBytes_toBytes {width n : ℕ} (h : n < 256 ^ width) :
    fromBytes (toBytes width n) = n := by
  induction width generalizing n with
  | zero =>
    rw [pow_zero] at h
    rw [toBytes, fromBytes]
    omega
  | succ width ih =>
    have hdiv : n / 256 < 256 ^ width := by
      rw [pow_succ] at h
      omega
    rw [toBytes, fromBytes, ih hdiv, UInt8.toNat_ofNat']
    exact Nat.mod_add_div n 256

/-- Bytes are written back, whatever they stand for. -/
theorem toBytes_fromBytes (data : List UInt8) : toBytes data.length (fromBytes data) = data := by
  induction data with
  | nil => rfl
  | cons b rest ih =>
    have hb : b.toNat < 256 := b.toNat_lt
    have hhead : UInt8.ofNat (b.toNat + 256 * fromBytes rest) = b := by
      refine UInt8.toNat_inj.1 ?_
      rw [UInt8.toNat_ofNat']
      omega
    have htail : (b.toNat + 256 * fromBytes rest) / 256 = fromBytes rest := by omega
    rw [fromBytes, List.length_cons, toBytes, hhead, htail, ih]

/-- Two's complement loses nothing: the number is its signed reading modulo the range. -/
theorem toSigned_emod {width n : ℕ} (h : n < 256 ^ width) :
    (toSigned width n % 256 ^ width).toNat = n := by
  have h' : (n : ℤ) < 256 ^ width := by exact_mod_cast h
  have hmod : (n : ℤ) % 256 ^ width = n := Int.emod_eq_of_lt (Int.natCast_nonneg n) h'
  rw [toSigned]
  split
  · rw [hmod, Int.toNat_natCast]
  · rw [Int.sub_emod_right, hmod, Int.toNat_natCast]

/-- Two's complement is centred on zero. -/
theorem toSigned_range {width n : ℕ} (h : n < 256 ^ width) :
    -(256 ^ width) ≤ 2 * toSigned width n ∧ 2 * toSigned width n < 256 ^ width := by
  have hcast : ((256 ^ width : ℕ) : ℤ) = 256 ^ width := by push_cast; rfl
  rw [toSigned]
  split <;> omega

/-- The signed reading of a number modulo the range, for a number the width can hold. -/
theorem toSigned_toNat_emod {width : ℕ} {n : ℤ} (hlo : -(256 ^ width) ≤ 2 * n)
    (hhi : 2 * n < 256 ^ width) : toSigned width (n % 256 ^ width).toNat = n := by
  have hpos : (0 : ℤ) < 256 ^ width := Int.pow_pos (by decide)
  have hnat : ((n % 256 ^ width).toNat : ℤ) = n % 256 ^ width :=
    Int.toNat_of_nonneg (Int.emod_nonneg n hpos.ne')
  have hcast : ((256 ^ width : ℕ) : ℤ) = 256 ^ width := by push_cast; rfl
  rw [toSigned]
  rcases lt_or_ge n 0 with hneg | hnonneg
  · have hmod : n % 256 ^ width = n + 256 ^ width := by
      rw [← Int.add_emod_right, Int.emod_eq_of_lt (by omega) (by omega)]
    rw [if_neg (by omega), hnat, hmod, Int.add_sub_cancel]
  · have hmod : n % 256 ^ width = n := Int.emod_eq_of_lt hnonneg (by omega)
    rw [if_pos (by omega), hnat, hmod]

/-! ### Fields and records -/

/-- Read one field from its bytes. -/
def Field.unpack : Field → List UInt8 → Value
  | .unsigned _, data => .int (fromBytes data)
  | .signed width, data => .int (toSigned width (fromBytes data))
  | .bytes _, data => .bytes data

/-- Write one field; an integer outside its range, and a value of the wrong kind, are refused. -/
def Field.pack : Field → Value → Option (List UInt8)
  | .unsigned width, .int n =>
    if 0 ≤ n ∧ n < 256 ^ width then some (toBytes width n.toNat) else none
  | .signed width, .int n =>
    if -(256 ^ width) ≤ 2 * n ∧ 2 * n < 256 ^ width then
      some (toBytes width (n % 256 ^ width).toNat)
    else none
  | .bytes width, .bytes b => some ((b ++ List.replicate width 0).take width)
  | _, _ => none

/-- Read a record; the bytes must be exactly as many as the format has. -/
def unpack : List Field → List UInt8 → Option (List Value)
  | [], [] => some []
  | [], _ :: _ => none
  | field :: format, data =>
    if data.length < field.size then none
    else (unpack format (data.drop field.size)).map (field.unpack (data.take field.size) :: ·)

/-- Write a record, field by field. -/
def pack : List Field → List Value → Option (List UInt8)
  | [], [] => some []
  | field :: format, value :: values => do
    let bytes ← field.pack value
    let rest ← pack format values
    pure (bytes ++ rest)
  | _, _ => none

/-- **Unpacking succeeds on exactly the byte strings of the right length.** -/
theorem unpack_isSome_iff {format : List Field} {data : List UInt8} :
    (unpack format data).isSome ↔ data.length = calcsize format := by
  induction format generalizing data with
  | nil =>
    rcases data with - | ⟨b, rest⟩
    · simp [unpack, calcsize]
    · simp [unpack, calcsize]
  | cons field format ih =>
    rw [unpack, calcsize]
    split
    · constructor
      · intro h
        cases h
      · intro h
        omega
    · rw [Option.isSome_map, ih, List.length_drop]
      omega

/-! ### Round trips -/

/-- A value a field can hold: of the field's kind, and in its range if it is an integer. -/
def Field.Fits : Field → Value → Prop
  | .unsigned width, .int n => 0 ≤ n ∧ n < 256 ^ width
  | .signed width, .int n => -(256 ^ width) ≤ 2 * n ∧ 2 * n < 256 ^ width
  | .bytes _, .bytes _ => True
  | _, _ => False

/-- A byte string padded with zeros, or cut, to a number of bytes. -/
def padTo (width : ℕ) (b : List UInt8) : List UInt8 := (b ++ List.replicate width 0).take width

instance (field : Field) (value : Value) : Decidable (field.Fits value) :=
  match field, value with
  | .unsigned width, .int n => inferInstanceAs (Decidable (0 ≤ n ∧ n < 256 ^ width))
  | .signed width, .int n =>
    inferInstanceAs (Decidable (-(256 ^ width) ≤ 2 * n ∧ 2 * n < 256 ^ width))
  | .bytes _, .bytes _ => .isTrue trivial
  | .unsigned _, .bytes _ => .isFalse id
  | .signed _, .bytes _ => .isFalse id
  | .bytes _, .int _ => .isFalse id

/-- What a field makes of a value: a byte string is padded or cut. -/
def Field.wire : Field → Value → Value
  | .bytes width, .bytes b => .bytes (padTo width b)
  | _, value => value

/-- **A value that fits is read back as the field made it.** -/
theorem Field.unpack_pack {field : Field} {value : Value} (h : field.Fits value) :
    ∃ data, field.pack value = some data ∧ data.length = field.size ∧
      field.unpack data = field.wire value := by
  rcases field with width | width | width <;> rcases value with n | b <;> try exact h.elim
  · obtain ⟨hlo, hhi⟩ := h
    refine ⟨toBytes width n.toNat, if_pos ⟨hlo, hhi⟩, length_toBytes _ _, ?_⟩
    have hlt : n.toNat < 256 ^ width := by
      have hcast : ((256 ^ width : ℕ) : ℤ) = 256 ^ width := by push_cast; rfl
      omega
    rw [Field.unpack, fromBytes_toBytes hlt, Int.toNat_of_nonneg hlo]
    rfl
  · obtain ⟨hlo, hhi⟩ := h
    refine ⟨toBytes width (n % 256 ^ width).toNat, if_pos ⟨hlo, hhi⟩, length_toBytes _ _, ?_⟩
    have hlt : (n % 256 ^ width).toNat < 256 ^ width := by
      have hpos : (0 : ℤ) < 256 ^ width := Int.pow_pos (by decide)
      have hmod := Int.emod_lt_of_pos n hpos
      have hcast : ((256 ^ width : ℕ) : ℤ) = 256 ^ width := by push_cast; rfl
      omega
    rw [Field.unpack, fromBytes_toBytes hlt, toSigned_toNat_emod hlo hhi]
    rfl
  · refine ⟨_, rfl, ?_, rfl⟩
    rw [List.length_take, List.length_append, List.length_replicate, Field.size]
    omega

/-- **Any bytes of a field's size hold a value that is written back as them.** -/
theorem Field.pack_unpack {field : Field} {data : List UInt8} (h : data.length = field.size) :
    field.Fits (field.unpack data) ∧ field.pack (field.unpack data) = some data := by
  have hlt := fromBytes_lt data
  rcases field with width | width | width <;> obtain rfl : data.length = width := h
  · have hfits : (0 : ℤ) ≤ fromBytes data ∧ (fromBytes data : ℤ) < 256 ^ data.length :=
      ⟨Int.natCast_nonneg _, by exact_mod_cast hlt⟩
    refine ⟨hfits, ?_⟩
    rw [Field.unpack, Field.pack, if_pos hfits, Int.toNat_natCast, toBytes_fromBytes]
  · have hfits := toSigned_range hlt
    refine ⟨hfits, ?_⟩
    rw [Field.unpack, Field.pack, if_pos hfits, toSigned_emod hlt, toBytes_fromBytes]
  · refine ⟨trivial, ?_⟩
    rw [Field.unpack, Field.pack, List.take_left]

/-- The values a record of the format can hold. -/
def Fits : List Field → List Value → Prop
  | [], [] => True
  | field :: format, value :: values => field.Fits value ∧ Fits format values
  | _, _ => False

instance decidableFits :
    (format : List Field) → (values : List Value) → Decidable (Fits format values)
  | [], [] => .isTrue trivial
  | field :: format, value :: values =>
    have := decidableFits format values
    inferInstanceAs (Decidable (field.Fits value ∧ Fits format values))
  | [], _ :: _ => .isFalse id
  | _ :: _, [] => .isFalse id

/-- What a format makes of the values of a record. -/
def wire : List Field → List Value → List Value := List.zipWith Field.wire

/-- **Values that fit are read back as the format made them.** -/
theorem unpack_pack {format : List Field} {values : List Value} (h : Fits format values) :
    ∃ data, pack format values = some data ∧ data.length = calcsize format ∧
      unpack format data = some (wire format values) := by
  induction format generalizing values with
  | nil =>
    rcases values with - | ⟨value, values⟩
    · exact ⟨[], rfl, rfl, rfl⟩
    · exact h.elim
  | cons field format ih =>
    rcases values with - | ⟨value, values⟩
    · exact h.elim
    obtain ⟨bytes, hpack, hlength, hunpack⟩ := Field.unpack_pack h.1
    obtain ⟨rest, hpackRest, hlengthRest, hunpackRest⟩ := ih h.2
    refine ⟨bytes ++ rest, ?_, ?_, ?_⟩
    · simp [pack, hpack, hpackRest]
    · rw [List.length_append, calcsize, hlength, hlengthRest]
    · have hlong : ¬(bytes ++ rest).length < field.size := by
        rw [List.length_append]
        omega
      rw [unpack, if_neg hlong, ← hlength, List.drop_left, List.take_left, hunpackRest, hunpack]
      rfl

/-- **Bytes of the format's size hold values that are written back as them.** -/
theorem pack_unpack {format : List Field} {data : List UInt8} {values : List Value}
    (h : unpack format data = some values) :
    Fits format values ∧ pack format values = some data := by
  induction format generalizing data values with
  | nil =>
    rcases data with - | ⟨b, rest⟩
    · cases h
      exact ⟨trivial, rfl⟩
    · cases h
  | cons field format ih =>
    rw [unpack] at h
    split at h
    · cases h
    rename_i hlong
    obtain ⟨rest, hrest, rfl⟩ := Option.map_eq_some_iff.1 h
    obtain ⟨hfitsRest, hpackRest⟩ := ih hrest
    have hlength : (data.take field.size).length = field.size := by
      rw [List.length_take]
      omega
    obtain ⟨hfits, hpack⟩ := Field.pack_unpack hlength
    refine ⟨⟨hfits, hfitsRest⟩, ?_⟩
    simp [pack, hpack, hpackRest]

/-- What is written has the size of the field. -/
theorem Field.length_of_pack {field : Field} {value : Value} {data : List UInt8}
    (h : field.pack value = some data) : data.length = field.size := by
  rcases field with width | width | width <;> rcases value with n | b
  · obtain ⟨-, h⟩ := Option.ite_none_right_eq_some.1 h
    cases h
    exact length_toBytes _ _
  · cases h
  · obtain ⟨-, h⟩ := Option.ite_none_right_eq_some.1 h
    cases h
    exact length_toBytes _ _
  · cases h
  · cases h
  · cases h
    rw [List.length_take, List.length_append, List.length_replicate, Field.size]
    omega

/-- What a field writes, it holds. -/
theorem Field.fits_of_pack {field : Field} {value : Value} {data : List UInt8}
    (h : field.pack value = some data) : field.Fits value := by
  rcases field with width | width | width <;> rcases value with n | b
  · exact (Option.ite_none_right_eq_some.1 h).1
  · cases h
  · exact (Option.ite_none_right_eq_some.1 h).1
  · cases h
  · cases h
  · trivial

/-- Values that are written fit. -/
theorem fits_of_pack {format : List Field} {values : List Value} {data : List UInt8}
    (h : pack format values = some data) : Fits format values := by
  induction format generalizing values data with
  | nil =>
    rcases values with - | ⟨value, values⟩
    · trivial
    · cases h
  | cons field format ih =>
    rcases values with - | ⟨value, values⟩
    · cases h
    obtain ⟨bytes, hbytes, h⟩ := Option.bind_eq_some_iff.1 h
    obtain ⟨after, hafter, -⟩ := Option.bind_eq_some_iff.1 h
    exact ⟨Field.fits_of_pack hbytes, ih hafter⟩

/-- A record behind another: each has to fit its own part. -/
theorem fits_append {format tail : List Field} {values rest : List Value}
    (hlength : values.length = format.length) :
    Fits (format ++ tail) (values ++ rest) ↔ Fits format values ∧ Fits tail rest := by
  induction format generalizing values with
  | nil =>
    obtain rfl := List.length_eq_zero_iff.1 hlength
    exact (iff_of_eq (true_and _)).symm
  | cons field format ih =>
    rcases values with - | ⟨value, values⟩
    · cases hlength
    exact (and_congr_right fun _ ↦ ih (Nat.succ.inj hlength)).trans and_assoc.symm

/-- **A record that begins with another** is written behind it. -/
theorem pack_append {format tail : List Field} {values rest : List Value} {data : List UInt8}
    (hlength : values.length = format.length)
    (h : pack (format ++ tail) (values ++ rest) = some data) :
    ∃ head after, pack format values = some head ∧ data = head ++ after := by
  induction format generalizing values data with
  | nil =>
    obtain rfl := List.length_eq_zero_iff.1 hlength
    exact ⟨[], data, rfl, rfl⟩
  | cons field format ih =>
    rcases values with - | ⟨value, values⟩
    · cases hlength
    obtain ⟨bytes, hbytes, h⟩ := Option.bind_eq_some_iff.1 h
    obtain ⟨both, hboth, h⟩ := Option.bind_eq_some_iff.1 h
    cases h
    obtain ⟨head, after, hhead, rfl⟩ := ih (Nat.succ.inj hlength) hboth
    refine ⟨bytes ++ head, after, ?_, (List.append_assoc _ _ _).symm⟩
    simp [pack, hbytes, hhead]

/-- A field of one byte stands where the fields before it end. -/
theorem getD_of_pack {format tail : List Field} {values rest : List Value} {n : ℤ}
    {packet : List UInt8} (hlength : values.length = format.length)
    (h : pack (format ++ .unsigned 1 :: tail) (values ++ .int n :: rest) = some packet)
    (t : List UInt8) : (((packet ++ t).getD (calcsize format) 0).toNat : ℤ) = n := by
  induction format generalizing values packet with
  | nil =>
    obtain rfl := List.length_eq_zero_iff.1 hlength
    obtain ⟨bytes, hbytes, h⟩ := Option.bind_eq_some_iff.1 h
    obtain ⟨after, -, h⟩ := Option.bind_eq_some_iff.1 h
    cases h
    obtain ⟨hrange, hbytes⟩ := Option.ite_none_right_eq_some.1 hbytes
    cases hbytes
    rw [calcsize, toBytes, List.cons_append, List.cons_append, List.getD_cons_zero,
      UInt8.toNat_ofNat']
    omega
  | cons field format ih =>
    rcases values with - | ⟨value, values⟩
    · cases hlength
    obtain ⟨bytes, hbytes, h⟩ := Option.bind_eq_some_iff.1 h
    obtain ⟨after, hafter, h⟩ := Option.bind_eq_some_iff.1 h
    cases h
    have hsize := Field.length_of_pack hbytes
    rw [calcsize, List.append_assoc, List.getD_append_right _ _ _ _ (by omega), hsize,
      Nat.add_sub_cancel_left]
    exact ih (Nat.succ.inj hlength) hafter

/-! ### The values a format can hold -/

/-- Every list of values the format can hold has the property. -/
def ForAll (format : List Field) (P : List Value → Prop) : Prop :=
  ∀ values, Fits format values → P values

namespace ForAll

variable {format : List Field} {P : List Value → Prop} {width : ℕ}

theorem nil (h : P []) : ForAll [] P := by
  rintro (- | ⟨value, values⟩) hfits
  · exact h
  · exact hfits.elim

theorem unsigned (h : ∀ n : ℕ, ForAll format fun rest ↦ P (.int n :: rest)) :
    ForAll (.unsigned width :: format) P := by
  rintro (- | ⟨n | b, rest⟩) hfits
  · exact hfits.elim
  · obtain ⟨k, rfl⟩ := Int.eq_ofNat_of_zero_le hfits.1.1
    exact h k rest hfits.2
  · exact hfits.1.elim

theorem signed (h : ∀ n : ℤ, ForAll format fun rest ↦ P (.int n :: rest)) :
    ForAll (.signed width :: format) P := by
  rintro (- | ⟨n | b, rest⟩) hfits
  · exact hfits.elim
  · exact h n rest hfits.2
  · exact hfits.1.elim

theorem bytes (h : ∀ b : List UInt8, ForAll format fun rest ↦ P (.bytes b :: rest)) :
    ForAll (.bytes width :: format) P := by
  rintro (- | ⟨n | b, rest⟩) hfits
  · exact hfits.elim
  · exact hfits.1.elim
  · exact h b rest hfits.2

end ForAll

/-! ### Record classes -/

/-- A class of records with hand-written `pack` and `unpack`, both by one format. The laws say that
they agree on one list of fields: `pack` writes it, and `unpack` builds a record exactly from the
list that `pack` would write for it. -/
structure Record (M : Type) where
  format : List Field
  fields : M → List Value
  pack : M → Option (List UInt8)
  unpack : List UInt8 → Option M
  pack_eq : ∀ m, pack m = Struct.pack format (fields m)
  unpack_eq_some_iff : ∀ {data m}, unpack data = some m ↔
    Struct.unpack format (data.take (calcsize format)) = some (fields m)

namespace Record

variable {M : Type} (R : Record M)

/-- The size of a packed record. -/
def size : ℕ := calcsize R.format

/-- The record's fields fit the widths of the format. -/
def Fits (m : M) : Prop := Struct.Fits R.format (R.fields m)

instance (m : M) : Decidable (R.Fits m) := inferInstanceAs (Decidable (Struct.Fits _ _))

variable {R}

/-- **A record that fits is read back**, as the record whose fields are what the format makes of
them. -/
theorem unpack_pack {m m' : M} (h : R.Fits m) (hwire : R.fields m' = wire R.format (R.fields m))
    (t : List UInt8) :
    ∃ packet, R.pack m = some packet ∧ packet.length = R.size ∧
      R.unpack (packet ++ t) = some m' := by
  obtain ⟨packet, hpack, hlength, hunpack⟩ := Struct.unpack_pack h
  refine ⟨packet, (R.pack_eq m).trans hpack, hlength, R.unpack_eq_some_iff.2 ?_⟩
  rw [List.take_left' hlength, hunpack, hwire]

/-- **What is read is written back as the bytes it was read from.** -/
theorem pack_unpack {m : M} {data : List UInt8} (h : R.unpack data = some m) :
    R.Fits m ∧ R.pack m = some (data.take R.size) := by
  obtain ⟨hfits, hpack⟩ := Struct.pack_unpack (R.unpack_eq_some_iff.1 h)
  exact ⟨hfits, (R.pack_eq m).trans hpack⟩

/-- What is written is of the record's size, and read back whatever follows. -/
theorem unpack_of_pack {m m' : M} {packet : List UInt8} (h : R.pack m = some packet)
    (hwire : R.fields m' = wire R.format (R.fields m)) :
    packet.length = R.size ∧ ∀ t, R.unpack (packet ++ t) = some m' := by
  have hfits : R.Fits m := fits_of_pack ((R.pack_eq m).symm.trans h)
  have hread (t : List UInt8) : packet.length = R.size ∧ R.unpack (packet ++ t) = some m' := by
    obtain ⟨packet', hpacket', hlength, hunpack⟩ := unpack_pack hfits hwire t
    obtain rfl := Option.some.inj (h.symm.trans hpacket')
    exact ⟨hlength, hunpack⟩
  exact ⟨(hread []).1, fun t ↦ (hread t).2⟩

/-- Fewer bytes than that are not read. -/
theorem unpack_of_short {data : List UInt8} (h : data.length < R.size) : R.unpack data = none := by
  rcases hunpack : R.unpack data with - | m
  · rfl
  · have hsome := Option.isSome_iff_exists.2 ⟨_, R.unpack_eq_some_iff.1 hunpack⟩
    rw [unpack_isSome_iff, List.length_take] at hsome
    have hsize : R.size = calcsize R.format := rfl
    omega

/-- A class that unpacks its format and builds the record from the values by `ofFields`, which
undoes `fields` in both directions. -/
def of {format : List Field} {fields : M → List Value} {ofFields : List Value → Option M}
    (pack : M → Option (List UInt8)) (unpack : List UInt8 → Option M)
    (hpack : ∀ m, pack m = Struct.pack format (fields m))
    (hunpack : ∀ data, unpack data =
      Struct.unpack format (data.take (calcsize format)) >>= ofFields)
    (hof : ∀ m, ofFields (fields m) = some m)
    (hfields : ForAll format fun values ↦ ∀ m, ofFields values = some m → fields m = values) :
    Record M where
  format := format
  fields := fields
  pack := pack
  unpack := unpack
  pack_eq := hpack
  unpack_eq_some_iff {data m} := by
    rw [hunpack]
    constructor
    · intro h
      obtain ⟨values, hvalues, hm⟩ := Option.bind_eq_some_iff.1 h
      rw [hvalues, hfields values (Struct.pack_unpack hvalues).1 m hm]
    · intro h
      rw [h]
      exact hof m

end Record

/-- A class of records that holds every list of values its format can: no field restricts what is
read beyond its width. -/
structure TotalRecord (M : Type) extends Record M where
  exists_fields : ForAll format fun values ↦ ∃ m, fields m = values

namespace TotalRecord

variable {M : Type}

/-- Reading reads any data of the record's size. -/
theorem exists_unpack (R : TotalRecord M) {data : List UInt8} (h : data.length = R.size) :
    ∃ m, R.unpack data = some m ∧ R.pack m = some data := by
  have htake : data.take (calcsize R.format) = data := List.take_of_length_le h.le
  obtain ⟨values, hvalues⟩ := Option.isSome_iff_exists.1 (unpack_isSome_iff.2 h)
  obtain ⟨m, rfl⟩ := R.exists_fields values (Struct.pack_unpack hvalues).1
  have hunpack : R.unpack data = some m := R.unpack_eq_some_iff.2 (htake.symm ▸ hvalues)
  have hpack := (Record.pack_unpack hunpack).2
  rw [Record.size, htake] at hpack
  exact ⟨m, hunpack, hpack⟩

/-- A class of this kind needs only one direction: `ofFields` undoes `fields`. -/
def of {format : List Field} {fields : M → List Value} {ofFields : List Value → Option M}
    (pack : M → Option (List UInt8)) (unpack : List UInt8 → Option M)
    (hpack : ∀ m, pack m = Struct.pack format (fields m))
    (hunpack : ∀ data, unpack data =
      Struct.unpack format (data.take (calcsize format)) >>= ofFields)
    (hof : ∀ m, ofFields (fields m) = some m)
    (hfields : ForAll format fun values ↦ ∃ m, fields m = values) : TotalRecord M where
  toRecord := .of pack unpack hpack hunpack hof fun values hfits m hm ↦ by
    obtain ⟨m', rfl⟩ := hfields values hfits
    rw [hof] at hm
    rw [Option.some_inj.1 hm]
  exists_fields := hfields

end TotalRecord

end Struct
