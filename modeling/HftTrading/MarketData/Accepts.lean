import HftTrading.MarketData.Parser

/-!
# Which packets are parsed, and what the others raise

`parse_message` checks that there is a header, and that its type byte is known. What the bodies
check is their enumerations, the side of an order or of a summary; their length is checked by
`struct.unpack` alone. So a packet is parsed just when it is long enough for its type and names a
side where one is due (`parseMessage_ok_iff`), and what is raised otherwise is a `ValueError`, but
for a body that is cut short, which raises a `struct.error` (`isValueError_iff`).

Each class is described by its layout, and for each layout it is said once whether it reads anything
of its length, or whether one of its bytes has to be a side (`Reads`, with the place of that byte).
What `parse_message` accepts is then put together from the layout that the type byte chooses,
without looking at any class again.
-/

namespace HftTrading.MarketData

open Struct (Field Value ForAll)

/-- Whether an error is a `ValueError`. A `struct.error` is not. -/
def ParseError.isValueError : ParseError → Bool
  | .shortData => true
  | .unknownMsgType _ => true
  | .invalidMsgType _ => true
  | .invalidSide _ => true
  | .structError _ => false

/-! ### Well-formed packets -/

/-- `BODY_SIZE` of a type's class; a heartbeat has no body. -/
def MsgType.bodySize : MsgType → ℕ
  | .heartbeat => 0
  | .newOrder => NewOrder.layout.size
  | .deleteOrder => DeleteOrder.layout.size
  | .modifyOrder => ModifyOrder.layout.size
  | .trade => Trade.layout.size
  | .tradeSummary => TradeSummary.layout.size
  | .snapshotInfo => SnapshotInfo.layout.size

/-- Where the side stands in a body, if there is one. -/
def MsgType.sideOffset? : MsgType → Option ℕ
  | .newOrder => some 12
  | .modifyOrder => some 8
  | .tradeSummary => some 4
  | .heartbeat | .deleteOrder | .trade | .snapshotInfo => none

/-- The byte that is due to name a side does. -/
def SideAt (offset? : Option ℕ) (body : List UInt8) : Prop :=
  ∀ i ∈ offset?, ∃ side : Side, side.value = (body.getD i 0).toNat

/-- A header, a known type, a body of the type's size, and a side where one is due. -/
def WellFormed (data : List UInt8) : Prop :=
  MDHeader.STRUCT_SIZE ≤ data.length ∧
    ∃ msgType : MsgType, msgType.value = (data.getD 22 0).toNat ∧
      MDHeader.STRUCT_SIZE + msgType.bodySize ≤ data.length ∧
      SideAt msgType.sideOffset? (data.drop MDHeader.STRUCT_SIZE)

/-- A header that names a type, and less than the body of that type. -/
def Truncated (data : List UInt8) : Prop :=
  MDHeader.STRUCT_SIZE ≤ data.length ∧
    ∃ msgType : MsgType, msgType.value = (data.getD 22 0).toNat ∧
      data.length < MDHeader.STRUCT_SIZE + msgType.bodySize

/-- A value that is no side raises a `ValueError`. -/
theorem Side.ofValue_eq_error {n : ℤ} (h : ¬ ∃ side : Side, side.value = n) :
    Side.ofValue n = .error (.invalidSide n) := by
  unfold Side.ofValue
  split
  · exact absurd ⟨.buy, rfl⟩ h
  · exact absurd ⟨.sell, rfl⟩ h
  · rfl

theorem MsgType.value_injective {msgType msgType' : MsgType}
    (h : msgType.value = msgType'.value) : msgType = msgType' :=
  Except.ok.inj (α := MsgType) ((MsgType.ofValue_value msgType).symm.trans
    (h ▸ MsgType.ofValue_value msgType'))

/-! ### Reading a layout -/

namespace Layout

variable {M E : Type} {L : Layout M} {data : List UInt8}

/-- Too few bytes are a `struct.error`. -/
theorem construct_of_short (h : data.length < L.size) :
    L.construct data = .error (.structError L.size) := by
  have hnone : Struct.unpack L.format (data.take L.size) = none := by
    rw [← Option.not_isSome_iff_eq_none, Struct.unpack_isSome_iff, List.length_take]
    have hsize : L.size = Struct.calcsize L.format := rfl
    omega
  rw [construct, hnone]
  rfl

/-- Enough bytes hold values of the format. -/
theorem construct_of_le (h : L.size ≤ data.length) :
    ∃ values, Struct.Fits L.format values ∧
      Struct.pack L.format values = some (data.take L.size) ∧
      L.construct data = L.ofFields values := by
  have hlength : (data.take L.size).length = Struct.calcsize L.format := by
    rw [List.length_take]
    exact min_eq_left h
  obtain ⟨values, hvalues⟩ := Option.isSome_iff_exists.1 (Struct.unpack_isSome_iff.2 hlength)
  obtain ⟨hfits, hpack⟩ := Struct.pack_unpack hvalues
  refine ⟨values, hfits, hpack, ?_⟩
  rw [construct, hvalues]

/-- A class that builds a value from whatever it reads. -/
def ReadsAny (L : Layout M) : Prop := ∀ data, L.size ≤ data.length → ∃ m, L.construct data = .ok m

/-- A class of which one field is an enumeration: what it builds from enough bytes depends on
whether the byte of that field is one of its values. -/
def ReadsAt (L : Layout M) (i : ℕ) (ofValue : ℤ → Except ParseError E) : Prop :=
  ∀ data, L.size ≤ data.length → ∃ build : E → M,
    L.construct data = (ofValue (data.getD i 0).toNat >>= fun e ↦ pure (build e))

/-- A layout whose fields are all free reads anything of its length. -/
theorem readsAny_of (h : ForAll L.format fun values ↦ ∃ m, L.ofFields values = .ok m) :
    L.ReadsAny := by
  intro data hle
  obtain ⟨values, hfits, -, hconstruct⟩ := construct_of_le hle
  rw [hconstruct]
  exact h values hfits

/-- The byte of the enumeration stands where the fields before it end. -/
theorem readsAt_of (front : List Field) {tail : List Field} {ofValue : ℤ → Except ParseError E}
    (hformat : L.format = front ++ .unsigned 1 :: tail)
    (h : ForAll L.format fun values ↦ ∃ (before after : List Value) (n : ℤ) (build : E → M),
      values = before ++ .int n :: after ∧ before.length = front.length ∧
      L.ofFields values = (ofValue n >>= fun e ↦ pure (build e))) :
    L.ReadsAt (Struct.calcsize front) ofValue := by
  intro data hle
  obtain ⟨values, hfits, hpack, hconstruct⟩ := construct_of_le hle
  obtain ⟨before, after, n, build, rfl, hlength, hbuild⟩ := h values hfits
  rw [hformat] at hpack
  have hbyte := Struct.getD_of_pack hlength hpack (data.drop L.size)
  rw [List.take_append_drop] at hbyte
  exact ⟨build, by rw [hconstruct, hbuild, hbyte]⟩

/-- What a body class builds, and what it raises. -/
structure Reads (L : Layout M) (offset? : Option ℕ) : Prop where
  ok_iff : ∀ data, (∃ m, L.construct data = .ok m) ↔ L.size ≤ data.length ∧ SideAt offset? data
  isValueError_iff : ∀ data e, L.construct data = .error e →
    (e.isValueError = true ↔ L.size ≤ data.length)

/-- A class is read as said if it is on enough bytes. -/
theorem Reads.of_le {offset? : Option ℕ}
    (hok : ∀ data, L.size ≤ data.length → SideAt offset? data → ∃ m, L.construct data = .ok m)
    (herror : ∀ data, L.size ≤ data.length → ¬ SideAt offset? data →
      ∃ n, L.construct data = .error (.invalidSide n)) :
    L.Reads offset? where
  ok_iff data := by
    constructor
    · rintro ⟨m, hm⟩
      have hle : L.size ≤ data.length := by
        by_contra hshort
        rw [construct_of_short (not_le.1 hshort)] at hm
        cases hm
      refine ⟨hle, ?_⟩
      by_contra hside
      obtain ⟨n, hn⟩ := herror data hle hside
      rw [hn] at hm
      cases hm
    · rintro ⟨hle, hside⟩
      exact hok data hle hside
  isValueError_iff data e he := by
    by_cases hle : L.size ≤ data.length
    · have hside : ¬ SideAt offset? data := by
        intro hside
        obtain ⟨m, hm⟩ := hok data hle hside
        rw [hm] at he
        cases he
      obtain ⟨n, hn⟩ := herror data hle hside
      rw [hn] at he
      cases he
      exact iff_of_true rfl hle
    · rw [construct_of_short (not_le.1 hle)] at he
      cases he
      exact iff_of_false Bool.false_ne_true hle

/-- A class without a side. -/
theorem ReadsAny.reads (h : L.ReadsAny) : L.Reads none :=
  .of_le (fun data hle _ ↦ h data hle) fun _ _ hside ↦
    absurd (fun i hi ↦ absurd hi (Option.not_mem_none i)) hside

/-- A class with a side. -/
theorem ReadsAt.reads {i : ℕ} (h : L.ReadsAt i Side.ofValue) : L.Reads (some i) := by
  refine .of_le (fun data hle hside ↦ ?_) fun data hle hside ↦ ?_
  · obtain ⟨build, hbuild⟩ := h data hle
    obtain ⟨side, hvalue⟩ := hside i rfl
    rw [hbuild, ← hvalue, Side.ofValue_value]
    exact ⟨build side, rfl⟩
  · obtain ⟨build, hbuild⟩ := h data hle
    have hnone : ¬ ∃ side : Side, side.value = (data.getD i 0).toNat := by
      intro hsome
      refine hside fun j hj ↦ ?_
      obtain rfl : i = j := Option.some.inj hj
      exact hsome
    rw [hbuild, Side.ofValue_eq_error hnone]
    exact ⟨_, rfl⟩

end Layout

/-! ### The classes -/

/-- The header is built if its type byte is known. -/
theorem MDHeader.layout_readsAt : MDHeader.layout.ReadsAt 22 MsgType.ofValue :=
  Layout.readsAt_of [.unsigned 8, .unsigned 2, .unsigned 4, .unsigned 8] rfl
    (.unsigned fun magicNumber ↦ .unsigned fun length ↦ .unsigned fun seqNum ↦
      .unsigned fun timestamp ↦ .unsigned fun msgType ↦ .nil
        ⟨[.int magicNumber, .int length, .int seqNum, .int timestamp], [], msgType, _, rfl, rfl,
          rfl⟩)

theorem NewOrder.layout_reads : NewOrder.layout.Reads (some 12) :=
  Layout.ReadsAt.reads (Layout.readsAt_of [.unsigned 8, .unsigned 4] rfl
    (.unsigned fun orderId ↦ .unsigned fun symbol ↦ .unsigned fun side ↦ .unsigned fun quantity ↦
      .signed fun price ↦ .unsigned fun flags ↦ .nil
        ⟨[.int orderId, .int symbol], [.int quantity, .int price, .int flags], side, _, rfl, rfl,
          rfl⟩))

theorem DeleteOrder.layout_reads : DeleteOrder.layout.Reads none :=
  Layout.ReadsAny.reads (Layout.readsAny_of (.unsigned fun _ ↦ .nil ⟨_, rfl⟩))

theorem ModifyOrder.layout_reads : ModifyOrder.layout.Reads (some 8) :=
  Layout.ReadsAt.reads (Layout.readsAt_of [.unsigned 8] rfl
    (.unsigned fun orderId ↦ .unsigned fun side ↦ .unsigned fun quantity ↦ .signed fun price ↦
      .nil ⟨[.int orderId], [.int quantity, .int price], side, _, rfl, rfl, rfl⟩))

theorem Trade.layout_reads : Trade.layout.Reads none :=
  Layout.ReadsAny.reads (Layout.readsAny_of
    (.unsigned fun _ ↦ .unsigned fun _ ↦ .signed fun _ ↦ .nil ⟨_, rfl⟩))

/-- A summary names the side of the aggressor. -/
theorem TradeSummary.layout_reads : TradeSummary.layout.Reads (some 4) :=
  Layout.ReadsAt.reads (Layout.readsAt_of [.unsigned 4] rfl
    (.unsigned fun symbol ↦ .unsigned fun side ↦ .unsigned fun totalQuantity ↦
      .signed fun lastPrice ↦ .nil
        ⟨[.int symbol], [.int totalQuantity, .int lastPrice], side, _, rfl, rfl, rfl⟩))

theorem SnapshotInfo.layout_reads : SnapshotInfo.layout.Reads none :=
  Layout.ReadsAny.reads (Layout.readsAny_of
    (.unsigned fun _ ↦ .unsigned fun _ ↦ .unsigned fun _ ↦ .unsigned fun _ ↦ .nil ⟨_, rfl⟩))

/-! ### Packets -/

section

variable {M : Type} {L : Layout M} {data : List UInt8} {header : MDHeader}

/-- Behind a header, a class's constructor does what the class does with the body. -/
theorem Layout.Reads.ofData {offset? : Option ℕ} (h : L.Reads offset?)
    (hheader : MDHeader.ofData data = .ok header) (wrap : M → MarketDataMessage) :
    ((∃ message, L.ofData wrap data = .ok message) ↔
        L.size ≤ (data.drop MDHeader.STRUCT_SIZE).length ∧
          SideAt offset? (data.drop MDHeader.STRUCT_SIZE)) ∧
      ∀ e, L.ofData wrap data = .error e →
        (e.isValueError = true ↔ L.size ≤ (data.drop MDHeader.STRUCT_SIZE).length) := by
  have hok := h.ok_iff (data.drop MDHeader.STRUCT_SIZE)
  have herror := h.isValueError_iff (data.drop MDHeader.STRUCT_SIZE)
  have hdata : L.ofData wrap data =
      (L.construct (data.drop MDHeader.STRUCT_SIZE) >>= fun body ↦ pure (header, wrap body)) := by
    rw [Layout.ofData, hheader]
    rfl
  rw [hdata, ← hok]
  rcases hbody : L.construct (data.drop MDHeader.STRUCT_SIZE) with e | b
  · refine ⟨iff_of_false ?_ ?_, fun e' he ↦ ?_⟩
    · rintro ⟨message, h⟩
      cases h
    · rintro ⟨b, h⟩
      cases h
    · obtain rfl : e = e' := Except.error.inj he
      exact herror e hbody
  · exact ⟨iff_of_true ⟨_, rfl⟩ ⟨b, rfl⟩, fun e he ↦ by cases he⟩

/-- Every type's constructor, behind a header. -/
theorem MsgType.construct_spec (hheader : MDHeader.ofData data = .ok header) (msgType : MsgType) :
    ((∃ message, msgType.construct data = .ok message) ↔
        msgType.bodySize ≤ (data.drop MDHeader.STRUCT_SIZE).length ∧
          SideAt msgType.sideOffset? (data.drop MDHeader.STRUCT_SIZE)) ∧
      ∀ e, msgType.construct data = .error e →
        (e.isValueError = true ↔
          msgType.bodySize ≤ (data.drop MDHeader.STRUCT_SIZE).length) := by
  cases msgType with
  | heartbeat =>
    have hok : MsgType.heartbeat.construct data = .ok (header, .header header) :=
      bind_eq_ok_iff.2 ⟨header, hheader, rfl⟩
    rw [hok]
    exact ⟨iff_of_true ⟨_, rfl⟩ ⟨Nat.zero_le _, nofun⟩, nofun⟩
  | newOrder => exact NewOrder.layout_reads.ofData hheader .newOrder
  | deleteOrder => exact DeleteOrder.layout_reads.ofData hheader .deleteOrder
  | modifyOrder => exact ModifyOrder.layout_reads.ofData hheader .modifyOrder
  | trade => exact Trade.layout_reads.ofData hheader .trade
  | tradeSummary => exact TradeSummary.layout_reads.ofData hheader .tradeSummary
  | snapshotInfo => exact SnapshotInfo.layout_reads.ofData hheader .snapshotInfo

/-- A packet that names a type is built by that type's constructor. -/
theorem parseMessage_of_type {msgType : MsgType} (hlength : MDHeader.STRUCT_SIZE ≤ data.length)
    (htype : msgType.value = (data.getD 22 0).toNat) :
    (∃ header, MDHeader.ofData data = .ok header) ∧
      parseMessage data = msgType.construct data := by
  obtain ⟨build, hbuild⟩ := MDHeader.layout_readsAt data hlength
  rw [← htype, MsgType.ofValue_value] at hbuild
  refine ⟨⟨build msgType, hbuild⟩, ?_⟩
  rw [parseMessage, if_neg (not_lt.2 hlength)]
  dsimp only
  rw [← htype, MsgType.ofValue_value]

/-- A packet that is too short, or names no type, raises a `ValueError`. -/
theorem parseMessage_of_no_type
    (h : ¬ (MDHeader.STRUCT_SIZE ≤ data.length ∧
      ∃ msgType : MsgType, msgType.value = (data.getD 22 0).toNat)) :
    ∃ e, parseMessage data = .error e ∧ e.isValueError = true := by
  by_cases hlength : data.length < MDHeader.STRUCT_SIZE
  · exact ⟨.shortData, if_pos hlength, rfl⟩
  · rw [parseMessage, if_neg hlength]
    dsimp only
    rcases hvalue : MsgType.ofValue (data.getD 22 0).toNat with e | msgType
    · exact ⟨_, rfl, rfl⟩
    · exact absurd ⟨not_lt.1 hlength, msgType, MsgType.value_of_ofValue hvalue⟩ h

end

/-- **What `parse_message` returns on**: the well-formed packets. -/
theorem parseMessage_ok_iff (data : List UInt8) :
    (∃ message, parseMessage data = .ok message) ↔ WellFormed data := by
  by_cases h : MDHeader.STRUCT_SIZE ≤ data.length ∧
    ∃ msgType : MsgType, msgType.value = (data.getD 22 0).toNat
  · obtain ⟨hlength, msgType, htype⟩ := h
    obtain ⟨⟨header, hheader⟩, hparse⟩ := parseMessage_of_type hlength htype
    rw [hparse, (MsgType.construct_spec hheader msgType).1, List.length_drop]
    constructor
    · rintro ⟨hbody, hside⟩
      exact ⟨hlength, msgType, htype, by omega, hside⟩
    · rintro ⟨-, msgType', htype', hbody, hside⟩
      obtain rfl := MsgType.value_injective (htype'.trans htype.symm)
      exact ⟨by omega, hside⟩
  · obtain ⟨e, he, -⟩ := parseMessage_of_no_type h
    rw [he]
    exact iff_of_false nofun fun ⟨hlength, msgType, htype, _⟩ ↦ h ⟨hlength, msgType, htype⟩

/-- **What `parse_message` raises** is a `ValueError`, but for a body that is cut short. -/
theorem isValueError_iff {data : List UInt8} {e : ParseError} (he : parseMessage data = .error e) :
    e.isValueError = true ↔ ¬ Truncated data := by
  by_cases h : MDHeader.STRUCT_SIZE ≤ data.length ∧
    ∃ msgType : MsgType, msgType.value = (data.getD 22 0).toNat
  · obtain ⟨hlength, msgType, htype⟩ := h
    obtain ⟨⟨header, hheader⟩, hparse⟩ := parseMessage_of_type hlength htype
    rw [(MsgType.construct_spec hheader msgType).2 e (hparse ▸ he), List.length_drop]
    constructor
    · rintro hbody ⟨-, msgType', htype', hshort⟩
      obtain rfl := MsgType.value_injective (htype'.trans htype.symm)
      omega
    · intro hwhole
      by_contra hshort
      exact hwhole ⟨hlength, msgType, htype, by omega⟩
  · obtain ⟨e', he', hvalue⟩ := parseMessage_of_no_type h
    obtain rfl := Except.error.inj (he'.symm.trans he)
    exact iff_of_true hvalue fun ⟨hlength, msgType, htype, _⟩ ↦ h ⟨hlength, msgType, htype⟩

/-- **When parsing raises nothing but `ValueError`s**, and returns on the well-formed packets: on
every packet whose body is not cut short. -/
theorem parses_or_raises_iff (data : List UInt8) :
    ((∃ message, parseMessage data = .ok message) ∨
        ∃ e, parseMessage data = .error e ∧ e.isValueError = true) ∧
      ((∃ message, parseMessage data = .ok message) ↔ WellFormed data) ↔ ¬ Truncated data := by
  rw [and_iff_left (parseMessage_ok_iff data)]
  rcases hparse : parseMessage data with e | message
  · rw [← isValueError_iff hparse]
    constructor
    · rintro (⟨message, hmessage⟩ | ⟨e', he', hvalue⟩)
      · cases hmessage
      · exact Except.error.inj he' ▸ hvalue
    · exact fun hvalue ↦ .inr ⟨e, rfl, hvalue⟩
  · refine iff_of_true (.inl ⟨message, rfl⟩) ?_
    rintro ⟨hlength, msgType, htype, hshort⟩
    obtain ⟨-, msgType', htype', hbody, -⟩ := (parseMessage_ok_iff data).1 ⟨message, hparse⟩
    obtain rfl := MsgType.value_injective (htype'.trans htype.symm)
    omega

/-- The header of an order, and no body: it raises a `struct.error`. -/
theorem headerless_body_raises :
    ¬ ∀ data : List UInt8,
      ((∃ message, parseMessage data = .ok message) ∨
          ∃ e, parseMessage data = .error e ∧ e.isValueError = true) ∧
        ((∃ message, parseMessage data = .ok message) ↔ WellFormed data) := by
  intro h
  have hraises : parseMessage (List.replicate 22 0 ++ [1]) = .error (.structError 22) := by
    decide +kernel
  obtain ⟨⟨message, hmessage⟩ | ⟨e, he, hvalue⟩, -⟩ := h (List.replicate 22 0 ++ [1])
  · rw [hraises] at hmessage
    cases hmessage
  · obtain rfl := Except.error.inj (hraises.symm.trans he)
    cases hvalue

end HftTrading.MarketData
