import HftTrading.Lib.Struct
import HftTrading.MarketData.Struct

/-!
# Parsing market data

`MDHeader.__init__`, the six body classes and `parse_message`. A packet is a header and, unless it
is a heartbeat, the body its type names; the type is read once as a raw byte, to choose the class,
and once more as a field of the header. `encodeMessage` is the layout the other way round, and
**`parse_encode` and `encode_parse` say that the two undo each other**.

Every class is a format string, a function from the unpacked fields to the record and, for the
statements, one back (`Layout`). That a class can be read back comes down to the two functions, and
to the format by the general theorem on formats; it is a lemma about layouts, and each class only
has to name its own. The tail behind a packet plays no part, since each class unpacks as many bytes
as its format takes.
-/

namespace HftTrading.MarketData

open Struct (Field Value ForAll Record)

/-- What parsing raises: a `ValueError`, or a `struct.error`. -/
inductive ParseError
  | shortData
  | unknownMsgType (raw : ℕ)
  | invalidMsgType (n : ℤ)
  | invalidSide (n : ℤ)
  | structError (size : ℕ)
  deriving DecidableEq

/-! ### Enumerations -/

/-- The wire value of a message type. -/
def MsgType.value : MsgType → ℤ
  | .heartbeat => 0
  | .newOrder => 1
  | .deleteOrder => 2
  | .modifyOrder => 3
  | .trade => 4
  | .tradeSummary => 5
  | .snapshotInfo => 6

/-- `MSG_TYPE(n)`. -/
def MsgType.ofValue : ℤ → Except ParseError MsgType
  | 0 => pure .heartbeat
  | 1 => pure .newOrder
  | 2 => pure .deleteOrder
  | 3 => pure .modifyOrder
  | 4 => pure .trade
  | 5 => pure .tradeSummary
  | 6 => pure .snapshotInfo
  | n => throw (.invalidMsgType n)

/-- A type is read back from its byte. -/
theorem MsgType.ofValue_value (msgType : MsgType) : ofValue msgType.value = .ok msgType := by
  cases msgType <;> rfl

theorem MsgType.value_of_ofValue {n : ℤ} {msgType : MsgType} (h : ofValue n = .ok msgType) :
    msgType.value = n := by
  unfold ofValue at h
  split at h <;> cases h <;> rfl

/-- The wire value of a side. -/
def Side.value : Side → ℤ
  | .buy => 1
  | .sell => 2

/-- `SIDE(n)`. -/
def Side.ofValue : ℤ → Except ParseError Side
  | 1 => pure .buy
  | 2 => pure .sell
  | n => throw (.invalidSide n)

/-- A side is read back from its byte. -/
theorem Side.ofValue_value (side : Side) : ofValue side.value = .ok side := by
  cases side <;> rfl

theorem Side.value_of_ofValue {n : ℤ} {side : Side} (h : ofValue n = .ok side) :
    side.value = n := by
  unfold ofValue at h
  split at h <;> cases h <;> rfl

/-! ### Layouts -/

theorem bind_eq_ok_iff {α β : Type} {x : Except ParseError α} {f : α → Except ParseError β}
    {b : β} :
    (x >>= f) = .ok b ↔ ∃ a, x = .ok a ∧ f a = .ok b := by
  rcases x with e | a
  · constructor
    · intro h
      cases h
    · rintro ⟨_, h, -⟩
      cases h
  · constructor
    · intro h
      exact ⟨a, rfl, h⟩
    · rintro ⟨_, h, hf⟩
      cases h
      exact hf

/-- What is returned, and what is raised forgotten. -/
theorem toOption_eq_some_iff {α : Type} {x : Except ParseError α} {a : α} :
    x.toOption = some a ↔ x = .ok a := by
  rcases x with e | b <;> simp [Except.toOption]

/-- How a class lies in a packet: its format, its fields in that order, and the value it builds from
them. Building undoes listing, in both directions, and nothing is padded or cut. -/
structure Layout (M : Type) where
  format : List Field
  fields : M → List Value
  ofFields : List Value → Except ParseError M
  ofFields_fields : ∀ m, ofFields (fields m) = .ok m
  fields_ofFields : ForAll format fun values ↦ ∀ m, ofFields values = .ok m → fields m = values
  wire_fields : ∀ m, Struct.wire format (fields m) = fields m

namespace Layout

variable {M : Type} (L : Layout M)

/-- The bytes the class takes. -/
def size : ℕ := Struct.calcsize L.format

/-- Read the fields from the front of some data, and build the value. -/
def construct (data : List UInt8) : Except ParseError M :=
  match Struct.unpack L.format (data.take L.size) with
  | none => throw (.structError L.size)
  | some fields => L.ofFields fields

/-- The bytes of a value. -/
def encode (m : M) : Option (List UInt8) := Struct.pack L.format (L.fields m)

/-- A layout is a record class. -/
def record : Record M :=
  @Record.of M L.format L.fields (fun values ↦ (L.ofFields values).toOption) L.encode
    (fun data ↦ (L.construct data).toOption) (fun _ ↦ rfl)
    (fun data ↦ by
      unfold construct size
      rcases Struct.unpack L.format (data.take (Struct.calcsize L.format)) with - | values <;> rfl)
    (fun m ↦ toOption_eq_some_iff.2 (L.ofFields_fields m))
    fun values hfits m hm ↦ L.fields_ofFields values hfits m (toOption_eq_some_iff.1 hm)

variable {L}

/-- **A value whose fields fit is read back**, whatever follows. -/
theorem construct_encode {m : M} (h : L.record.Fits m) (t : List UInt8) :
    ∃ packet, L.encode m = some packet ∧ packet.length = L.size ∧
      L.construct (packet ++ t) = .ok m := by
  obtain ⟨packet, hpack, hlength, hunpack⟩ := Record.unpack_pack h (L.wire_fields m).symm t
  exact ⟨packet, hpack, hlength, toOption_eq_some_iff.1 hunpack⟩

/-- **What is read is written back as the bytes it was read from.** -/
theorem encode_construct {m : M} {data : List UInt8} (h : L.construct data = .ok m) :
    L.record.Fits m ∧ L.encode m = some (data.take L.size) :=
  Record.pack_unpack (toOption_eq_some_iff.2 h : L.record.unpack data = some m)

end Layout

/-! ### The header -/

/-- `MDHeader`: `<QHIQB`. -/
def MDHeader.layout : Layout MDHeader where
  format := [.unsigned 8, .unsigned 2, .unsigned 4, .unsigned 8, .unsigned 1]
  fields h := [.int h.magicNumber, .int h.length, .int h.seqNum, .int h.timestamp,
    .int h.msgType.value]
  ofFields
    | [.int magicNumber, .int length, .int seqNum, .int timestamp, .int msgType] => do
      let msgType ← MsgType.ofValue msgType
      pure ⟨magicNumber.toNat, length.toNat, seqNum.toNat, timestamp.toNat, msgType⟩
    | _ => throw (.structError 23)
  ofFields_fields h := by simp [MsgType.ofValue_value]
  fields_ofFields :=
    .unsigned fun magicNumber ↦ .unsigned fun length ↦ .unsigned fun seqNum ↦
      .unsigned fun timestamp ↦ .unsigned fun msgType ↦ .nil fun m hm ↦ by
        obtain ⟨msgType', hmsg, hm⟩ := bind_eq_ok_iff.1 hm
        cases hm
        rw [← MsgType.value_of_ofValue hmsg]
        rfl
  wire_fields _ := rfl

/-- `MDHeader.STRUCT_SIZE`. -/
def MDHeader.STRUCT_SIZE : ℕ := MDHeader.layout.size

/-- `MDHeader.__init__`. -/
def MDHeader.ofData (data : List UInt8) : Except ParseError MDHeader :=
  MDHeader.layout.construct data

/-- The raw type byte of a packet is the type of its header. -/
theorem MDHeader.getD_of_encode {header : MDHeader} {packet : List UInt8}
    (h : MDHeader.layout.encode header = some packet) (t : List UInt8) :
    (((packet ++ t).getD 22 0).toNat : ℤ) = header.msgType.value :=
  @Struct.getD_of_pack [.unsigned 8, .unsigned 2, .unsigned 4, .unsigned 8] []
    [.int header.magicNumber, .int header.length, .int header.seqNum, .int header.timestamp] []
    header.msgType.value packet rfl h t

/-! ### The bodies -/

/-- `NewOrder`: `<QIBIiB`. -/
def NewOrder.layout : Layout NewOrder where
  format := [.unsigned 8, .unsigned 4, .unsigned 1, .unsigned 4, .signed 4, .unsigned 1]
  fields b := [.int b.orderId, .int b.symbol, .int b.side.value, .int b.quantity, .int b.price,
    .int b.flags]
  ofFields
    | [.int orderId, .int symbol, .int side, .int quantity, .int price, .int flags] => do
      let side ← Side.ofValue side
      pure ⟨orderId.toNat, symbol.toNat, side, quantity.toNat, price, flags.toNat⟩
    | _ => throw (.structError 22)
  ofFields_fields b := by simp [Side.ofValue_value]
  fields_ofFields :=
    .unsigned fun orderId ↦ .unsigned fun symbol ↦ .unsigned fun side ↦ .unsigned fun quantity ↦
      .signed fun price ↦ .unsigned fun flags ↦ .nil fun b hb ↦ by
        obtain ⟨side', hside, hb⟩ := bind_eq_ok_iff.1 hb
        cases hb
        rw [← Side.value_of_ofValue hside]
        rfl
  wire_fields _ := rfl

/-- `DeleteOrder`: `<Q`. -/
def DeleteOrder.layout : Layout DeleteOrder where
  format := [.unsigned 8]
  fields b := [.int b.orderId]
  ofFields
    | [.int orderId] => pure ⟨orderId.toNat⟩
    | _ => throw (.structError 8)
  ofFields_fields _ := rfl
  fields_ofFields := .unsigned fun orderId ↦ .nil fun b hb ↦ by
    cases hb
    rfl
  wire_fields _ := rfl

/-- `ModifyOrder`: `<QBIi`. -/
def ModifyOrder.layout : Layout ModifyOrder where
  format := [.unsigned 8, .unsigned 1, .unsigned 4, .signed 4]
  fields b := [.int b.orderId, .int b.side.value, .int b.quantity, .int b.price]
  ofFields
    | [.int orderId, .int side, .int quantity, .int price] => do
      let side ← Side.ofValue side
      pure ⟨orderId.toNat, side, quantity.toNat, price⟩
    | _ => throw (.structError 17)
  ofFields_fields b := by simp [Side.ofValue_value]
  fields_ofFields :=
    .unsigned fun orderId ↦ .unsigned fun side ↦ .unsigned fun quantity ↦ .signed fun price ↦
      .nil fun b hb ↦ by
        obtain ⟨side', hside, hb⟩ := bind_eq_ok_iff.1 hb
        cases hb
        rw [← Side.value_of_ofValue hside]
        rfl
  wire_fields _ := rfl

/-- `Trade`: `<QIi`. -/
def Trade.layout : Layout Trade where
  format := [.unsigned 8, .unsigned 4, .signed 4]
  fields b := [.int b.orderId, .int b.quantity, .int b.price]
  ofFields
    | [.int orderId, .int quantity, .int price] => pure ⟨orderId.toNat, quantity.toNat, price⟩
    | _ => throw (.structError 16)
  ofFields_fields _ := rfl
  fields_ofFields :=
    .unsigned fun orderId ↦ .unsigned fun quantity ↦ .signed fun price ↦ .nil fun b hb ↦ by
      cases hb
      rfl
  wire_fields _ := rfl

/-- `TradeSummary`: `<IBIi`. -/
def TradeSummary.layout : Layout TradeSummary where
  format := [.unsigned 4, .unsigned 1, .unsigned 4, .signed 4]
  fields b := [.int b.symbol, .int b.aggressorSide.value, .int b.totalQuantity, .int b.lastPrice]
  ofFields
    | [.int symbol, .int aggressorSide, .int totalQuantity, .int lastPrice] => do
      let side ← Side.ofValue aggressorSide
      pure ⟨symbol.toNat, side, totalQuantity.toNat, lastPrice⟩
    | _ => throw (.structError 13)
  ofFields_fields b := by simp [Side.ofValue_value]
  fields_ofFields :=
    .unsigned fun symbol ↦ .unsigned fun side ↦ .unsigned fun totalQuantity ↦
      .signed fun lastPrice ↦ .nil fun b hb ↦ by
        obtain ⟨side', hside, hb⟩ := bind_eq_ok_iff.1 hb
        cases hb
        rw [← Side.value_of_ofValue hside]
        rfl
  wire_fields _ := rfl

/-- `SnapshotInfo`: `<IIII`. -/
def SnapshotInfo.layout : Layout SnapshotInfo where
  format := [.unsigned 4, .unsigned 4, .unsigned 4, .unsigned 4]
  fields b := [.int b.symbol, .int b.bidCount, .int b.askCount, .int b.lastMdSeqNum]
  ofFields
    | [.int symbol, .int bidCount, .int askCount, .int lastMdSeqNum] =>
      pure ⟨symbol.toNat, bidCount.toNat, askCount.toNat, lastMdSeqNum.toNat⟩
    | _ => throw (.structError 16)
  ofFields_fields _ := rfl
  fields_ofFields :=
    .unsigned fun symbol ↦ .unsigned fun bidCount ↦ .unsigned fun askCount ↦
      .unsigned fun lastMdSeqNum ↦ .nil fun b hb ↦ by
        cases hb
        rfl
  wire_fields _ := rfl

/-- The constructor of a body class: the header, and the body from the bytes behind it. -/
def Layout.ofData {M : Type} (L : Layout M) (wrap : M → MarketDataMessage) (data : List UInt8) :
    Except ParseError Message := do
  let header ← MDHeader.ofData data
  let body ← L.construct (data.drop MDHeader.STRUCT_SIZE)
  pure (header, wrap body)

/-- `_MSG_CONSTRUCTORS`, and a heartbeat, which is its header. -/
def MsgType.construct : MsgType → List UInt8 → Except ParseError Message
  | .heartbeat => fun data ↦ do
    let header ← MDHeader.ofData data
    pure (header, .header header)
  | .newOrder => NewOrder.layout.ofData .newOrder
  | .deleteOrder => DeleteOrder.layout.ofData .deleteOrder
  | .modifyOrder => ModifyOrder.layout.ofData .modifyOrder
  | .trade => Trade.layout.ofData .trade
  | .tradeSummary => TradeSummary.layout.ofData .tradeSummary
  | .snapshotInfo => SnapshotInfo.layout.ofData .snapshotInfo

/-- `parse_message`. The class is looked up by the raw type byte. -/
def parseMessage (data : List UInt8) : Except ParseError Message :=
  if data.length < MDHeader.STRUCT_SIZE then throw .shortData
  else
    let msgTypeRaw := (data.getD 22 0).toNat
    match MsgType.ofValue msgTypeRaw with
    | .error _ => throw (.unknownMsgType msgTypeRaw)
    | .ok msgType => msgType.construct data

/-! ### Encoding -/

namespace MarketDataMessage

/-- The type of a message. -/
def msgType : MarketDataMessage → MsgType
  | newOrder _ => .newOrder
  | deleteOrder _ => .deleteOrder
  | modifyOrder _ => .modifyOrder
  | trade _ => .trade
  | tradeSummary _ => .tradeSummary
  | snapshotInfo _ => .snapshotInfo
  | header _ => .heartbeat

/-- The bytes of the body; a heartbeat has none. -/
def encodeBody : MarketDataMessage → Option (List UInt8)
  | newOrder b => NewOrder.layout.encode b
  | deleteOrder b => DeleteOrder.layout.encode b
  | modifyOrder b => ModifyOrder.layout.encode b
  | trade b => Trade.layout.encode b
  | tradeSummary b => TradeSummary.layout.encode b
  | snapshotInfo b => SnapshotInfo.layout.encode b
  | header _ => some []

/-- `BODY_SIZE` of the message's class. -/
def bodySize : MarketDataMessage → ℕ
  | newOrder _ => NewOrder.layout.size
  | deleteOrder _ => DeleteOrder.layout.size
  | modifyOrder _ => ModifyOrder.layout.size
  | trade _ => Trade.layout.size
  | tradeSummary _ => TradeSummary.layout.size
  | snapshotInfo _ => SnapshotInfo.layout.size
  | header _ => 0

/-- The fields of the body fit their widths. -/
def Fits : MarketDataMessage → Prop
  | newOrder b => NewOrder.layout.record.Fits b
  | deleteOrder b => DeleteOrder.layout.record.Fits b
  | modifyOrder b => ModifyOrder.layout.record.Fits b
  | trade b => Trade.layout.record.Fits b
  | tradeSummary b => TradeSummary.layout.record.Fits b
  | snapshotInfo b => SnapshotInfo.layout.record.Fits b
  | header _ => True

end MarketDataMessage

/-- A message as the exchange sends it: the header names the type of the body, and what a heartbeat
holds is its header. -/
structure Coherent (message : Message) : Prop where
  msgType : message.1.msgType = message.2.msgType
  heartbeat : ∀ h, message.2 = .header h → h = message.1

/-- The layout of a message: `<QHIQB`, and the `BODY_FORMAT` of its type. -/
def encodeMessage (message : Message) : Option (List UInt8) := do
  let header ← MDHeader.layout.encode message.1
  let body ← message.2.encodeBody
  pure (header ++ body)

/-! ### The two undo each other -/

/-- A packet that starts with a header is parsed by the class of the header's type. -/
theorem parseMessage_append {header : MDHeader} {packet : List UInt8}
    (h : MDHeader.layout.encode header = some packet)
    (hlength : packet.length = MDHeader.STRUCT_SIZE) (t : List UInt8) :
    parseMessage (packet ++ t) = header.msgType.construct (packet ++ t) := by
  have hlong : ¬(packet ++ t).length < MDHeader.STRUCT_SIZE := by
    rw [List.length_append]
    omega
  rw [parseMessage, if_neg hlong]
  dsimp only
  rw [MDHeader.getD_of_encode h t, MsgType.ofValue_value]

/-- The header of parsed data is its first bytes, and the type byte names its type. -/
theorem MDHeader.encode_ofData {header : MDHeader} {data : List UInt8}
    (h : MDHeader.ofData data = .ok header) :
    MDHeader.layout.record.Fits header ∧
      MDHeader.layout.encode header = some (data.take MDHeader.STRUCT_SIZE) ∧
      MsgType.ofValue (data.getD 22 0).toNat = .ok header.msgType := by
  obtain ⟨hfits, hencode⟩ := Layout.encode_construct h
  have htype := MDHeader.getD_of_encode hencode (data.drop MDHeader.STRUCT_SIZE)
  rw [← MDHeader.STRUCT_SIZE, List.take_append_drop] at htype
  rw [htype, MsgType.ofValue_value]
  exact ⟨hfits, hencode, rfl⟩

namespace Layout

variable {M : Type} {L : Layout M} {wrap : M → MarketDataMessage} {header : MDHeader}

/-- The round trip of one body class. -/
theorem ofData_encode {b : M} (hclass : header.msgType.construct = L.ofData wrap)
    (hbody : (wrap b).encodeBody = L.encode b) (hh : MDHeader.layout.record.Fits header)
    (hb : L.record.Fits b) (t : List UInt8) :
    ∃ packet, encodeMessage (header, wrap b) = some packet ∧
      parseMessage (packet ++ t) = .ok (header, wrap b) := by
  obtain ⟨body, hencodeBody, -, hreadBody⟩ := L.construct_encode hb t
  obtain ⟨front, hencode, hlength, hread⟩ := MDHeader.layout.construct_encode hh (body ++ t)
  refine ⟨front ++ body, ?_, ?_⟩
  · simp [encodeMessage, hencode, hbody, hencodeBody]
  · have hdrop : (front ++ (body ++ t)).drop MDHeader.STRUCT_SIZE = body ++ t :=
      List.drop_left' hlength
    rw [List.append_assoc, parseMessage_append hencode hlength, hclass, ofData, MDHeader.ofData,
      hread, hdrop]
    exact bind_eq_ok_iff.2 ⟨header, rfl, bind_eq_ok_iff.2 ⟨b, hreadBody, rfl⟩⟩

/-- What a body class reads is written back. -/
theorem encode_ofData {message : Message} {data : List UInt8}
    (h : L.ofData wrap data = .ok message) :
    ∃ b, MDHeader.ofData data = .ok message.1 ∧ message.2 = wrap b ∧ L.record.Fits b ∧
      L.encode b = some ((data.drop MDHeader.STRUCT_SIZE).take L.size) := by
  obtain ⟨header, hheader, h⟩ := bind_eq_ok_iff.1 h
  obtain ⟨b, hb, h⟩ := bind_eq_ok_iff.1 h
  cases h
  obtain ⟨hfits, hencode⟩ := encode_construct hb
  exact ⟨b, hheader, rfl, hfits, hencode⟩

end Layout

/-- What a constructor reads, the header and the body write back. -/
theorem MsgType.encode_construct {msgType : MsgType} {message : Message} {data : List UInt8}
    (h : msgType.construct data = .ok message) :
    MDHeader.ofData data = .ok message.1 ∧ message.2.msgType = msgType ∧
      (∀ h, message.2 = .header h → h = message.1) ∧ message.2.Fits ∧
      message.2.encodeBody =
        some ((data.drop MDHeader.STRUCT_SIZE).take message.2.bodySize) := by
  obtain ⟨header, body⟩ := message
  cases msgType with
  | heartbeat =>
    obtain ⟨header', hheader, h⟩ := bind_eq_ok_iff.1 h
    cases h
    refine ⟨hheader, rfl, fun h heq ↦ ?_, trivial, ?_⟩
    · cases heq
      rfl
    · rw [MarketDataMessage.bodySize, List.take_zero]
      rfl
  | newOrder =>
    obtain ⟨b, hheader, rfl, hfits, hencode⟩ := Layout.encode_ofData h
    exact ⟨hheader, rfl, nofun, hfits, hencode⟩
  | deleteOrder =>
    obtain ⟨b, hheader, rfl, hfits, hencode⟩ := Layout.encode_ofData h
    exact ⟨hheader, rfl, nofun, hfits, hencode⟩
  | modifyOrder =>
    obtain ⟨b, hheader, rfl, hfits, hencode⟩ := Layout.encode_ofData h
    exact ⟨hheader, rfl, nofun, hfits, hencode⟩
  | trade =>
    obtain ⟨b, hheader, rfl, hfits, hencode⟩ := Layout.encode_ofData h
    exact ⟨hheader, rfl, nofun, hfits, hencode⟩
  | tradeSummary =>
    obtain ⟨b, hheader, rfl, hfits, hencode⟩ := Layout.encode_ofData h
    exact ⟨hheader, rfl, nofun, hfits, hencode⟩
  | snapshotInfo =>
    obtain ⟨b, hheader, rfl, hfits, hencode⟩ := Layout.encode_ofData h
    exact ⟨hheader, rfl, nofun, hfits, hencode⟩

/-- **Whatever follows it, an encoded message is parsed as itself.** -/
theorem parse_encode (message : Message) (t : List UInt8) (hc : Coherent message)
    (hh : MDHeader.layout.record.Fits message.1) (hb : message.2.Fits) :
    ∃ packet, encodeMessage message = some packet ∧ parseMessage (packet ++ t) = .ok message := by
  obtain ⟨header, body⟩ := message
  have htype : header.msgType = body.msgType := hc.msgType
  cases body with
  | newOrder b => exact Layout.ofData_encode (htype ▸ rfl) rfl hh hb t
  | deleteOrder b => exact Layout.ofData_encode (htype ▸ rfl) rfl hh hb t
  | modifyOrder b => exact Layout.ofData_encode (htype ▸ rfl) rfl hh hb t
  | trade b => exact Layout.ofData_encode (htype ▸ rfl) rfl hh hb t
  | tradeSummary b => exact Layout.ofData_encode (htype ▸ rfl) rfl hh hb t
  | snapshotInfo b => exact Layout.ofData_encode (htype ▸ rfl) rfl hh hb t
  | header h =>
    obtain rfl : h = header := hc.heartbeat h rfl
    obtain ⟨packet, hencode, hlength, hread⟩ := MDHeader.layout.construct_encode hh t
    refine ⟨packet ++ [], by simp [encodeMessage, hencode, MarketDataMessage.encodeBody], ?_⟩
    rw [List.append_nil, parseMessage_append hencode hlength, htype]
    exact bind_eq_ok_iff.2 ⟨h, hread, rfl⟩

/-- **What is parsed is encoded back to the bytes it was parsed from**, which are as many as its
type has. -/
theorem encode_parse {message : Message} {data : List UInt8}
    (h : parseMessage data = .ok message) :
    Coherent message ∧ MDHeader.layout.record.Fits message.1 ∧ message.2.Fits ∧
      encodeMessage message =
        some (data.take (MDHeader.STRUCT_SIZE + message.2.bodySize)) := by
  rw [parseMessage] at h
  split at h
  · cases h
  dsimp only at h
  split at h
  · cases h
  rename_i msgType hraw
  obtain ⟨hheader, htype, hheartbeat, hfits, hbody⟩ := MsgType.encode_construct h
  obtain ⟨hfitsHeader, hencode, hraw'⟩ := MDHeader.encode_ofData hheader
  obtain rfl : msgType = message.1.msgType := Except.ok.inj (hraw.symm.trans hraw')
  refine ⟨⟨htype.symm, hheartbeat⟩, hfitsHeader, hfits, ?_⟩
  rw [List.take_add]
  simp [encodeMessage, hencode, hbody]

/-- **`parse_message` and the layout undo each other** on every message of the feed. -/
theorem parse_roundTrip :
    (∀ (message : Message) (t : List UInt8), Coherent message →
      MDHeader.layout.record.Fits message.1 → message.2.Fits →
        ∃ packet, encodeMessage message = some packet ∧
          parseMessage (packet ++ t) = .ok message) ∧
      ∀ (message : Message) (d : List UInt8), parseMessage d = .ok message →
        encodeMessage message = some (d.take (MDHeader.STRUCT_SIZE + message.2.bodySize)) :=
  ⟨parse_encode, fun _ _ h ↦ (encode_parse h).2.2.2⟩

/-- A sell at the lowest price, with the highest order id. -/
def sampleOrder : Message :=
  (⟨MAGIC_NUMBER, 45, 7, 0, .newOrder⟩, .newOrder ⟨2 ^ 64 - 1, 3, .sell, 10, -(2 ^ 31), 0⟩)

/-- The sample order, with two bytes behind it. -/
theorem parse_roundTrip_sampleOrder :
    ∃ packet, encodeMessage sampleOrder = some packet ∧
      parseMessage (packet ++ [1, 2]) = .ok sampleOrder :=
  parse_roundTrip.1 sampleOrder [1, 2] ⟨rfl, fun _ h ↦ by cases h⟩ (by decide)
    (by decide : NewOrder.layout.record.Fits ⟨2 ^ 64 - 1, 3, .sell, 10, -(2 ^ 31), 0⟩)

end HftTrading.MarketData
