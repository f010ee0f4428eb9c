import HftTrading.OrderEntry.Protocol

/-!
# The order-entry codec

Every structure of the protocol lists its fields twice, once in `pack` and once in `unpack`. Here
the two are shown to agree, structure by structure, and from that they are inverse: what is packed
is read back with its byte strings padded or cut, whatever bytes follow, and any bytes of the right
size are packed back from what they are read as.

Agreement is all that has to be said of a structure. Its format consists of a header's format and
its own fields, so it is said of the header once and of each structure for the fields behind it; the
rest is the general theorem on formats. The byte strings are the only fields that are not read back
as they were given: `struct` pads a short one with zeros and cuts a long one.
-/

namespace HftTrading.OrderEntry

open Struct (Field Value ForAll TotalRecord padTo)

/-! ### The classes -/

section

variable {format : List Field} {P : List Value → Prop}

theorem OeRequestHeader.forAll_append
    (h : ∀ header : OeRequestHeader, ForAll format fun rest ↦ P (header.fields ++ rest)) :
    ForAll (FORMAT ++ format) P :=
  .unsigned fun length ↦ .unsigned fun msgType ↦ .unsigned fun version ↦ .unsigned fun seqNum ↦
    .unsigned fun clientId ↦ .unsigned fun sessionId ↦
      h ⟨length, msgType, version, seqNum, clientId, sessionId⟩

theorem OeResponseHeader.forAll_append
    (h : ∀ header : OeResponseHeader, ForAll format fun rest ↦ P (header.fields ++ rest)) :
    ForAll (FORMAT ++ format) P :=
  .unsigned fun length ↦ .unsigned fun msgType ↦ .unsigned fun version ↦ .unsigned fun seqNum ↦
    .unsigned fun lastSeqNum ↦ .unsigned fun clientId ↦
      h ⟨length, msgType, version, seqNum, lastSeqNum, clientId⟩

end

/-! The format and the list of fields of each class are those of its `pack`; that its `unpack`
builds the structure from the same list, in the same order, is what the three `rfl` check. -/

/-- The class `OeRequestHeader`. -/
def OeRequestHeader.record : TotalRecord OeRequestHeader :=
  .of OeRequestHeader.pack OeRequestHeader.unpack (fun _ ↦ rfl) (fun _ ↦ rfl) (fun _ ↦ rfl) <|
    @OeRequestHeader.forAll_append [] _ fun header ↦ .nil ⟨header, rfl⟩

/-- The class `OeResponseHeader`. -/
def OeResponseHeader.record : TotalRecord OeResponseHeader :=
  .of OeResponseHeader.pack OeResponseHeader.unpack (fun _ ↦ rfl) (fun _ ↦ rfl) (fun _ ↦ rfl) <|
    @OeResponseHeader.forAll_append [] _ fun header ↦ .nil ⟨header, rfl⟩

/-- The class `Login`. -/
def Login.record : TotalRecord Login :=
  .of Login.pack Login.unpack (fun _ ↦ rfl) (fun _ ↦ rfl) (fun _ ↦ rfl) <|
    OeRequestHeader.forAll_append fun header ↦ .bytes fun username ↦ .bytes fun password ↦
      .nil ⟨⟨header, username, password⟩, rfl⟩

/-- The class `LoginResponse`. -/
def LoginResponse.record : TotalRecord LoginResponse :=
  .of LoginResponse.pack LoginResponse.unpack (fun _ ↦ rfl) (fun _ ↦ rfl) (fun _ ↦ rfl) <|
    OeResponseHeader.forAll_append fun header ↦ .unsigned fun sessionId ↦ .unsigned fun status ↦
      .nil ⟨⟨header, sessionId, status⟩, rfl⟩

/-- The class `NewOrder`. -/
def NewOrder.record : TotalRecord NewOrder :=
  .of NewOrder.pack NewOrder.unpack (fun _ ↦ rfl) (fun _ ↦ rfl) (fun _ ↦ rfl) <|
    OeRequestHeader.forAll_append fun header ↦ .unsigned fun orderId ↦ .unsigned fun symbol ↦
      .unsigned fun side ↦ .unsigned fun quantity ↦ .signed fun price ↦ .unsigned fun flags ↦
        .nil ⟨⟨header, orderId, symbol, side, quantity, price, flags⟩, rfl⟩

/-- The class `DeleteOrder`. -/
def DeleteOrder.record : TotalRecord DeleteOrder :=
  .of DeleteOrder.pack DeleteOrder.unpack (fun _ ↦ rfl) (fun _ ↦ rfl) (fun _ ↦ rfl) <|
    OeRequestHeader.forAll_append fun header ↦ .unsigned fun orderId ↦ .nil ⟨⟨header, orderId⟩, rfl⟩

/-- The class `ModifyOrder`. -/
def ModifyOrder.record : TotalRecord ModifyOrder :=
  .of ModifyOrder.pack ModifyOrder.unpack (fun _ ↦ rfl) (fun _ ↦ rfl) (fun _ ↦ rfl) <|
    OeRequestHeader.forAll_append fun header ↦ .unsigned fun orderId ↦ .unsigned fun side ↦
      .unsigned fun quantity ↦ .signed fun price ↦
        .nil ⟨⟨header, orderId, side, quantity, price⟩, rfl⟩

/-- The class `OrderAck`. -/
def OrderAck.record : TotalRecord OrderAck :=
  .of OrderAck.pack OrderAck.unpack (fun _ ↦ rfl) (fun _ ↦ rfl) (fun _ ↦ rfl) <|
    OeResponseHeader.forAll_append fun header ↦ .unsigned fun orderId ↦
      .unsigned fun exchOrderId ↦ .unsigned fun quantity ↦ .signed fun price ↦
        .nil ⟨⟨header, orderId, exchOrderId, quantity, price⟩, rfl⟩

/-- The class `OrderReject`. -/
def OrderReject.record : TotalRecord OrderReject :=
  .of OrderReject.pack OrderReject.unpack (fun _ ↦ rfl) (fun _ ↦ rfl) (fun _ ↦ rfl) <|
    OeResponseHeader.forAll_append fun header ↦ .unsigned fun orderId ↦ .unsigned fun rejectReason ↦
      .nil ⟨⟨header, orderId, rejectReason⟩, rfl⟩

/-- The class `OrderFill`. -/
def OrderFill.record : TotalRecord OrderFill :=
  .of OrderFill.pack OrderFill.unpack (fun _ ↦ rfl) (fun _ ↦ rfl) (fun _ ↦ rfl) <|
    OeResponseHeader.forAll_append fun header ↦ .unsigned fun orderId ↦ .unsigned fun quantity ↦
      .signed fun price ↦ .unsigned fun flags ↦
        .nil ⟨⟨header, orderId, quantity, price, flags⟩, rfl⟩

/-- The class `OrderClosed`. -/
def OrderClosed.record : TotalRecord OrderClosed :=
  .of OrderClosed.pack OrderClosed.unpack (fun _ ↦ rfl) (fun _ ↦ rfl) (fun _ ↦ rfl) <|
    OeResponseHeader.forAll_append fun header ↦ .unsigned fun orderId ↦
      .nil ⟨⟨header, orderId⟩, rfl⟩

/-- The class `ErrorMessage`. -/
def ErrorMessage.record : TotalRecord ErrorMessage :=
  .of ErrorMessage.pack ErrorMessage.unpack (fun _ ↦ rfl) (fun _ ↦ rfl) (fun _ ↦ rfl) <|
    OeResponseHeader.forAll_append fun header ↦ .unsigned fun errorCode ↦
      .unsigned fun errorMessageLength ↦ .bytes fun errorMessage ↦
        .nil ⟨⟨header, errorCode, errorMessageLength, errorMessage⟩, rfl⟩

/-! ### The protocol as a whole -/

/-- The structures of the protocol. -/
inductive OeStruct
  | requestHeader
  | responseHeader
  | login
  | loginResponse
  | newOrder
  | deleteOrder
  | modifyOrder
  | orderAck
  | orderReject
  | orderFill
  | orderClosed
  | errorMessage

namespace OeStruct

/-- What the structure holds. -/
def Message : OeStruct → Type
  | requestHeader => OeRequestHeader
  | responseHeader => OeResponseHeader
  | login => Login
  | loginResponse => LoginResponse
  | newOrder => NewOrder
  | deleteOrder => DeleteOrder
  | modifyOrder => ModifyOrder
  | orderAck => OrderAck
  | orderReject => OrderReject
  | orderFill => OrderFill
  | orderClosed => OrderClosed
  | errorMessage => ErrorMessage

/-- The class of the structure, with its format, its `pack` and its `unpack`. -/
def record : (k : OeStruct) → TotalRecord k.Message
  | requestHeader => OeRequestHeader.record
  | responseHeader => OeResponseHeader.record
  | login => Login.record
  | loginResponse => LoginResponse.record
  | newOrder => NewOrder.record
  | deleteOrder => DeleteOrder.record
  | modifyOrder => ModifyOrder.record
  | orderAck => OrderAck.record
  | orderReject => OrderReject.record
  | orderFill => OrderFill.record
  | orderClosed => OrderClosed.record
  | errorMessage => ErrorMessage.record

/-- The message with its byte strings padded with zeros, or cut, to their width on the wire. -/
def padded : (k : OeStruct) → k.Message → k.Message
  | login, ⟨header, username, password⟩ => ⟨header, padTo 16 username, padTo 16 password⟩
  | errorMessage, ⟨header, code, length, text⟩ => ⟨header, code, length, padTo 32 text⟩
  | requestHeader, m => m
  | responseHeader, m => m
  | loginResponse, m => m
  | newOrder, m => m
  | deleteOrder, m => m
  | modifyOrder, m => m
  | orderAck, m => m
  | orderReject, m => m
  | orderFill, m => m
  | orderClosed, m => m

/-- Padding the message is what the format makes of its fields. -/
theorem fields_padded (k : OeStruct) (m : k.Message) :
    k.record.fields (k.padded m) = Struct.wire k.record.format (k.record.fields m) := by
  cases k <;> rfl

/-- **Packing and unpacking are inverse on every structure.** A message whose fields fit their
widths is packed into as many bytes as its format has, and read back padded, whatever follows; and
any bytes of that size are packed back from what they are read as. -/
theorem roundTrip (k : OeStruct) :
    (∀ (m : k.Message) (t : List UInt8), k.record.Fits m →
      ∃ packet, k.record.pack m = some packet ∧ packet.length = k.record.size ∧
        k.record.unpack (packet ++ t) = some (k.padded m)) ∧
      ∀ b : List UInt8, b.length = k.record.size →
        ∃ m, k.record.unpack b = some m ∧ k.record.pack m = some b :=
  ⟨fun m t hfits ↦ Struct.Record.unpack_pack hfits (k.fields_padded m) t,
    fun _ hlength ↦ k.record.exists_unpack hlength⟩

/-- A login whose user name is too long and whose password is empty. -/
def sampleLogin : Login := ⟨⟨56, 99, 1, 1, 7, 0⟩, List.replicate 20 65, []⟩

/-- The sample login, with one byte behind it: its long name is cut. -/
theorem roundTrip_sampleLogin :
    ∃ packet, Login.pack sampleLogin = some packet ∧ packet.length = Login.SIZE ∧
      Login.unpack (packet ++ [255]) =
        some { sampleLogin with
          username := List.replicate 16 65
          password := List.replicate 16 0 } :=
  (roundTrip .login).1 sampleLogin [255] (by decide : Login.record.Fits sampleLogin)

end OeStruct

end HftTrading.OrderEntry
