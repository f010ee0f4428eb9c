import HftTrading.Lib.Struct

/-!
# The order-entry protocol

The messages of order entry: requests and responses, each with the `pack` and the `unpack` of its
class. Unsigned response fields are natural numbers and everything a caller hands in is an integer,
which packing may refuse. Order ids are integers throughout, because a local reject carries the
caller's.

Each class lists its format, its fields for packing and the record made of unpacked fields, in the
order of the source; the header's come first. `pack` and `unpack` are the ones of `struct` on these.
An enumeration is read from an integer if the integer is the value of a member, and there is no such
member otherwise: the source raises a `ValueError` there, and what that does is up to the caller.
-/

namespace HftTrading.OrderEntry

open Struct (Field Value)

/-- `OE_PROTOCOL_VERSION`. -/
def OE_PROTOCOL_VERSION : ℕ := 1

/-! ### Enumerations -/

/-- The member of an enumeration with a given value, as calling the enumeration looks it up. -/
def memberOf {α : Type} (members : List α) (value : α → ℤ) (n : ℤ) : Option α :=
  members.find? fun member ↦ value member = n

/-- `MsgType`. -/
inductive MsgType
  | newOrder
  | deleteOrder
  | modifyOrder
  | login
  | loginResponse
  | ack
  | reject
  | fill
  | close
  | error
  deriving DecidableEq, Repr

/-- The wire value of a message type. -/
def MsgType.value : MsgType → ℤ
  | .newOrder => 1
  | .deleteOrder => 2
  | .modifyOrder => 3
  | .login => 99
  | .loginResponse => 100
  | .ack => 101
  | .reject => 102
  | .fill => 103
  | .close => 104
  | .error => 105

/-- `MsgType(n)`. -/
def MsgType.ofValue? (n : ℤ) : Option MsgType :=
  memberOf [.newOrder, .deleteOrder, .modifyOrder, .login, .loginResponse, .ack, .reject, .fill,
    .close, .error] value n

/-- `RejectReason`. -/
inductive RejectReason
  | none
  | unknownSymbol
  | invalidOrder
  | duplicateOrderId
  | unknownOrderId
  | invalidPrice
  | invalidQuantity
  | invalidSide
  | unknownSessionId
  | duplicateLogin
  | riskReject
  deriving DecidableEq, Repr

/-- The wire value of a reject reason. -/
def RejectReason.value : RejectReason → ℤ
  | .none => 0
  | .unknownSymbol => 1
  | .invalidOrder => 2
  | .duplicateOrderId => 3
  | .unknownOrderId => 4
  | .invalidPrice => 5
  | .invalidQuantity => 6
  | .invalidSide => 7
  | .unknownSessionId => 8
  | .duplicateLogin => 9
  | .riskReject => 10

/-- `RejectReason(n)`. -/
def RejectReason.ofValue? (n : ℤ) : Option RejectReason :=
  memberOf [.none, .unknownSymbol, .invalidOrder, .duplicateOrderId, .unknownOrderId, .invalidPrice,
    .invalidQuantity, .invalidSide, .unknownSessionId, .duplicateLogin, .riskReject] value n

/-- `LoginStatus`. -/
inductive LoginStatus
  | success
  | invalidUsername
  | invalidPassword
  | invalidSession
  | sessionAlreadyActive
  | duplicateLogin
  | invalidClientId
  deriving DecidableEq, Repr

/-- The wire value of a login status. -/
def LoginStatus.value : LoginStatus → ℤ
  | .success => 0
  | .invalidUsername => 5
  | .invalidPassword => 6
  | .invalidSession => 7
  | .sessionAlreadyActive => 8
  | .duplicateLogin => 9
  | .invalidClientId => 10

/-- `LoginStatus(n)`. -/
def LoginStatus.ofValue? (n : ℤ) : Option LoginStatus :=
  memberOf [.success, .invalidUsername, .invalidPassword, .invalidSession, .sessionAlreadyActive,
    .duplicateLogin, .invalidClientId] value n

/-- `OrderFlags`. -/
inductive OrderFlags
  | none
  | ioc
  deriving DecidableEq, Repr

/-- The wire value of an order flag. -/
def OrderFlags.value : OrderFlags → ℤ
  | .none => 0
  | .ioc => 1

/-- `OrderFlags(n)`. -/
def OrderFlags.ofValue? (n : ℤ) : Option OrderFlags := memberOf [.none, .ioc] value n

/-- `FillFlags`. -/
inductive FillFlags
  | none
  | partialFill
  | closed
  deriving DecidableEq, Repr

/-- The wire value of a fill flag. -/
def FillFlags.value : FillFlags → ℤ
  | .none => 0
  | .partialFill => 1
  | .closed => 2

/-- `FillFlags(n)`. -/
def FillFlags.ofValue? (n : ℤ) : Option FillFlags := memberOf [.none, .partialFill, .closed] value n

/-- `Side`. -/
inductive Side
  | buy
  | sell
  deriving DecidableEq, Repr

/-- The wire value of a side. -/
def Side.value : Side → ℤ
  | .buy => 1
  | .sell => 2

/-- `Side(n)`. -/
def Side.ofValue? (n : ℤ) : Option Side := memberOf [.buy, .sell] value n

/-- A side is the value that it was read from. -/
theorem Side.value_of_ofValue? {n : ℤ} {side : Side} (h : ofValue? n = some side) :
    side.value = n := by
  simpa using List.find?_some h

/-! ### Headers -/

/-- `OeRequestHeader`. -/
structure OeRequestHeader where
  length : ℕ
  msgType : ℤ
  version : ℕ
  seqNum : ℕ
  clientId : ℤ
  sessionId : ℕ
  deriving DecidableEq

/-- `OeRequestHeader.FORMAT`: `<HBBIIQ`. -/
def OeRequestHeader.FORMAT : List Field :=
  [.unsigned 2, .unsigned 1, .unsigned 1, .unsigned 4, .unsigned 4, .unsigned 8]

/-- The header's fields, as `pack` lists them. -/
def OeRequestHeader.fields (h : OeRequestHeader) : List Value :=
  [.int h.length, .int h.msgType, .int h.version, .int h.seqNum, .int h.clientId, .int h.sessionId]

/-- `OeRequestHeader.SIZE`. -/
def OeRequestHeader.SIZE : ℕ := Struct.calcsize FORMAT

/-- `OeRequestHeader.pack`. -/
def OeRequestHeader.pack (h : OeRequestHeader) : Option (List UInt8) := Struct.pack FORMAT h.fields

/-- A header from its unpacked fields. -/
def OeRequestHeader.ofFields : List Value → Option OeRequestHeader
  | [.int length, .int msgType, .int version, .int seqNum, .int clientId, .int sessionId] =>
    some ⟨length.toNat, msgType, version.toNat, seqNum.toNat, clientId, sessionId.toNat⟩
  | _ => none

/-- `OeRequestHeader.unpack`. -/
def OeRequestHeader.unpack (data : List UInt8) : Option OeRequestHeader := do
  let fields ← Struct.unpack FORMAT (data.take SIZE)
  ofFields fields

/-- `OeResponseHeader`. -/
structure OeResponseHeader where
  length : ℕ
  msgType : ℕ
  version : ℕ
  seqNum : ℕ
  lastSeqNum : ℕ
  clientId : ℤ
  deriving DecidableEq

/-- `OeResponseHeader.FORMAT`: `<HBBIII`. -/
def OeResponseHeader.FORMAT : List Field :=
  [.unsigned 2, .unsigned 1, .unsigned 1, .unsigned 4, .unsigned 4, .unsigned 4]

/-- `OeResponseHeader.SIZE`. -/
def OeResponseHeader.SIZE : ℕ := Struct.calcsize FORMAT

/-- The header's fields, as `pack` lists them. -/
def OeResponseHeader.fields (h : OeResponseHeader) : List Value :=
  [.int h.length, .int h.msgType, .int h.version, .int h.seqNum, .int h.lastSeqNum, .int h.clientId]

/-- `OeResponseHeader.pack`. -/
def OeResponseHeader.pack (h : OeResponseHeader) : Option (List UInt8) :=
  Struct.pack FORMAT h.fields

/-- A header from its unpacked fields. -/
def OeResponseHeader.ofFields : List Value → Option OeResponseHeader
  | [.int length, .int msgType, .int version, .int seqNum, .int lastSeqNum, .int clientId] =>
    some ⟨length.toNat, msgType.toNat, version.toNat, seqNum.toNat, lastSeqNum.toNat, clientId⟩
  | _ => none

/-- `OeResponseHeader.unpack`. -/
def OeResponseHeader.unpack (data : List UInt8) : Option OeResponseHeader := do
  let fields ← Struct.unpack FORMAT (data.take SIZE)
  ofFields fields

/-! ### Requests -/

/-- `Login`. -/
structure Login where
  header : OeRequestHeader
  username : List UInt8
  password : List UInt8
  deriving DecidableEq

/-- `Login.FORMAT`. -/
def Login.FORMAT : List Field := OeRequestHeader.FORMAT ++ [.bytes 16, .bytes 16]

/-- `Login.SIZE`. -/
def Login.SIZE : ℕ := Struct.calcsize FORMAT

/-- `Login.pack`. -/
def Login.pack (m : Login) : Option (List UInt8) :=
  Struct.pack FORMAT (m.header.fields ++ [.bytes m.username, .bytes m.password])

/-- `Login.unpack`. -/
def Login.unpack (data : List UInt8) : Option Login := do
  let fields ← Struct.unpack FORMAT (data.take SIZE)
  let header ← OeRequestHeader.ofFields (fields.take 6)
  match fields.drop 6 with
  | [.bytes username, .bytes password] => some ⟨header, username, password⟩
  | _ => none

/-- `NewOrder`. -/
structure NewOrder where
  header : OeRequestHeader
  orderId : ℤ
  symbol : ℤ
  side : ℤ
  quantity : ℤ
  price : ℤ
  flags : ℤ
  deriving DecidableEq

/-- `NewOrder.FORMAT`. -/
def NewOrder.FORMAT : List Field :=
  OeRequestHeader.FORMAT ++
    [.unsigned 8, .unsigned 4, .unsigned 1, .unsigned 4, .signed 4, .unsigned 1]

/-- `NewOrder.SIZE`. -/
def NewOrder.SIZE : ℕ := Struct.calcsize FORMAT

/-- `NewOrder.pack`. -/
def NewOrder.pack (m : NewOrder) : Option (List UInt8) :=
  Struct.pack FORMAT (m.header.fields ++ [.int m.orderId, .int m.symbol, .int m.side,
    .int m.quantity, .int m.price, .int m.flags])

/-- `NewOrder.unpack`. -/
def NewOrder.unpack (data : List UInt8) : Option NewOrder := do
  let fields ← Struct.unpack FORMAT (data.take SIZE)
  let header ← OeRequestHeader.ofFields (fields.take 6)
  match fields.drop 6 with
  | [.int orderId, .int symbol, .int side, .int quantity, .int price, .int flags] =>
    some ⟨header, orderId, symbol, side, quantity, price, flags⟩
  | _ => none

/-- `DeleteOrder`. -/
structure DeleteOrder where
  header : OeRequestHeader
  orderId : ℤ
  deriving DecidableEq

/-- `DeleteOrder.FORMAT`. -/
def DeleteOrder.FORMAT : List Field := OeRequestHeader.FORMAT ++ [.unsigned 8]

/-- `DeleteOrder.SIZE`. -/
def DeleteOrder.SIZE : ℕ := Struct.calcsize FORMAT

/-- `DeleteOrder.pack`. -/
def DeleteOrder.pack (m : DeleteOrder) : Option (List UInt8) :=
  Struct.pack FORMAT (m.header.fields ++ [.int m.orderId])

/-- `DeleteOrder.unpack`. -/
def DeleteOrder.unpack (data : List UInt8) : Option DeleteOrder := do
  let fields ← Struct.unpack FORMAT (data.take SIZE)
  let header ← OeRequestHeader.ofFields (fields.take 6)
  match fields.drop 6 with
  | [.int orderId] => some ⟨header, orderId⟩
  | _ => none

/-- `ModifyOrder`. -/
structure ModifyOrder where
  header : OeRequestHeader
  orderId : ℤ
  side : ℤ
  quantity : ℤ
  price : ℤ
  deriving DecidableEq

/-- `ModifyOrder.FORMAT`. -/
def ModifyOrder.FORMAT : List Field :=
  OeRequestHeader.FORMAT ++ [.unsigned 8, .unsigned 1, .unsigned 4, .signed 4]

/-- `ModifyOrder.SIZE`. -/
def ModifyOrder.SIZE : ℕ := Struct.calcsize FORMAT

/-- `ModifyOrder.pack`. -/
def ModifyOrder.pack (m : ModifyOrder) : Option (List UInt8) :=
  Struct.pack FORMAT (m.header.fields ++ [.int m.orderId, .int m.side, .int m.quantity,
    .int m.price])

/-- `ModifyOrder.unpack`. -/
def ModifyOrder.unpack (data : List UInt8) : Option ModifyOrder := do
  let fields ← Struct.unpack FORMAT (data.take SIZE)
  let header ← OeRequestHeader.ofFields (fields.take 6)
  match fields.drop 6 with
  | [.int orderId, .int side, .int quantity, .int price] =>
    some ⟨header, orderId, side, quantity, price⟩
  | _ => none

/-! ### Responses -/

/-- `LoginResponse`. -/
structure LoginResponse where
  header : OeResponseHeader
  sessionId : ℕ
  status : ℕ
  deriving DecidableEq

/-- `LoginResponse.FORMAT`. -/
def LoginResponse.FORMAT : List Field := OeResponseHeader.FORMAT ++ [.unsigned 8, .unsigned 1]

/-- `LoginResponse.pack`. -/
def LoginResponse.pack (m : LoginResponse) : Option (List UInt8) :=
  Struct.pack FORMAT (m.header.fields ++ [.int m.sessionId, .int m.status])

/-- `LoginResponse.unpack`. -/
def LoginResponse.unpack (data : List UInt8) : Option LoginResponse := do
  let fields ← Struct.unpack FORMAT (data.take (Struct.calcsize FORMAT))
  let header ← OeResponseHeader.ofFields (fields.take 6)
  match fields.drop 6 with
  | [.int sessionId, .int status] => some ⟨header, sessionId.toNat, status.toNat⟩
  | _ => none

/-- `OrderAck`. -/
structure OrderAck where
  header : OeResponseHeader
  orderId : ℤ
  exchOrderId : ℕ
  quantity : ℕ
  price : ℤ
  deriving DecidableEq

/-- `OrderAck.FORMAT`. -/
def OrderAck.FORMAT : List Field :=
  OeResponseHeader.FORMAT ++ [.unsigned 8, .unsigned 8, .unsigned 4, .signed 4]

/-- `OrderAck.pack`. -/
def OrderAck.pack (m : OrderAck) : Option (List UInt8) :=
  Struct.pack FORMAT
    (m.header.fields ++ [.int m.orderId, .int m.exchOrderId, .int m.quantity, .int m.price])

/-- `OrderAck.unpack`. -/
def OrderAck.unpack (data : List UInt8) : Option OrderAck := do
  let fields ← Struct.unpack FORMAT (data.take (Struct.calcsize FORMAT))
  let header ← OeResponseHeader.ofFields (fields.take 6)
  match fields.drop 6 with
  | [.int orderId, .int exchOrderId, .int quantity, .int price] =>
    some ⟨header, orderId, exchOrderId.toNat, quantity.toNat, price⟩
  | _ => none

/-- `OrderReject`. -/
structure OrderReject where
  header : OeResponseHeader
  orderId : ℤ
  rejectReason : ℤ
  deriving DecidableEq

/-- `OrderReject.FORMAT`. -/
def OrderReject.FORMAT : List Field := OeResponseHeader.FORMAT ++ [.unsigned 8, .unsigned 1]

/-- `OrderReject.SIZE`. -/
def OrderReject.SIZE : ℕ := Struct.calcsize FORMAT

/-- `OrderReject.pack`. -/
def OrderReject.pack (m : OrderReject) : Option (List UInt8) :=
  Struct.pack FORMAT (m.header.fields ++ [.int m.orderId, .int m.rejectReason])

/-- `OrderReject.unpack`. -/
def OrderReject.unpack (data : List UInt8) : Option OrderReject := do
  let fields ← Struct.unpack FORMAT (data.take SIZE)
  let header ← OeResponseHeader.ofFields (fields.take 6)
  match fields.drop 6 with
  | [.int orderId, .int rejectReason] => some ⟨header, orderId, rejectReason⟩
  | _ => none

/-- `OrderFill`. -/
structure OrderFill where
  header : OeResponseHeader
  orderId : ℤ
  quantity : ℕ
  price : ℤ
  flags : ℤ
  deriving DecidableEq

/-- `OrderFill.FORMAT`. -/
def OrderFill.FORMAT : List Field :=
  OeResponseHeader.FORMAT ++ [.unsigned 8, .unsigned 4, .signed 4, .unsigned 1]

/-- `OrderFill.pack`. -/
def OrderFill.pack (m : OrderFill) : Option (List UInt8) :=
  Struct.pack FORMAT
    (m.header.fields ++ [.int m.orderId, .int m.quantity, .int m.price, .int m.flags])

/-- `OrderFill.unpack`. -/
def OrderFill.unpack (data : List UInt8) : Option OrderFill := do
  let fields ← Struct.unpack FORMAT (data.take (Struct.calcsize FORMAT))
  let header ← OeResponseHeader.ofFields (fields.take 6)
  match fields.drop 6 with
  | [.int orderId, .int quantity, .int price, .int flags] =>
    some ⟨header, orderId, quantity.toNat, price, flags⟩
  | _ => none

/-- `OrderClosed`. -/
structure OrderClosed where
  header : OeResponseHeader
  orderId : ℤ
  deriving DecidableEq

/-- `OrderClosed.FORMAT`. -/
def OrderClosed.FORMAT : List Field := OeResponseHeader.FORMAT ++ [.unsigned 8]

/-- `OrderClosed.pack`. -/
def OrderClosed.pack (m : OrderClosed) : Option (List UInt8) :=
  Struct.pack FORMAT (m.header.fields ++ [.int m.orderId])

/-- `OrderClosed.unpack`. -/
def OrderClosed.unpack (data : List UInt8) : Option OrderClosed := do
  let fields ← Struct.unpack FORMAT (data.take (Struct.calcsize FORMAT))
  let header ← OeResponseHeader.ofFields (fields.take 6)
  match fields.drop 6 with
  | [.int orderId] => some ⟨header, orderId⟩
  | _ => none

/-- `ErrorMessage`. -/
structure ErrorMessage where
  header : OeResponseHeader
  errorCode : ℕ
  errorMessageLength : ℕ
  errorMessage : List UInt8
  deriving DecidableEq

/-- `ErrorMessage.FORMAT`. -/
def ErrorMessage.FORMAT : List Field :=
  OeResponseHeader.FORMAT ++ [.unsigned 1, .unsigned 2, .bytes 32]

/-- `ErrorMessage.pack`. -/
def ErrorMessage.pack (m : ErrorMessage) : Option (List UInt8) :=
  Struct.pack FORMAT
    (m.header.fields ++ [.int m.errorCode, .int m.errorMessageLength, .bytes m.errorMessage])

/-- `ErrorMessage.unpack`. -/
def ErrorMessage.unpack (data : List UInt8) : Option ErrorMessage := do
  let fields ← Struct.unpack FORMAT (data.take (Struct.calcsize FORMAT))
  let header ← OeResponseHeader.ofFields (fields.take 6)
  match fields.drop 6 with
  | [.int errorCode, .int errorMessageLength, .bytes errorMessage] =>
    some ⟨header, errorCode.toNat, errorMessageLength.toNat, errorMessage⟩
  | _ => none

/-- `OeResponse`: what `_parse_response` returns, a bare header for a type without a class. -/
inductive OeResponse
  | loginResponse (m : LoginResponse)
  | ack (m : OrderAck)
  | reject (m : OrderReject)
  | fill (m : OrderFill)
  | closed (m : OrderClosed)
  | error (m : ErrorMessage)
  | header (m : OeResponseHeader)
  deriving DecidableEq

/-- The header of a response. -/
def OeResponse.hdr : OeResponse → OeResponseHeader
  | .loginResponse m => m.header
  | .ack m => m.header
  | .reject m => m.header
  | .fill m => m.header
  | .closed m => m.header
  | .error m => m.header
  | .header m => m

/-- A response on the wire. -/
def OeResponse.pack : OeResponse → Option (List UInt8)
  | .loginResponse m => m.pack
  | .ack m => m.pack
  | .reject m => m.pack
  | .fill m => m.pack
  | .closed m => m.pack
  | .error m => m.pack
  | .header m => Struct.pack OeResponseHeader.FORMAT m.fields

/-- The dispatch of `_parse_response` on the message type. -/
def MsgType.unpack (msgType : MsgType) (hdr : OeResponseHeader) (data : List UInt8) :
    Option OeResponse :=
  match msgType with
  | .loginResponse => (LoginResponse.unpack data).map .loginResponse
  | .ack => (OrderAck.unpack data).map .ack
  | .reject => (OrderReject.unpack data).map .reject
  | .fill => (OrderFill.unpack data).map .fill
  | .close => (OrderClosed.unpack data).map .closed
  | .error => (ErrorMessage.unpack data).map .error
  | _ => some (.header hdr)

/-- `OeConfig`: an entry of `open_orders`. -/
structure OeConfig where
  symbol : ℤ
  side : ℤ
  qty : ℤ
  prc : ℤ
  filled : ℤ
  deriving DecidableEq

end HftTrading.OrderEntry
