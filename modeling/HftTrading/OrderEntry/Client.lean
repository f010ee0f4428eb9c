import HftTrading.OrderEntry.Safety
import HftTrading.OrderEntry.Socket

/-!
# The order-entry client

`OrderEntryClient`, as the source writes it. Reading, parsing and booking are methods on the client,
so whatever a method did before it raised stays done.

Handling a response can trip the kill switch, which cancels every open order, which reads and
handles further responses. The recursion is written open, each layer over the next (`processWith`,
`checkLimitsWith`, `cancelAllWith`, `deleteOrderWith`), and closed over a count of the arrivals
still to come: a cancel that gets as far as handling has read a message, so the count suffices, and
the methods satisfy the source's recursive equations (`deleteOrder_eq`, `cancelAllOrders_eq`).

The field `record` is a record and not state: no operation reads it. It notes what was read, booked
and dropped, in order, with the orders and positions at that point, and which responses have been
read and wait to be handled.
-/

namespace HftTrading.OrderEntry

/-! ### The record of a run -/

/-- What the record notes. -/
inductive Note
  /-- `_parse_response` returned a response. -/
  | read (r : OeResponse)
  /-- `new_order` wrote an entry. -/
  | placed (orderId : ℤ) (entry : OeConfig)
  /-- A fill was booked against an entry, and may have closed the order. -/
  | booked (orderId : ℤ) (entry : OeConfig) (fill : OrderFill)
  /-- An order left `open_orders`, other than by a fill. -/
  | removed (orderId : ℤ)
  /-- `open_orders` was cleared. -/
  | cleared
  /-- `modify_order` rewrote an entry. -/
  | modified (orderId : ℤ) (before after : OeConfig)
  /-- An exception threw away responses that had been read and not handled. -/
  | lost (responses : List OeResponse)
  /-- A request went out on the connection. -/
  | sent (message : List UInt8)
  /-- The list collected for a request. -/
  | replied (seqNum : ℕ) (orderId : ℤ) (message : List UInt8) (responses : List OeResponse)
  deriving DecidableEq

/-- A note, with the state right after what it notes. -/
structure Point where
  note : Note
  openOrders : Dict ℤ OeConfig
  positionTracker : PositionTracker
  pnlTracker : PnLTracker
  /-- The responses read and not handled yet. -/
  waiting : List OeResponse
  deriving DecidableEq

/-- What has happened, and the batches of responses being collected or handled, innermost first. -/
structure Record where
  trace : List Point
  batches : List (List OeResponse)
  deriving DecidableEq

namespace Record

/-- Nothing noted yet. -/
def empty : Record := ⟨[], []⟩

/-- The responses read and not handled yet. -/
def waiting (r : Record) : List OeResponse := r.batches.flatten

/-- A new batch, empty so far. -/
def openBatch (r : Record) : Record := { r with batches := [] :: r.batches }

/-- One more response in the innermost batch. -/
def collect (response : OeResponse) (r : Record) : Record :=
  { r with batches := match r.batches with
    | [] => []
    | batch :: outer => (batch ++ [response]) :: outer }

/-- The first response of the innermost batch is handled now. -/
def take (r : Record) : Record :=
  { r with batches := match r.batches with
    | [] => []
    | batch :: outer => batch.tail :: outer }

/-- The innermost batch is done with. -/
def closeBatch (r : Record) : Record := { r with batches := r.batches.tail }

/-- The innermost batch. -/
def batch (r : Record) : List OeResponse := r.batches.headD []

end Record

/-! ### The client -/

/-- `OrderEntryClient`. -/
structure OrderEntryClient where
  username : List UInt8
  password : List UInt8
  clientId : ℤ
  sessionId : ℕ
  seqNum : ℕ
  respSeq : ℕ
  positionTracker : PositionTracker
  openOrders : Dict ℤ OeConfig
  pnlTracker : PnLTracker
  riskTracker : RiskTracker
  pnlMinVal : ℤ
  positionLimit : ℤ
  socket : Option Socket
  /-- What the next attempts to connect meet: a refusal, or what arrives on the new connection. -/
  network : List (Option (List Arrival))
  /-- What has happened. -/
  record : Record
  deriving DecidableEq

/-- A fill's quantity as it moves the position of an order with this entry: up for a buy, down for
anything else. -/
def OeConfig.signed (entry : OeConfig) (quantity : ℤ) : ℤ :=
  if entry.side = Side.buy.value then quantity else -quantity

namespace OrderEntryClient

/-- A method of the client. -/
abbrev ClientM (α : Type) : Type := Method OeError OrderEntryClient α

/-- `OrderEntryClient.__init__`, up to the connection, which is given with what the later ones
meet. -/
def init (username password : List UInt8) (clientId pnlFloor positionCap : ℤ)
    (socket : Option Socket) (network : List (Option (List Arrival))) : OrderEntryClient where
  username := username
  password := password
  clientId := clientId
  sessionId := 0
  seqNum := 0
  respSeq := 0
  positionTracker := .init
  openOrders := .empty
  pnlTracker := .init
  riskTracker := .init
  pnlMinVal := pnlFloor
  positionLimit := positionCap
  socket := socket
  network := network
  record := .empty

/-- The arrivals still to come on the connection. -/
def arrivals (c : OrderEntryClient) : ℕ := (c.socket.map fun s ↦ s.incoming.length).getD 0

/-- Write back the socket. -/
def setSocket (s : Socket) (c : OrderEntryClient) : OrderEntryClient := { c with socket := some s }

/-- Change the record. -/
def onRecord (f : Record → Record) (c : OrderEntryClient) : OrderEntryClient :=
  { c with record := f c.record }

/-- The point at which something is noted. -/
def point (n : Note) (c : OrderEntryClient) : Point :=
  ⟨n, c.openOrders, c.positionTracker, c.pnlTracker, c.record.waiting⟩

/-- Note what has just been done. -/
def note (n : Note) (c : OrderEntryClient) : OrderEntryClient :=
  { c with record := { c.record with
    trace := c.record.trace ++ [c.point n] } }

/-- A call on the socket, which has to be there. -/
def onSocket {α : Type} (call : Method OeError Socket α) : ClientM α := fun c ↦
  match c.socket with
  | none => .error .notConnected c
  | some s => call.focus s setSocket c

/-- Without a connection there is nothing to call. -/
theorem onSocket_of_none {α : Type} {c : OrderEntryClient} (h : c.socket = none)
    (call : Method OeError Socket α) : onSocket call c = .error .notConnected c := by
  unfold onSocket
  rw [h]

/-- With one, the call is made on its socket. -/
theorem onSocket_of_some {α : Type} {c : OrderEntryClient} {s : Socket} (h : c.socket = some s)
    (call : Method OeError Socket α) : onSocket call c = call.focus s setSocket c := by
  unfold onSocket
  rw [h]

/-! ### Connecting -/

/-- `_close`. -/
def close (c : OrderEntryClient) : OrderEntryClient := { c with socket := none }

/-- `_connect`. -/
def connect : ClientM Unit := fun c ↦
  match c.network with
  | [] => .error .connectionRefused c.close
  | none :: rest => .error .connectionRefused { c.close with network := rest }
  | some incoming :: rest =>
    .ok () { c with socket := some (.connected incoming), network := rest }

/-- `_make_header`, with `_next_seq`. -/
def makeHeader (msgType : MsgType) (length : ℕ) : ClientM OeRequestHeader := do
  modify fun c ↦ { c with seqNum := c.seqNum + 1 }
  let c ← get
  pure ⟨length, msgType.value, OE_PROTOCOL_VERSION, c.seqNum, c.clientId, c.sessionId⟩

/-- What `pack` gives, or `struct.error`. -/
def packed (data : Option (List UInt8)) : ClientM (List UInt8) :=
  match data with
  | none => throw .structError
  | some data => pure data

/-- `_send_raw`. -/
def sendRaw (data : List UInt8) : ClientM Unit := onSocket (Socket.sendall data)

/-! ### Reading -/

/-- `_validate_response_header`. -/
def validateResponseHeader (hdr : OeResponseHeader) : ClientM Unit := do
  let c ← get
  if hdr.version ≠ OE_PROTOCOL_VERSION then throw (.versionMismatch hdr.version)
  else if hdr.clientId ≠ c.clientId then throw (.clientIdMismatch hdr.clientId c.clientId)
  else if c.respSeq ≠ 0 ∧ hdr.seqNum ≤ c.respSeq then throw (.seqNotMonotonic hdr.seqNum c.respSeq)

/-- `_parse_response`. -/
def parseResponse (data : List UInt8) : ClientM OeResponse :=
  match OeResponseHeader.unpack data with
  | none => throw .structError
  | some hdr => do
    validateResponseHeader hdr
    modify fun c ↦ { c with respSeq := hdr.seqNum }
    match MsgType.ofValue? hdr.msgType with
    | none => throw (.notAMember "MsgType" hdr.msgType)
    | some msgType =>
      match msgType.unpack hdr data with
      | none => throw .structError
      | some response => do
        modify fun c ↦ (c.onRecord (·.collect response)).note (.read response)
        pure response

/-- `self._parse_response(self._recv_message())`. -/
def receive : ClientM OeResponse := do
  let data ← onSocket Socket.recvMessage
  parseResponse data

/-- The innermost batch is thrown away. -/
def abandonBatch (c : OrderEntryClient) : OrderEntryClient :=
  (c.note (.lost c.record.batch)).onRecord Record.closeBatch

/-- Send the login and read one response, which is not handled as the others are. -/
def exchangeLogin (data : List UInt8) : ClientM OeResponse := do
  sendRaw data
  modify (onRecord Record.openBatch)
  receive.onExit abandonBatch abandonBatch

/-- `login`. -/
def login : ClientM LoginResponse := do
  let c ← get
  let header ← makeHeader .login Login.SIZE
  let data ← packed (Login.pack ⟨header, c.username, c.password⟩)
  let response ← exchangeLogin data
  match response with
  | .loginResponse m =>
    match LoginStatus.ofValue? m.status with
    | none => throw (.notAMember "LoginStatus" m.status)
    | some status =>
      if status ≠ .success then throw (.loginFailed status)
      else do
        modify fun c ↦ { c with sessionId := m.sessionId }
        pure m
  | _ => throw .loginExpected

/-- Whether a first response is the only one: a reject or an error. -/
def isReject : OeResponse → Bool
  | .reject _ | .error _ => true
  | _ => false

/-- The non-blocking drain of `_send_and_recv`. An iteration that goes on has read a message. -/
def drain : ℕ → List OeResponse → ClientM (List OeResponse)
  | 0, responses => pure responses
  | iterations + 1, responses => do
    let next ← tryCatch (do let response ← receive; pure (some response)) fun e ↦
      if e.isSocketError then pure none else throw e
    match next with
    | none => pure responses
    | some response => drain iterations (responses ++ [response])

/-- `setblocking` on the client's socket. -/
def setBlocking (blocking : Bool) (c : OrderEntryClient) : OrderEntryClient :=
  { c with socket := c.socket.map (Socket.setBlocking blocking) }

/-- What `_send_and_recv` reads: one response, and those that have already arrived behind it. -/
def collectResponses : ClientM (List OeResponse) := do
  let first ← receive
  if isReject first then pure [first]
  else do
    modify (setBlocking false)
    let c ← get
    (drain (c.arrivals + 1) [first]).onExit (setBlocking true) (setBlocking true)

/-- `_send_and_recv`. -/
def sendAndRecv (msg : List UInt8) : ClientM (List OeResponse) := do
  sendRaw msg
  modify fun c ↦ ((c.note (.sent msg)).setBlocking true).onRecord Record.openBatch
  collectResponses.onExit id abandonBatch

/-- `_send_and_recv` for a request, with the list it returns noted. -/
def exchange (seqNum : ℕ) (orderId : ℤ) (msg : List UInt8) : ClientM (List OeResponse) := do
  let responses ← sendAndRecv msg
  modify (note (.replied seqNum orderId msg responses))
  pure responses

/-! ### Handling -/

/-- `open_orders.pop(order_id, None)`. -/
def popOrder (orderId : ℤ) (c : OrderEntryClient) : OrderEntryClient :=
  if c.openOrders.contains orderId then
    { c with openOrders := c.openOrders.erase orderId }.note (.removed orderId)
  else c

/-- The position and the cash after a fill of an order with this entry. -/
def bookTrackers (entry : OeConfig) (fill : OrderFill) (c : OrderEntryClient) : OrderEntryClient :=
  if entry.side = Side.buy.value then
    { c with
      positionTracker := c.positionTracker.updatePosition entry.symbol fill.quantity 0
      pnlTracker := c.pnlTracker.onFillBuy fill.quantity fill.price }
  else
    { c with
      positionTracker := c.positionTracker.updatePosition entry.symbol 0 fill.quantity
      pnlTracker := c.pnlTracker.onFillSell fill.quantity fill.price }

/-- An entry with a fill added to it. -/
def filledBy (fill : OrderFill) (entry : OeConfig) : OeConfig :=
  { entry with filled := entry.filled + fill.quantity }

/-- What a fill of an open order writes. -/
def bookFill (entry : OeConfig) (fill : OrderFill) (flags : FillFlags) (c : OrderEntryClient) :
    OrderEntryClient :=
  let c := (c.onRecord Record.take).bookTrackers entry fill
  { c with openOrders :=
      if flags = FillFlags.closed then c.openOrders.erase fill.orderId
      else c.openOrders.insert fill.orderId (filledBy fill entry) }.note
    (.booked fill.orderId entry fill)

/-- The body of the loop of `_process_responses`. -/
def handleResponse (checkLimits : ℤ → ClientM Unit) (response : OeResponse) : ClientM Unit :=
  match response with
  | .reject m =>
    match RejectReason.ofValue? m.rejectReason with
    | none => throw (.notAMember "RejectReason" m.rejectReason)
    | some reason =>
      if reason = .unknownOrderId then modify fun c ↦ (c.onRecord Record.take).popOrder m.orderId
      else throw (.orderRejected m.orderId reason)
  | .fill m =>
    match FillFlags.ofValue? m.flags with
    | none => throw (.notAMember "FillFlags" m.flags)
    | some flags => do
      let c ← get
      match c.openOrders.get? m.orderId with
      | none => modify (onRecord Record.take)
      | some entry => do
        modify (bookFill entry m flags)
        checkLimits entry.symbol
  | .closed m => modify fun c ↦ (c.onRecord Record.take).popOrder m.orderId
  | _ => modify (onRecord Record.take)

/-- `_process_responses`. -/
def processWith (checkLimits : ℤ → ClientM Unit) (responses : List OeResponse) : ClientM Unit :=
  (Method.all (responses.map (handleResponse checkLimits))).onExit (onRecord Record.closeBatch)
    abandonBatch

/-- One cancel of `cancel_all_orders`, which survives whatever it raises. -/
def cancelWith (deleteOrder : ℤ → ClientM (List OeResponse)) (orderId : ℤ) : ClientM Unit :=
  tryCatch (do
    let c ← get
    if c.openOrders.contains orderId then do
      let _ ← deleteOrder orderId
    else throw (.orderNotOpen orderId)) fun _ ↦ pure ()

/-- `cancel_all_orders`. -/
def cancelAllWith (deleteOrder : ℤ → ClientM (List OeResponse)) : ClientM Unit := do
  let c ← get
  Method.all (c.openOrders.keys.map (cancelWith deleteOrder))

/-- A kill switch. -/
def cancelIf (tripped : Bool) (cancelAllOrders : ClientM Unit) : ClientM Unit :=
  if tripped then cancelAllOrders else pure ()

/-- `_check_limits`. Position and PnL are read before anything is cancelled. -/
def checkLimitsWith (cancelAllOrders : ClientM Unit) (symbol : ℤ) : ClientM Unit := do
  let c ← get
  cancelIf (c.pnlTracker.getPnl < c.pnlMinVal) cancelAllOrders
  cancelIf (|c.positionTracker.getPosition symbol| > c.positionLimit) cancelAllOrders

/-- `delete_order`. -/
def deleteOrderWith (processResponses : List OeResponse → ClientM Unit) (orderId : ℤ) :
    ClientM (List OeResponse) := do
  let header ← makeHeader .deleteOrder DeleteOrder.SIZE
  let data ← packed (DeleteOrder.pack ⟨header, orderId⟩)
  let responses ← exchange header.seqNum orderId data
  processResponses responses
  pure responses

/-- `delete_order`, when at most this many arrivals are to come. -/
def deleteOrderN : ℕ → ℤ → ClientM (List OeResponse)
  | 0 => deleteOrderWith (processWith fun _ ↦ pure ())
  | n + 1 => deleteOrderWith (processWith (checkLimitsWith (cancelAllWith (deleteOrderN n))))

/-- `delete_order`. -/
def deleteOrder (orderId : ℤ) : ClientM (List OeResponse) := fun c ↦
  deleteOrderN c.arrivals orderId c

/-- `cancel_all_orders`. -/
def cancelAllOrders : ClientM Unit := fun c ↦ cancelAllWith (deleteOrderN c.arrivals) c

/-- `_check_limits`. -/
def checkLimits (symbol : ℤ) : ClientM Unit := checkLimitsWith cancelAllOrders symbol

/-- `_process_responses`. -/
def processResponses (responses : List OeResponse) : ClientM Unit :=
  processWith checkLimits responses

/-! ### Requests -/

/-- A reject made up locally. -/
def localReject (msgSeq lastSeq : ℕ) (orderId : ℤ) (reason : RejectReason) (c : OrderEntryClient) :
    OeResponse :=
  .reject ⟨⟨OrderReject.SIZE, MsgType.reject.value.toNat, OE_PROTOCOL_VERSION, msgSeq, lastSeq,
    c.clientId⟩, orderId, reason.value⟩

/-- A check that an integer is a member of an enumeration, where the source asks for its name. -/
def nameOf {α : Type} (enumeration : String) (ofValue? : ℤ → Option α) (n : ℤ) : ClientM Unit :=
  match ofValue? n with
  | none => throw (.notAMember enumeration n)
  | some _ => pure ()

/-- Write a new entry. -/
def placeEntry (orderId : ℤ) (entry : OeConfig) (c : OrderEntryClient) : OrderEntryClient :=
  { c with openOrders := c.openOrders.insert orderId entry }.note (.placed orderId entry)

/-- The pre-trade check of `new_order`, at a reading of the clock. -/
def riskCheck (now : ℚ) (symbol side quantity price : ℤ) : ClientM Bool := do
  let c ← get
  let answer := c.riskTracker.isValid symbol side quantity price c.openOrders c.positionTracker
    c.pnlTracker c.respSeq now
  modify fun c ↦ { c with riskTracker := answer.2 }
  pure answer.1.1

/-- `new_order`, past its checks: the request is packed, sent and its responses are handled. -/
def submitNewOrder (orderId symbol side quantity price flags : ℤ) : ClientM (List OeResponse) := do
  let header ← makeHeader .newOrder NewOrder.SIZE
  nameOf "Side" Side.ofValue? side
  nameOf "OrderFlags" OrderFlags.ofValue? flags
  modify (placeEntry orderId ⟨symbol, side, quantity, price, 0⟩)
  let data ← packed (NewOrder.pack ⟨header, orderId, symbol, side, quantity, price, flags⟩)
  let responses ← exchange header.seqNum orderId data
  processResponses responses
  pure responses

/-- `new_order`. -/
def newOrder (now : ℚ) (orderId symbol side quantity price flags : ℤ) :
    ClientM (List OeResponse) := do
  let c ← get
  if c.openOrders.contains orderId then
    pure [localReject 0 c.seqNum orderId .duplicateOrderId c]
  else do
    let valid ← riskCheck now symbol side quantity price
    if valid then submitNewOrder orderId symbol side quantity price flags
    else do
      modify fun c ↦ { c with seqNum := c.seqNum + 1 }
      let c ← get
      pure [localReject c.seqNum (c.seqNum - 1) orderId .riskReject c]

/-- `immediate_or_cancel`. -/
def immediateOrCancel (now : ℚ) (orderId symbol side quantity price : ℤ) :
    ClientM (List OeResponse) :=
  newOrder now orderId symbol side quantity price OrderFlags.ioc.value

/-- Rewrite the entry of an order that is open. -/
def rewriteEntry (orderId side quantity price : ℤ) (c : OrderEntryClient) : OrderEntryClient :=
  match c.openOrders.get? orderId with
  | none => c
  | some entry =>
    let entry' : OeConfig := ⟨entry.symbol, side, quantity, price, entry.filled⟩
    { c with openOrders := c.openOrders.insert orderId entry' }.note
      (.modified orderId entry entry')

/-- What `modify_order` does with the first response, once all have been handled. -/
def settleModify (orderId side quantity price : ℤ) (first : OeResponse) (c : OrderEntryClient) :
    OrderEntryClient :=
  match first with
  | .ack _ => c.rewriteEntry orderId side quantity price
  | .closed _ => c.popOrder orderId
  | .reject m =>
    if RejectReason.ofValue? m.rejectReason = some .unknownOrderId then c.popOrder orderId else c
  | _ => c

/-- `modify_order`. -/
def modifyOrder (orderId side quantity price : ℤ) : ClientM (List OeResponse) := do
  let c ← get
  if c.openOrders.contains orderId then do
    let header ← makeHeader .modifyOrder ModifyOrder.SIZE
    nameOf "Side" Side.ofValue? side
    let data ← packed (ModifyOrder.pack ⟨header, orderId, side, quantity, price⟩)
    let responses ← exchange header.seqNum orderId data
    processResponses responses
    match responses with
    | [] => pure responses
    | first :: _ => do
      modify (settleModify orderId side quantity price first)
      pure responses
  else pure [localReject 0 c.seqNum orderId .unknownOrderId c]

/-- The attempts of `reconnect`. -/
def attempts : ℕ → ClientM Unit
  | 0 => throw .reconnectFailed
  | n + 1 => do
    let done ← tryCatch (do connect; let _ ← login; pure true) fun _ ↦ pure false
    if done then pure () else attempts n

/-- What `reconnect` forgets. -/
def forgetSession (c : OrderEntryClient) : OrderEntryClient :=
  { c with openOrders := .empty, seqNum := 0, respSeq := 0, sessionId := 0 }.note .cleared

/-- `reconnect`. -/
def reconnect : ClientM Unit := do
  modify forgetSession
  attempts 5

/-- `shutdown`. -/
def shutdown : ClientM Unit := do
  let c ← get
  if c.socket.isSome then do
    tryCatch cancelAllOrders fun _ ↦ pure ()
    modify close
  else pure ()

/-! ### What booking writes -/

/-- A fill moves the position of its own symbol by its signed amount. -/
theorem getPosition_bookTrackers (entry : OeConfig) (fill : OrderFill) (c : OrderEntryClient)
    (symbol : ℤ) :
    (c.bookTrackers entry fill).positionTracker.getPosition symbol =
      c.positionTracker.getPosition symbol +
        if symbol = entry.symbol then entry.signed fill.quantity else 0 := by
  unfold bookTrackers OeConfig.signed
  split
  · exact (PositionTracker.getPosition_updatePosition symbol entry.symbol fill.quantity 0 _).trans
      (by rw [sub_zero])
  · exact (PositionTracker.getPosition_updatePosition symbol entry.symbol 0 fill.quantity _).trans
      (by rw [zero_sub])

/-- Booking touches nothing but the two trackers. -/
theorem bookTrackers_eq (entry : OeConfig) (fill : OrderFill) (c : OrderEntryClient) :
    c.bookTrackers entry fill =
      { c with
        positionTracker := (c.bookTrackers entry fill).positionTracker
        pnlTracker := (c.bookTrackers entry fill).pnlTracker } := by
  unfold bookTrackers
  split
  · rfl
  · rfl

/-- The cash moves by the price of what has filled, if the amount and the balance are doubles. -/
theorem cash_bookTrackers {entry : OeConfig} {fill : OrderFill} {c : OrderEntryClient}
    (hamount : IsDouble (fill.price * fill.quantity))
    (hcash : IsDouble (c.pnlTracker.cash - fill.price * entry.signed fill.quantity)) :
    (c.bookTrackers entry fill).pnlTracker.cash =
      c.pnlTracker.cash - fill.price * entry.signed fill.quantity := by
  unfold bookTrackers
  unfold OeConfig.signed at hcash ⊢
  split at hcash
  · rename_i hside
    rw [if_pos hside, if_pos hside]
    show roundDouble (c.pnlTracker.cash - roundDouble (fill.price * fill.quantity)) = _
    rw [show roundDouble (fill.price * fill.quantity) = _ from hamount]
    exact hcash
  · rename_i hside
    rw [if_neg hside, if_neg hside]
    rw [mul_neg, sub_neg_eq_add] at hcash ⊢
    show roundDouble (c.pnlTracker.cash + roundDouble (fill.price * fill.quantity)) = _
    rw [show roundDouble (fill.price * fill.quantity) = _ from hamount]
    exact hcash

end OrderEntryClient

end HftTrading.OrderEntry
