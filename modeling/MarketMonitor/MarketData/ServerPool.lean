import MarketMonitor.MarketData.Wire

/-!
# The pool of TDX servers

A request is tried at the nodes of the pool in their order, on the connection a node has
kept or on a new one. What the network and the servers do is given step by step (`Network`) :
a server answers each request it received with one framed response, and everything else may
fail at any point.

A connection remembers what was sent over it, and with which frame the server answered
(`Connection.exchanges`). A kept connection has been read to its end (`Connection.Ready`),
so a response is the answer to the payload it was asked for, over any sequence of requests
(`requests_answered`).
-/

namespace MarketMonitor

open Transaction

/-! ## Framed responses -/

/-- A framed response : a header of 16 bytes, and a body of the length it announces. -/
structure Frame where
  header : List UInt8
  body : List UInt8
  header_length : header.length = 16
  body_length : body.length = unpackH (header.drop 12)

def Frame.bytes (frame : Frame) : List UInt8 := frame.header ++ frame.body

def maxResponseBytes : ℕ := 32 * 1024 * 1024

section Pool

-- `zlib.decompress`, which may raise `zlib.error`.
variable (decompress : List UInt8 → Option (List UInt8))

/-- The body as it is, when it was not compressed. -/
def decompressBody (compressedLength uncompressedLength : ℕ) (body : List UInt8) :
    Except Exn (List UInt8) :=
  if compressedLength = uncompressedLength then .ok body
  else match decompress body with
    | some decoded => .ok decoded
    | none => .error (protocolError "invalid compressed response")

/-- `decode_response(header, body)` -/
def decodeResponse (header body : List UInt8) : Except Exn (List UInt8) := do
  check (header.length = 16) (protocolError "invalid response header")
  let compressedLength := unpackH (header.drop 12)
  let uncompressedLength := unpackH (header.drop 14)
  check (compressedLength ≤ maxResponseBytes ∧ uncompressedLength ≤ maxResponseBytes)
    (protocolError "response exceeds safe size")
  check (body.length = compressedLength) (protocolError "truncated response body")
  let decoded ← decompressBody decompress compressedLength uncompressedLength body
  check (decoded.length = uncompressedLength) (protocolError "response length mismatch")
  return decoded

/-! ## Connections -/

/-- A connection as both ends know it. Only the socket is known to the pool. -/
structure Connection where
  /-- What the server has sent or is going to send and was not read. -/
  unread : List UInt8
  /-- The requests the server received and the responses it sent to them. -/
  exchanges : List (List UInt8 × Frame)
  /-- The setup payloads of the request that opened the connection. -/
  setup : List (List UInt8)

/-- Every response was read and decoded, and the setup came before everything else. -/
structure Connection.Ready (connection : Connection) : Prop where
  unread : connection.unread = []
  decoded : ∀ exchange ∈ connection.exchanges,
    ∃ body, decodeResponse decompress exchange.2.header exchange.2.body = .ok body
  setup : connection.setup <+: connection.exchanges.map Prod.fst

/-- The last thing that was sent is `payload`, and its answer decodes to `response`. -/
def Connection.Answered (connection : Connection) (payload response : List UInt8) : Prop :=
  ∃ exchanges frame, connection.exchanges = exchanges ++ [(payload, frame)] ∧
    decodeResponse decompress frame.header frame.body = .ok response

/-- What becomes of `sendall(request)`. -/
inductive SendOutcome where
  /-- The server receives the request and answers it. -/
  | sent (answer : Frame)
  /-- An `OSError`, after which the server may or may not have received the request. -/
  | failed (answer : Option Frame) (message : String)

/-- What becomes of `recv(size)`. -/
inductive ReceiveOutcome where
  /-- Some of the bytes that are there, at most so many. -/
  | chunk (length : ℕ)
  | closed
  | failed (message : String)

/-- What the network does at each step. -/
structure Network where
  connect : ℕ → Option String
  send : ℕ → SendOutcome
  receive : ℕ → ReceiveOutcome

def osError (message : String) : Exn := ⟨.osError, message⟩

/-- The steps taken on a connection, which the next one is counted from. -/
structure Line where
  tick : ℕ
  connection : Connection

variable (network : Network)

/-- `connection.sendall(request)` -/
def sendAll (request : List UInt8) : EStateM Exn Line Unit := fun line =>
  let received (answer : Frame) : Connection := { line.connection with
    unread := line.connection.unread ++ answer.bytes
    exchanges := line.connection.exchanges ++ [(request, answer)] }
  match network.send line.tick with
  | .sent answer => .ok () ⟨line.tick + 1, received answer⟩
  | .failed (some answer) message => .error (osError message) ⟨line.tick + 1, received answer⟩
  | .failed none message => .error (osError message) ⟨line.tick + 1, line.connection⟩

/-- `connection.recv(size)`, which waits until something is there. -/
def receive (size : ℕ) : EStateM Exn Line (List UInt8) := fun line =>
  match network.receive line.tick with
  | .chunk length =>
    let available := min size (max 1 length)
    if line.connection.unread = [] then
      .error (osError "timed out") ⟨line.tick + 1, line.connection⟩
    else .ok (line.connection.unread.take available) ⟨line.tick + 1, { line.connection with
      unread := line.connection.unread.drop available }⟩
  | .closed => .ok [] ⟨line.tick + 1, line.connection⟩
  | .failed message => .error (osError message) ⟨line.tick + 1, line.connection⟩

/-- `_recv_exact(connection, size)` with the chunks received so far. -/
def recvExact (size : ℕ) (chunks : List UInt8) : EStateM Exn Line (List UInt8) := fun line =>
  if chunks.length < size then
    match (receive network (size - chunks.length)).run line with
    | .error e line => .error e line
    | .ok chunk line =>
      if chunk = [] then .error (protocolError "truncated TDX response") line
      else (recvExact size (chunks ++ chunk)).run line
  else .ok chunks line
termination_by size - chunks.length
decreasing_by
  have : 0 < chunk.length := List.length_pos_of_ne_nil ‹_›
  simp only [List.length_append]
  omega

/-- One request of `_request_node` and its response. -/
def exchange (request : List UInt8) : EStateM Exn Line (List UInt8) := do
  sendAll network request
  let header ← recvExact network 16 []
  let body ← recvExact network (unpackH (header.drop 12)) []
  fromExcept (decodeResponse decompress header body)

/-- `requests` one after the other. The response is the last one. -/
def exchangeAll (response : List UInt8) : List (List UInt8) → EStateM Exn Line (List UInt8)
  | [] => return response
  | request :: requests => do
    let response ← exchange decompress network request
    exchangeAll response requests

/-! ## Nodes -/

/-- `TdxServer`, with the checks of its constructor. -/
structure TdxServer where
  host : String
  port : ℕ
  host_ne : host ≠ ""
  port_range : 1 ≤ port ∧ port ≤ 65535

/-- `_NodeState` -/
structure NodeState where
  server : TdxServer
  connection : Option Connection
  lastSuccessfulProbe : Option Instant
  lastFailedProbe : Option Instant
  consecutiveFailures : ℕ
  cooldownUntil : Option Instant
  successfulProbes : List String

/-- `_NodeState(server)` -/
def newNode (server : TdxServer) : NodeState :=
  ⟨server, none, none, none, 0, none, []⟩

/-- The node is left out at `now`. -/
def NodeState.CoolingDown (node : NodeState) (now : Instant) : Prop :=
  ∃ cooldownUntil ∈ node.cooldownUntil, now < cooldownUntil

instance (node : NodeState) (now : Instant) : Decidable (node.CoolingDown now) :=
  inferInstanceAs (Decidable (∃ cooldownUntil ∈ node.cooldownUntil, now < cooldownUntil))

/-- `isinstance(error, ValueError)` -/
def ExceptionClass.isValueError : ExceptionClass → Bool
  | .valueError | .tdxProtocolError | .tdxBlockParseError | .authenticationError
  | .unknownFactCodeError | .illegalLifecycleTransitionError => true
  | _ => false

/-- An `OSError`, a `TdxProtocolError` or a `TimeoutError` : what the steps on a connection
raise. -/
abbrev WireError (e : Exn) : Prop := e.cls = .osError ∨ e.cls = .tdxProtocolError

/-- What makes `request` go on to the next node. -/
abbrev Caught (e : Exn) : Prop := e.cls = .osError ∨ e.cls.isValueError = true

/-- A request to the pool. A validator raises nothing but value errors. -/
structure TdxRequest where
  payload : List UInt8
  probe : Bool
  probeName : Option String
  validator : Option (List UInt8 → Except Exn Unit)
  setupPayloads : List (List UInt8)
  validator_raises : ∀ validate ∈ validator, ∀ body e, validate body = .error e →
    e.cls.isValueError = true

/-- `if validator is not None: validator(response)` -/
def TdxRequest.validate (request : TdxRequest) (response : List UInt8) : Except Exn Unit :=
  match request.validator with
  | none => .ok ()
  | some validator => validator response

/-- A new connection, over which the setup and the payload are sent. -/
def requestNew (request : TdxRequest) (node : NodeState) (tick : ℕ) :
    Except Exn (List UInt8) × NodeState × ℕ :=
  match network.connect tick with
  | some message => (.error (osError message), node, tick + 1)
  | none =>
    match (exchangeAll decompress network [] (request.setupPayloads ++ [request.payload])).run
      ⟨tick + 1, [], [], request.setupPayloads⟩ with
    | .ok response line =>
      (.ok response, { node with connection := some line.connection }, line.tick)
    | .error e line => (.error e, { node with connection := some line.connection }, line.tick)

/-- `_close_node_connection(node)` -/
def NodeState.closed (node : NodeState) : NodeState := { node with connection := none }

/-- `_request_node(node, payload, setup_payloads)` -/
def requestNode (request : TdxRequest) (node : NodeState) (tick : ℕ) :
    Except Exn (List UInt8) × NodeState × ℕ :=
  match node.connection with
  | none => requestNew decompress network request node tick
  | some connection =>
    match (exchangeAll decompress network [] [request.payload]).run ⟨tick, connection⟩ with
    | .ok response line =>
      (.ok response, { node with connection := some line.connection }, line.tick)
    | .error e line =>
      -- A kept connection may be stale, so the request is made once more on a new one.
      if WireError e then
        requestNew decompress network request node.closed line.tick
      else (.error e, { node with connection := some line.connection }, line.tick)

/-- `_request_node`, and the validator on what it returns. -/
def serve (request : TdxRequest) (node : NodeState) (tick : ℕ) :
    Except Exn (List UInt8) × NodeState × ℕ :=
  match requestNode decompress network request node tick with
  | (.error e, node, tick) => (.error e, node, tick)
  | (.ok response, node, tick) =>
    (do request.validate response; return response, node, tick)

/-! ## The pool -/

/-- `TdxPoolStatistics` -/
structure TdxPoolStatistics where
  requests : ℕ
  failedAttempts : ℕ
  failovers : ℕ
  recoveries : ℕ

/-- The pool, and how many steps the network has taken. -/
structure TdxServerPool where
  nodes : List NodeState
  statistics : TdxPoolStatistics
  lastServer : Option TdxServer
  tick : ℕ

def transportError (message : String) : Exn := ⟨.tdxTransportError, message⟩

def seconds (n : ℕ) : ℕ := n * microsPerSecond

-- `cooldown_seconds`
variable (cooldownSeconds : ℕ)

/-- The node that `_record_failure(node, observed_at)` leaves, after its connection was
closed. -/
def NodeState.failed (node : NodeState) (observedAt : Instant) : NodeState := { node with
  connection := none
  consecutiveFailures := node.consecutiveFailures + 1
  successfulProbes := []
  lastFailedProbe := some observedAt
  cooldownUntil := some (observedAt + seconds cooldownSeconds) }

/-- The node whose response was accepted. -/
def NodeState.accepted (node : NodeState) (request : TdxRequest) (now : Instant) : NodeState :=
  { node with
    consecutiveFailures := 0
    cooldownUntil := none
    lastSuccessfulProbe := if request.probe ∨ request.probeName.isSome then some now
      else node.lastSuccessfulProbe
    successfulProbes := match request.probeName with
      | none => node.successfulProbes
      | some name => node.successfulProbes.insert name }

/-- `{host}:{port}: {error}` -/
def failureText (node : NodeState) (error : Exn) : String :=
  node.server.host ++ ":" ++ toString node.server.port ++ ": " ++ error.message

/-- `"; ".join(errors) or "all nodes are in cooldown"` -/
def failureDetail (errors : List String) : String :=
  let joined := "; ".intercalate errors
  if joined = "" then "all nodes are in cooldown" else joined

/-- The loop over the remaining nodes. -/
def tryNodes (request : TdxRequest) (now : Instant) (errors : List String) :
    List NodeState → TdxServerPool → Except Exn (List UInt8) × TdxServerPool
  | [], pool =>
    (.error (transportError ("no TDX node accepted request: " ++ failureDetail errors)), pool)
  | node :: nodes, pool =>
    if node.CoolingDown now then
      tryNodes request now errors nodes { pool with nodes := pool.nodes ++ [node] }
    else
      match serve decompress network request node pool.tick with
      | (.error e, left, tick) =>
        if Caught e then
          tryNodes request now (errors ++ [failureText node e]) nodes { pool with
            nodes := pool.nodes ++ [left.failed cooldownSeconds now]
            statistics := { pool.statistics with
              failedAttempts := pool.statistics.failedAttempts + 1 }
            tick }
        else (.error e, { pool with nodes := pool.nodes ++ left :: nodes, tick })
      | (.ok response, left, tick) =>
        (.ok response, { pool with
          nodes := pool.nodes ++ left.accepted request now :: nodes
          statistics := { pool.statistics with
            recoveries := pool.statistics.recoveries +
              if left.consecutiveFailures = 0 then 0 else 1
            failovers := pool.statistics.failovers + if errors = [] then 0 else 1 }
          lastServer := some left.server
          tick })

/-- The check of the arguments of `request`. -/
def checkRequest (request : TdxRequest) : Except Exn Unit := do
  check (request.payload ≠ []) (transportError "TDX request payload must not be empty")
  check (∀ setup ∈ request.setupPayloads, setup ≠ [])
    (transportError "TDX setup payload must not be empty")
  check (∀ name ∈ request.probeName, ¬blank name)
    (transportError "TDX probe name must not be empty")

/-- The pool whose nodes are all still to be tried. -/
def TdxServerPool.begun (pool : TdxServerPool) : TdxServerPool := { pool with
  nodes := []
  statistics := { pool.statistics with requests := pool.statistics.requests + 1 } }

/-- `request(payload, …)` when the clock says `now`. -/
def TdxServerPool.request (pool : TdxServerPool) (request : TdxRequest) (now : Instant) :
    Except Exn (List UInt8) × TdxServerPool :=
  match checkRequest request with
  | .error e => (.error e, pool)
  | .ok () => tryNodes decompress network cooldownSeconds request now [] pool.nodes pool.begun

/-- `TdxServerPool(servers, protocol, …)` -/
def newPool (servers : List TdxServer) : TdxServerPool :=
  ⟨servers.map newNode, ⟨0, 0, 0, 0⟩, none, 0⟩

/-- The pool after some requests, each at what the clock said. -/
def TdxServerPool.after (pool : TdxServerPool) (requests : List (TdxRequest × Instant)) :
    TdxServerPool :=
  requests.foldl
    (fun pool call => (pool.request decompress network cooldownSeconds call.1 call.2).2) pool

/-! ## What a connection is left with -/

section Steps

variable {decompress network cooldownSeconds} {request : TdxRequest} {now : Instant}
  {node left : NodeState} {line line' : Line} {tick tick' : ℕ} {e : Exn}

theorem wireError_of_check {p : Prop} [Decidable p] {message : String}
    (h : check p (protocolError message) = .error e) : WireError e := by
  obtain ⟨-, rfl⟩ := check_eq_error.mp h
  exact .inr rfl

theorem wireError_of_decompressBody {n m : ℕ} {body : List UInt8}
    (h : decompressBody decompress n m body = .error e) : WireError e := by
  unfold decompressBody at h
  split at h
  · cases h
  · split at h
    · cases h
    · cases h
      exact .inr rfl

/-- A response that is not decoded is an error of the wire. -/
theorem wireError_of_decodeResponse {header body : List UInt8}
    (h : decodeResponse decompress header body = .error e) : WireError e := by
  unfold decodeResponse at h
  obtain h | ⟨-, -, h⟩ := except_bind_eq_error.mp h
  · exact wireError_of_check h
  obtain h | ⟨-, -, h⟩ := except_bind_eq_error.mp h
  · exact wireError_of_check h
  obtain h | ⟨-, -, h⟩ := except_bind_eq_error.mp h
  · exact wireError_of_check h
  obtain h | ⟨decoded, -, h⟩ := except_bind_eq_error.mp h
  · exact wireError_of_decompressBody h
  obtain h | ⟨-, -, h⟩ := except_bind_eq_error.mp h
  · exact wireError_of_check h
  · cases h

/-- A chunk is taken from the front of what is unread. -/
theorem run_receive_ok {size : ℕ} {chunk : List UInt8}
    (h : (receive network size).run line = .ok chunk line') :
    ∃ rest, line.connection.unread = chunk ++ rest ∧ chunk.length ≤ size ∧
      line'.connection = { line.connection with unread := rest } := by
  unfold receive EStateM.run at h
  cases hreceive : network.receive line.tick with
  | chunk length =>
    simp only [hreceive] at h
    split at h
    · cases h
    · cases h
      exact ⟨_, (List.take_append_drop ..).symm,
        (List.length_take_le ..).trans (Nat.min_le_left ..), rfl⟩
  | closed =>
    simp only [hreceive] at h
    cases h
    exact ⟨_, rfl, Nat.zero_le _, rfl⟩
  | failed message =>
    simp only [hreceive] at h
    cases h

/-- So is one that is not received. -/
theorem run_receive_error {size : ℕ} (h : (receive network size).run line = .error e line') :
    WireError e := by
  unfold receive EStateM.run at h
  cases hreceive : network.receive line.tick with
  | chunk length =>
    simp only [hreceive] at h
    split at h
    · cases h
      exact .inl rfl
    · cases h
  | closed =>
    simp only [hreceive] at h
    cases h
  | failed message =>
    simp only [hreceive] at h
    cases h
    exact .inl rfl

/-- The bytes that were asked for are taken from the front of what is unread. -/
theorem run_recvExact_ok {size : ℕ} {chunks bytes : List UInt8} (hsize : chunks.length ≤ size)
    (h : (recvExact network size chunks).run line = .ok bytes line') :
    ∃ taken rest, bytes = chunks ++ taken ∧ bytes.length = size ∧
      line.connection.unread = taken ++ rest ∧
      line'.connection = { line.connection with unread := rest } := by
  unfold EStateM.run at h
  fun_induction recvExact network size chunks line with
  | case1 chunks line hlt e middle hreceive => cases h
  | case2 chunks line hlt middle hreceive => cases h
  | case3 chunks line hlt chunk middle hreceive hchunk ih =>
    obtain ⟨rest, hunread, hlength, hmiddle⟩ := run_receive_ok hreceive
    have hle : (chunks ++ chunk).length ≤ size := by
      rw [List.length_append]
      omega
    obtain ⟨taken, rest', hbytes, hsize', hunread', hline'⟩ := ih middle hle h
    rw [hmiddle] at hunread' hline'
    refine ⟨chunk ++ taken, rest', ?_, hsize', ?_, hline'⟩
    · rw [hbytes, List.append_assoc]
    · rw [hunread, show rest = taken ++ rest' from hunread', List.append_assoc]
  | case4 chunks line hlt =>
    cases h
    exact ⟨[], _, (List.append_nil _).symm, by omega, rfl, rfl⟩

/-- So is one that ends early. -/
theorem run_recvExact_error {size : ℕ} {chunks : List UInt8}
    (h : (recvExact network size chunks).run line = .error e line') : WireError e := by
  unfold EStateM.run at h
  fun_induction recvExact network size chunks line with
  | case1 chunks line hlt e middle hreceive =>
    cases h
    exact run_receive_error hreceive
  | case2 chunks line hlt middle hreceive =>
    cases h
    exact .inr rfl
  | case3 chunks line hlt chunk middle hreceive hchunk ih => exact ih middle h
  | case4 chunks line hlt => cases h

/-- A request that is sent is answered by one frame. -/
theorem run_sendAll_ok {payload : List UInt8} {u : Unit}
    (h : (sendAll network payload).run line = .ok u line') :
    ∃ frame : Frame, line'.connection = { line.connection with
      unread := line.connection.unread ++ frame.bytes
      exchanges := line.connection.exchanges ++ [(payload, frame)] } := by
  unfold sendAll EStateM.run at h
  cases hsend : network.send line.tick with
  | sent answer =>
    simp only [hsend] at h
    cases h
    exact ⟨answer, rfl⟩
  | failed answer message =>
    cases answer <;> simp only [hsend] at h <;> cases h

theorem run_sendAll_error {payload : List UInt8}
    (h : (sendAll network payload).run line = .error e line') : WireError e := by
  unfold sendAll EStateM.run at h
  cases hsend : network.send line.tick with
  | sent answer =>
    simp only [hsend] at h
    cases h
  | failed answer message =>
    cases answer <;> simp only [hsend] at h <;> cases h <;> exact .inl rfl

/-- A connection on which everything was read is left so by an exchange, and the response is
what the server answered to the request. -/
theorem run_exchange_ok {payload response : List UInt8} (hunread : line.connection.unread = [])
    (h : (exchange decompress network payload).run line = .ok response line') :
    ∃ frame : Frame, decodeResponse decompress frame.header frame.body = .ok response ∧
      line'.connection = { line.connection with
        exchanges := line.connection.exchanges ++ [(payload, frame)] } := by
  obtain ⟨_, line₁, hsend, h⟩ := run_bind_eq_ok.mp h
  obtain ⟨header, line₂, hheader, h⟩ := run_bind_eq_ok.mp h
  obtain ⟨body, line₃, hbody, h⟩ := run_bind_eq_ok.mp h
  obtain ⟨hdecode, rfl⟩ := run_fromExcept_eq_ok.mp h
  obtain ⟨frame, hline₁⟩ := run_sendAll_ok hsend
  obtain ⟨taken, rest, rfl, hlength, htaken, hline₂⟩ := run_recvExact_ok (Nat.zero_le 16) hheader
  obtain ⟨taken', rest', rfl, hlength', htaken', hline₃⟩ :=
    run_recvExact_ok (Nat.zero_le _) hbody
  rw [hline₁, hunread, List.nil_append] at htaken
  obtain ⟨rfl, rfl⟩ := List.append_inj htaken (frame.header_length.trans hlength.symm)
  rw [hline₂] at htaken'
  have hall : frame.body ++ [] = body ++ rest' := (List.append_nil _).trans htaken'
  obtain ⟨rfl, hrest⟩ := List.append_inj hall (frame.body_length.trans hlength'.symm)
  refine ⟨frame, hdecode, ?_⟩
  rw [hline₃, hline₂, hline₁, ← hrest, ← hunread]

theorem run_exchange_error {payload : List UInt8}
    (h : (exchange decompress network payload).run line = .error e line') : WireError e := by
  obtain h | ⟨_, line₁, -, h⟩ := run_bind_eq_error.mp h
  · exact run_sendAll_error h
  obtain h | ⟨header, line₂, -, h⟩ := run_bind_eq_error.mp h
  · exact run_recvExact_error h
  obtain h | ⟨body, line₃, -, h⟩ := run_bind_eq_error.mp h
  · exact run_recvExact_error h
  · exact wireError_of_decodeResponse (run_fromExcept_eq_error.mp h).1

theorem exchangeAll_append (response : List UInt8) (payloads payloads' : List (List UInt8)) :
    exchangeAll decompress network response (payloads ++ payloads') =
      exchangeAll decompress network response payloads >>=
        fun response => exchangeAll decompress network response payloads' := by
  induction payloads generalizing response with
  | nil => simp only [exchangeAll, List.nil_append, pure_bind]
  | cons payload payloads ih =>
    simp only [exchangeAll, List.cons_append, bind_assoc, ih]

theorem run_exchangeAll_error {payloads : List (List UInt8)} {response : List UInt8}
    (h : (exchangeAll decompress network response payloads).run line = .error e line') :
    WireError e := by
  induction payloads generalizing response line with
  | nil => cases h
  | cons payload payloads ih =>
    obtain h | ⟨response', line₁, -, h⟩ := run_bind_eq_error.mp h
    · exact run_exchange_error h
    · exact ih h

/-- Every request is answered by one exchange. -/
theorem run_exchangeAll_ok {payloads : List (List UInt8)} {response response' : List UInt8}
    (hunread : line.connection.unread = [])
    (h : (exchangeAll decompress network response payloads).run line = .ok response' line') :
    ∃ exchanges, exchanges.map Prod.fst = payloads ∧
      (∀ exchange ∈ exchanges, ∃ body,
        decodeResponse decompress exchange.2.header exchange.2.body = .ok body) ∧
      line'.connection = { line.connection with
        exchanges := line.connection.exchanges ++ exchanges } := by
  induction payloads generalizing response line with
  | nil =>
    cases h
    exact ⟨[], rfl, by simp, by simp⟩
  | cons payload payloads ih =>
    obtain ⟨middle, line₁, hexchange, h⟩ := run_bind_eq_ok.mp h
    obtain ⟨frame, hdecode, hline₁⟩ := run_exchange_ok hunread hexchange
    obtain ⟨exchanges, hmap, hdecoded, hline'⟩ := ih (by rw [hline₁]; exact hunread) h
    refine ⟨(payload, frame) :: exchanges, ?_, ?_, ?_⟩
    · rw [List.map_cons, hmap]
    · exact List.forall_mem_cons.mpr ⟨⟨middle, hdecode⟩, hdecoded⟩
    · rw [hline', hline₁]
      simp only [List.append_assoc, List.cons_append, List.nil_append]

/-- A connection stays ready after answered requests. -/
theorem connection_ready_append {connection : Connection} {exchanges : List (List UInt8 × Frame)}
    (h : connection.Ready decompress)
    (hdecoded : ∀ exchange ∈ exchanges, ∃ body,
      decodeResponse decompress exchange.2.header exchange.2.body = .ok body) :
    Connection.Ready decompress { connection with
      exchanges := connection.exchanges ++ exchanges } where
  unread := h.unread
  decoded exchange hmem := (List.mem_append.mp hmem).elim (h.decoded exchange) (hdecoded exchange)
  setup := by
    rw [List.map_append]
    exact h.setup.trans (List.prefix_append ..)

/-- A payload on a connection that is ready is answered, and leaves it ready. -/
theorem run_payload_ok {payload response response' : List UInt8}
    (hready : line.connection.Ready decompress)
    (h : (exchangeAll decompress network response [payload]).run line = .ok response' line') :
    line'.connection.Ready decompress ∧ line'.connection.Answered decompress payload response' ∧
      line'.connection.setup = line.connection.setup := by
  obtain ⟨answer, line₁, hexchange, h⟩ := run_bind_eq_ok.mp h
  obtain ⟨rfl, rfl⟩ := run_pure_eq_ok.mp h
  obtain ⟨frame, hdecode, hline'⟩ := run_exchange_ok hready.unread hexchange
  rw [hline']
  refine ⟨connection_ready_append hready ?_, ⟨_, frame, rfl, hdecode⟩, rfl⟩
  intro exchange hmem
  rw [List.mem_singleton] at hmem
  subst hmem
  exact ⟨answer, hdecode⟩

/-- The setup and a payload on a new connection. -/
theorem run_setup_ok {setup : List (List UInt8)} {payload response' : List UInt8}
    (h : (exchangeAll decompress network [] (setup ++ [payload])).run ⟨tick, [], [], setup⟩ =
      .ok response' line') :
    line'.connection.Ready decompress ∧ line'.connection.Answered decompress payload response' ∧
      line'.connection.setup = setup := by
  rw [exchangeAll_append] at h
  obtain ⟨response, line₁, hsetup, h⟩ := run_bind_eq_ok.mp h
  obtain ⟨exchanges, hmap, hdecoded, hline₁⟩ := run_exchangeAll_ok rfl hsetup
  have hready : line₁.connection.Ready decompress := by
    rw [hline₁]
    refine ⟨rfl, hdecoded, ?_⟩
    exact hmap.symm ▸ List.prefix_rfl
  obtain ⟨hready', hanswered, hsetup'⟩ := run_payload_ok hready h
  exact ⟨hready', hanswered, hsetup'.trans (by rw [hline₁])⟩

/-! ## What a node is left with -/

/-- The connection of a node that has kept one. -/
def NodeState.Keeps (node : NodeState) (P : Connection → Prop) : Prop :=
  ∀ connection ∈ node.connection, P connection

theorem requestNew_error (h : requestNew decompress network request node tick =
    (.error e, left, tick')) : WireError e ∧ ∃ connection, left = { node with connection } := by
  unfold requestNew at h
  split at h
  · cases h
    exact ⟨.inl rfl, _, rfl⟩
  · split at h
    · cases h
    · cases h
      exact ⟨run_exchangeAll_error ‹_›, _, rfl⟩

/-- A new connection that answers is kept, and ready. -/
theorem requestNew_ok {response : List UInt8} (h : requestNew decompress network request node tick =
    (.ok response, left, tick')) : ∃ connection : Connection,
    left = { node with connection := some connection } ∧ connection.Ready decompress ∧
      connection.Answered decompress request.payload response ∧
      connection.setup = request.setupPayloads := by
  unfold requestNew at h
  split at h
  · cases h
  · split at h
    · cases h
      exact ⟨_, rfl, run_setup_ok ‹_›⟩
    · cases h

/-- A node that does not answer fails on the wire. -/
theorem requestNode_error (h : requestNode decompress network request node tick =
    (.error e, left, tick')) : WireError e ∧ ∃ connection, left = { node with connection } := by
  unfold requestNode at h
  split at h
  · exact requestNew_error h
  · split at h
    · cases h
    · have hwire := run_exchangeAll_error ‹_›
      rw [if_pos hwire] at h
      obtain ⟨hwire', connection, hleft⟩ := requestNew_error h
      exact ⟨hwire', connection, hleft⟩

/-- The connection a response came over was kept or is new, and it is ready again. -/
theorem requestNode_ok {response : List UInt8}
    (hready : node.Keeps fun connection => connection.Ready decompress)
    (h : requestNode decompress network request node tick = (.ok response, left, tick')) :
    ∃ connection : Connection, left = { node with connection := some connection } ∧
      connection.Ready decompress ∧ connection.Answered decompress request.payload response ∧
      (connection.setup = request.setupPayloads ∨
        ∃ kept ∈ node.connection, connection.setup = kept.setup) := by
  unfold requestNode at h
  split at h
  · obtain ⟨connection, hleft, hready', hanswered, hsetup⟩ := requestNew_ok h
    exact ⟨connection, hleft, hready', hanswered, .inl hsetup⟩
  · rename_i kept hkept
    split at h
    · cases h
      obtain ⟨hready', hanswered, hsetup⟩ := run_payload_ok (hready kept hkept) ‹_›
      exact ⟨_, rfl, hready', hanswered, .inr ⟨kept, hkept, hsetup⟩⟩
    · have hwire := run_exchangeAll_error ‹_›
      rw [if_pos hwire] at h
      obtain ⟨connection, hleft, hready', hanswered, hsetup⟩ := requestNew_ok h
      exact ⟨connection, hleft, hready', hanswered, .inl hsetup⟩

theorem caught_of_wireError (h : WireError e) : Caught e := by
  rcases h with h | h
  · exact .inl h
  · refine .inr ?_
    rw [h]
    rfl

theorem caught_of_validate {response : List UInt8} (h : request.validate response = .error e) :
    Caught e := by
  unfold TdxRequest.validate at h
  split at h
  · cases h
  · exact .inr (request.validator_raises _ ‹_› _ _ h)

/-- A node that does not serve raises what the pool catches. -/
theorem serve_error (hready : node.Keeps fun connection => connection.Ready decompress)
    (h : serve decompress network request node tick = (.error e, left, tick')) :
    Caught e ∧ ∃ connection, left = { node with connection } := by
  unfold serve at h
  split at h
  · cases h
    obtain ⟨hwire, hleft⟩ := requestNode_error ‹_›
    exact ⟨caught_of_wireError hwire, hleft⟩
  · rename_i response left₁ tick₁ hnode
    obtain ⟨hvalidate, hrest⟩ := Prod.mk.inj h
    cases hrest
    obtain ⟨connection, hleft, -⟩ := requestNode_ok hready hnode
    obtain hrefused | ⟨u, -, hreturn⟩ := except_bind_eq_error.mp hvalidate
    · exact ⟨caught_of_validate hrefused, _, hleft⟩
    · cases hreturn

/-- A node that serves has a valid response, on a ready connection. -/
theorem serve_ok {response : List UInt8}
    (hready : node.Keeps fun connection => connection.Ready decompress)
    (h : serve decompress network request node tick = (.ok response, left, tick')) :
    request.validate response = .ok () ∧
      ∃ connection : Connection, left = { node with connection := some connection } ∧
      connection.Ready decompress ∧ connection.Answered decompress request.payload response ∧
      (connection.setup = request.setupPayloads ∨
        ∃ kept ∈ node.connection, connection.setup = kept.setup) := by
  unfold serve at h
  split at h
  · cases h
  · rename_i response left₁ tick₁ hnode
    obtain ⟨hvalidate, hrest⟩ := Prod.mk.inj h
    cases hrest
    obtain ⟨u, haccepts, hresponse⟩ := except_bind_eq_ok.mp hvalidate
    cases hresponse
    exact ⟨haccepts, requestNode_ok hready hnode⟩

end Steps

/-! ## What a request does -/

variable (request : TdxRequest) (now : Instant)

/-- How the nodes are tried one after the other, from a step of the network on : what becomes
of each of them, and the response that was accepted, if there was one. -/
inductive Tried : ℕ → List NodeState → List NodeState → Option (List UInt8) → Prop where
  | none (tick : ℕ) : Tried tick [] [] none
  | skipped {tick node nodes nodes' response} (cooling : node.CoolingDown now)
      (rest : Tried tick nodes nodes' response) :
      Tried tick (node :: nodes) (node :: nodes') response
  | failed {tick node nodes nodes' response e left tick'} (ready : ¬node.CoolingDown now)
      (failure : serve decompress network request node tick = (.error e, left, tick'))
      (rest : Tried tick' nodes nodes' response) :
      Tried tick (node :: nodes) (node.failed cooldownSeconds now :: nodes') response
  | accepted {tick node nodes response connection left tick'} (ready : ¬node.CoolingDown now)
      (success : serve decompress network request node tick = (.ok response, left, tick'))
      (validated : request.validate response = .ok ())
      (answered : connection.Answered decompress request.payload response) :
      Tried tick (node :: nodes)
        (({ node with connection := some connection } : NodeState).accepted request now :: nodes)
        (some response)

/-- The connections the nodes have kept are ready, and each was set up with one of `setups`. -/
def Kept (setups : List (List (List UInt8))) (nodes : List NodeState) : Prop :=
  ∀ node ∈ nodes, node.Keeps fun connection =>
    connection.Ready decompress ∧ connection.setup ∈ setups

section Requests

variable {decompress request}

/-- What the trial of the nodes comes to. -/
theorem tryNodes_tried {setups : List (List (List UInt8))} {nodes : List NodeState}
    (errors : List String) (pool : TdxServerPool) (hkept : Kept decompress setups nodes)
    (hsetup : request.setupPayloads ∈ setups) :
    let result := tryNodes decompress network cooldownSeconds request now errors nodes pool
    ∃ nodes', result.2.nodes = pool.nodes ++ nodes' ∧ Kept decompress setups nodes' ∧
      Tried decompress network cooldownSeconds request now pool.tick nodes nodes'
        result.1.toOption ∧ ∀ e, result.1 = .error e → e.cls = .tdxTransportError := by
  induction nodes generalizing errors pool with
  | nil =>
    refine ⟨[], (List.append_nil _).symm, by simp [Kept], Tried.none _, ?_⟩
    intro e he
    cases he
    rfl
  | cons node nodes ih =>
    obtain ⟨hnode, hnodes⟩ := List.forall_mem_cons.mp hkept
    have hready : node.Keeps fun connection => connection.Ready decompress :=
      fun connection hmem => (hnode connection hmem).1
    by_cases hcooling : node.CoolingDown now
    · rw [tryNodes, if_pos hcooling]
      obtain ⟨nodes', hresult, hkept', htried, herror⟩ := ih _ _ hnodes
      refine ⟨node :: nodes', ?_, List.forall_mem_cons.mpr ⟨hnode, hkept'⟩,
        Tried.skipped hcooling htried, herror⟩
      exact hresult.trans (List.append_assoc ..)
    · rw [tryNodes, if_neg hcooling]
      cases hserve : serve decompress network request node pool.tick with
      | mk answer rest =>
        obtain ⟨left, tick⟩ := rest
        cases answer with
        | error e =>
          obtain ⟨hcaught, connection, rfl⟩ := serve_error hready hserve
          simp only [if_pos hcaught]
          obtain ⟨nodes', hresult, hkept', htried, herror⟩ := ih _ _ hnodes
          refine ⟨node.failed cooldownSeconds now :: nodes', ?_,
            List.forall_mem_cons.mpr ⟨?_, hkept'⟩, Tried.failed hcooling hserve htried, herror⟩
          · exact hresult.trans (List.append_assoc ..)
          · intro kept hmem
            cases hmem
        | ok response =>
          obtain ⟨hvalidated, connection, rfl, hready', hanswered, hsetup'⟩ :=
            serve_ok hready hserve
          refine ⟨_, rfl, List.forall_mem_cons.mpr ⟨?_, hnodes⟩,
            Tried.accepted hcooling hserve hvalidated hanswered, ?_⟩
          · intro kept hmem
            cases hmem
            refine ⟨hready', ?_⟩
            rcases hsetup' with h | ⟨kept, hmem, h⟩
            · exact h ▸ hsetup
            · exact h ▸ (hnode kept hmem).2
          · intro e he
            cases he

theorem kept_mono {setups setups' : List (List (List UInt8))} {nodes : List NodeState}
    (h : Kept decompress setups nodes) (hsubset : setups ⊆ setups') :
    Kept decompress setups' nodes :=
  fun node hnode connection hmem =>
    ⟨(h node hnode connection hmem).1, hsubset (h node hnode connection hmem).2⟩

end Requests

/-- What a request that the pool is asked for now does, when the pool was asked for others
before. -/
structure Requested (setups : List (List (List UInt8))) (before : TdxServerPool)
    (result : Except Exn (List UInt8) × TdxServerPool) : Prop where
  /-- Every connection that is kept is ready for the next request. -/
  kept : Kept decompress setups result.2.nodes
  /-- Without a payload, with an empty setup payload or with a blank name, no node is tried. -/
  refused : ∀ e, checkRequest request = .error e → result = (.error e, before)
  /-- Otherwise the nodes are tried in order until one is accepted. -/
  tried : checkRequest request = .ok () →
    Tried decompress network cooldownSeconds request now before.tick before.nodes result.2.nodes
      result.1.toOption
  raises : ∀ e, result.1 = .error e → e.cls = .tdxTransportError

variable {decompress network cooldownSeconds request now}

/-- A malformed request is a transport error. -/
theorem checkRequest_error {e : Exn} (h : checkRequest request = .error e) :
    e.cls = .tdxTransportError := by
  unfold checkRequest at h
  obtain h | ⟨-, -, h⟩ := except_bind_eq_error.mp h
  · obtain ⟨-, rfl⟩ := check_eq_error.mp h
    rfl
  obtain h | ⟨-, -, h⟩ := except_bind_eq_error.mp h
  · obtain ⟨-, rfl⟩ := check_eq_error.mp h
    rfl
  · obtain ⟨-, rfl⟩ := check_eq_error.mp h
    rfl

/-- What a request comes to. -/
theorem request_requested {setups : List (List (List UInt8))} {pool : TdxServerPool}
    (hkept : Kept decompress setups pool.nodes) :
    Requested decompress network cooldownSeconds request now (setups ++ [request.setupPayloads])
      pool (pool.request decompress network cooldownSeconds request now) := by
  have hkept' : Kept decompress (setups ++ [request.setupPayloads]) pool.nodes :=
    kept_mono hkept (List.subset_append_left ..)
  unfold TdxServerPool.request
  cases hcheck : checkRequest request with
  | error e =>
    refine ⟨hkept', ?_, ?_, ?_⟩
    · intro e' he'
      cases hcheck.symm.trans he'
      rfl
    · intro hok
      cases hcheck.symm.trans hok
    · intro e' he'
      cases he'
      exact checkRequest_error hcheck
  | ok _ =>
    obtain ⟨nodes', hresult, hleft, htried, herror⟩ := tryNodes_tried network cooldownSeconds
      now [] pool.begun hkept' (List.mem_append_right _ (List.mem_singleton.mpr rfl))
    change _ = nodes' at hresult
    refine ⟨hresult ▸ hleft, ?_, fun _ => hresult ▸ htried, herror⟩
    intro e he
    cases hcheck.symm.trans he

theorem after_append (pool : TdxServerPool) (calls : List (TdxRequest × Instant))
    (call : TdxRequest × Instant) :
    pool.after decompress network cooldownSeconds (calls ++ [call]) =
      ((pool.after decompress network cooldownSeconds calls).request decompress network
        cooldownSeconds call.1 call.2).2 := by
  rw [TdxServerPool.after, List.foldl_append]
  rfl

/-- After any requests the connections are those of their setups. -/
theorem kept_after (servers : List TdxServer) (calls : List (TdxRequest × Instant)) :
    Kept decompress (calls.map fun call => call.1.setupPayloads)
      ((newPool servers).after decompress network cooldownSeconds calls).nodes := by
  induction calls using List.reverseRecOn with
  | nil =>
    intro node hnode connection hmem
    obtain ⟨server, -, rfl⟩ := List.mem_map.mp hnode
    cases hmem
  | append_singleton calls call ih =>
    rw [after_append, List.map_append]
    exact (request_requested ih).kept

/-- After any requests, the next one tries the nodes in order, its response is the answer to
its payload, and the connections that are kept are ready. -/
theorem requests_answered (servers : List TdxServer) (calls : List (TdxRequest × Instant))
    (request : TdxRequest) (now : Instant) :
    let pool := (newPool servers).after decompress network cooldownSeconds calls
    Requested decompress network cooldownSeconds request now
      ((calls ++ [(request, now)]).map fun call => call.1.setupPayloads) pool
      (pool.request decompress network cooldownSeconds request now) := by
  intro pool
  rw [List.map_append]
  exact request_requested (kept_after servers calls)

end Pool

end MarketMonitor
