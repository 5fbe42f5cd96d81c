import NgxAnytls.Uot

/-! The upstream multiplexer: client payload and FIN, ready sockets, resolver answers
(`ngx_anytls_upstream_mux.c`). -/

namespace NgxAnytls

def scheduleFrameBudget : Nat := 32
def scheduleByteBudget : Nat := 2 ^ 64 - 1
def scheduleStreamBudget : Nat := 16

def deferShutdown (h : Handle) (ac : Connection) : Connection :=
  ac.upd h fun st => { st with pendingShutdown := true }

/-- The half-close of `ngx_anytls_upstream_mux_handle_client_fin` once the backlog was tried. -/
def halfClose (h : Handle) (ac : Connection) : Connection :=
  if (ac.streams h).pendingIn = [] then setState h .halfClosed (ac.log (.upShutdown h))
  else deferShutdown h (setState h .halfClosed ac)

/-- `ngx_anytls_upstream_mux_handle_client_fin`. -/
def handleClientFin (k : Callbacks) (h : Handle) (ac : Connection) : Connection :=
  let ac := markClosedByProtocol h ac
  if (ac.streams h).upstreamType = .uot then streamClose k h (uotClose h ac)
  else if (ac.streams h).upstream.isSome ∧ (ac.streams h).state = .connected then
    let r := sendPending k h sendUnlimited ac
    if r.1 = .error then streamClose k h r.2.2 else halfClose h r.2.2
  else streamClose k h ac

/-- `ngx_anytls_upstream_mux_handle_client_payload`. -/
def handleClientPayload (k : Callbacks) (h : Handle) (data : Bytes) (ac : Connection) :
    Rc × Connection :=
  if (ac.streams h).upstreamType = .uot then uotClientPayload k h data ac
  else upstreamQueue k h data ac

/-- `ngx_anytls_upstream_open`: the state is set even when the answer came at once. -/
def upstreamOpen (k : Callbacks) (h : Handle) (addr : Addr) (ac : Connection) :
    Rc × Connection :=
  let r := resolveAddr k h .tcp (setTarget h addr ac)
  match r.1 with
  | .again => (.ok, setState h .connecting (r.2.log (.opening h (r.2.streams h).state)))
  | .error => (.error, r.2)
  | .ok => openResolved k h r.2

/-- `uot-limit`. -/
def uotLimitText : Bytes := [117, 111, 116, 45, 108, 105, 109, 105, 116]

/-- `ngx_anytls_upstream_mux_handle_first_psh`. -/
def handleFirstPsh (k : Callbacks) (h : Handle) (addr : Addr) (payload : Bytes)
    (ac : Connection) : Rc × Connection :=
  if addr.mode = .tcp then
    if payload = [] then upstreamOpen k h addr ac
    else
      let r := upstreamQueue k h payload ac
      if r.1 ≠ .ok then (.error, r.2)
      else if (r.2.streams h).state = .closing ∨ (r.2.streams h).state = .closed then (.ok, r.2)
      else upstreamOpen k h addr r.2
  else
    let r := uotOpen h addr ac
    if r.1 ≠ .ok then (.ok, synackAndClose k .uotLimit h uotLimitText r.2)
    else if payload = [] then (.ok, r.2)
    else uotClientPayload k h payload r.2

/-- The outcome of one stream's reads: `more` leaves the inner loop by `break`, after which the
read event is armed again. -/
inductive ReadStop where
  | more | next
  deriving DecidableEq, Repr

/-- Put a stream the budget stopped back into `read_ready`. -/
def requeueReadReady (h : Handle) (ac : Connection) : Connection :=
  if !(ac.streams h).upstreamReadReady ∧ !(ac.streams h).upstreamReadBlocked then
    { ac with readReady := ac.readReady ++ [h] }.upd h fun st =>
      { st with upstreamReadReady := true }
  else ac

/-- `ngx_anytls_upstream_mux_requeue_read`. -/
def requeueRead (ac : Connection) : Rc × Connection :=
  let r := ac.arm
  if r.1 ≠ .ok then r else r.2.arm

/-- Block the stream's reads, closing it when that fails. -/
def blockReadOrClose (k : Callbacks) (h : Handle) (ac : Connection) : Connection :=
  let r := blockRead h ac
  if r.1 ≠ .ok then closeFailed k .armFailed h r.2 else r.2

/-- Queue what was read; `len` is the caller's byte count. `none` goes on reading. -/
def queueRead (k : Callbacks) (h : Handle) (buf : ReadBuf) (len : Nat) (ac : Connection) :
    Option ReadStop × Connection :=
  let r := queueChainFrame (some h) .psh (ac.streams h).id buf len true ac
  match r.1 with
  | .again => (some .next, blockReadOrClose k h r.2)
  | .error => (some .next, closeFailed k .queueFailed h r.2)
  | .ok => (none, r.2)

/-- A connected UoT socket: the datagram stands behind its length in the buffer. For an empty
datagram the length is written but `last` is not moved past it. -/
def readConnectedUot (k : Callbacks) (h : Handle) (size : Nat) (ac : Connection) :
    Option ReadStop × Connection :=
  if size ≤ 2 then (some .next, closeFailed k .noReadSize h ac)
  else
    match ac.recvRes with
    | .again => (some .more, ac.recvNext)
    | .error => (some .next, closeFailed k .readFailed h ac.recvNext)
    | .data bs =>
      let bs := bs.take (size - 2)
      let ac := ac.recvNext.log (.udpRecv h bs)
      if bs = [] then queueRead k h {} 2 ac
      else
        queueRead k h
          { data := UInt8.ofNat (bs.length / 256) :: UInt8.ofNat bs.length :: bs }
          (bs.length + 2) ac

/-- A TCP socket: no bytes are the end of the stream. -/
def readTcp (k : Callbacks) (h : Handle) (size : Nat) (ac : Connection) :
    Option ReadStop × Connection :=
  match ac.recvRes with
  | .again => (some .more, ac.recvNext)
  | .error => (some .next, closeFailed k .readFailed h ac.recvNext)
  | .data bs =>
    let bs := bs.take size
    if bs = [] then (some .next, (sendFinAndClose k h (dropUpstream h ac.recvNext)).2)
    else queueRead k h { data := bs } bs.length ac.recvNext

/-- One turn of the inner loop of `ngx_anytls_upstream_mux_drain_reads`, below the budget. -/
def readOnce (k : Callbacks) (h : Handle) (size : Nat) (ac : Connection) :
    Option ReadStop × Connection :=
  if ac.outputPressure ∨ !hasRoom size ac then (some .next, blockReadOrClose k h ac)
  else if !ac.allocOk then (some .next, closeFailed k .noReadBuf h ac.allocNext)
  else if (ac.streams h).upstreamType = .uot ∧ (ac.streams h).uotMode = .uotV2Connect then
    readConnectedUot k h size ac.allocNext
  else readTcp k h size ac.allocNext

/-- The inner loop; `left` is what remains of the frame budget. -/
def readLoop (k : Callbacks) (h : Handle) (size : Nat) : Nat → Connection →
    Nat × ReadStop × Connection
  | 0, ac =>
    let r := requeueRead (requeueReadReady h ac)
    (0, .more, if r.1 ≠ .ok then closeFailed k .armFailed h r.2 else r.2)
  | left + 1, ac =>
    match readOnce k h size ac with
    | (some stop, ac) => (left + 1, stop, ac)
    | (none, ac) => readLoop k h size left ac

/-- The reads of one stream of the queue: what is left of the frame budget and the state. -/
def readStream (k : Callbacks) (h : Handle) (left : Nat) (ac : Connection) : Nat × Connection :=
  match readLoop k h (readSize h ac) left ac with
  | (left, .more, ac) => (left, ac.arm.2)
  | (left, .next, ac) => (left, ac)

/-- The outer loop of `ngx_anytls_upstream_mux_drain_reads`; the next node is read before the
stream is. `visits` and `left` are what remains of the budgets. -/
def drainReadsLoop (k : Callbacks) : Nat → Option Handle → Nat → Nat → Connection → Connection
  | _, none, _, _, ac => ac
  | 0, some _, _, _, ac => setHung ac
  | fuel + 1, some h, visits, left, ac =>
    if visits = 0 then ac
    else
      let next := queueNext ac.readReady h
      let ac := takeReadReady h ac
      if !streamReadable (ac.streams h) then drainReadsLoop k fuel next visits left ac
      else
        let r := readStream k h left ac
        drainReadsLoop k fuel next (visits - 1) r.1 r.2

/-- `ngx_anytls_upstream_mux_drain_reads`: a walk that ends visits each queued stream once, and
those it puts back. -/
def drainReads (k : Callbacks) (ac : Connection) : Connection :=
  drainReadsLoop k (ac.readReady.length + scheduleStreamBudget + 1) ac.readReady.head?
    scheduleStreamBudget scheduleFrameBudget ac

/-- `ngx_anytls_upstream_mux_on_read_ready`. -/
def onReadReady (k : Callbacks) (h : Handle) (ac : Connection) : Connection :=
  if !streamReadable (ac.streams h) then ac else drainReads k (requeueReadReady h ac)

/-- Put a stream with a backlog into `write_ready`. -/
def markWriteReady (h : Handle) (ac : Connection) : Connection :=
  if (ac.streams h).upstreamWriteReady then ac
  else { ac with writeReady := ac.writeReady ++ [h] }.upd h fun st =>
    { st with upstreamWriteReady := true }

/-- Take a node out of `write_ready`. -/
def takeWriteReady (h : Handle) (ac : Connection) : Connection :=
  { ac with writeReady := ac.writeReady.erase h }.upd h fun st =>
    { st with upstreamWriteReady := false }

/-- The loop of `ngx_anytls_upstream_mux_drain_writes`; `bytes` were sent so far. -/
def drainWritesLoop (k : Callbacks) : Nat → Option Handle → Nat → Nat → Connection → Connection
  | 0, _, _, _, ac => ac
  | _, none, _, _, ac => ac
  | fuel + 1, some h, visits, bytes, ac =>
    if visits = 0 ∨ scheduleByteBudget ≤ bytes then ac
    else
      let next := queueNext ac.writeReady h
      let r := sendPending k h (scheduleByteBudget - bytes) (takeWriteReady h ac)
      if r.1 = .error then
        drainWritesLoop k fuel next visits bytes (closeFailed k .sendFailed h r.2.2)
      else
        let ac := r.2.2
        let ac := if (ac.streams h).pendingIn ≠ [] ∧ streamWritable (ac.streams h) then
            markWriteReady h ac
          else ac
        drainWritesLoop k fuel next (visits - 1) (bytes + r.2.1) ac

/-- `ngx_anytls_upstream_mux_drain_writes`: every turn uses the stream budget up or closes a
stream. -/
def drainWrites (k : Callbacks) (ac : Connection) : Connection :=
  drainWritesLoop k (ac.nstreams + ac.remnant.length + scheduleStreamBudget + 1)
    ac.writeReady.head? scheduleStreamBudget 0 ac

/-- `ngx_anytls_upstream_mux_on_write_ready`. -/
def onWriteReady (k : Callbacks) (h : Handle) (ac : Connection) : Connection :=
  if !streamWritable (ac.streams h) then ac else drainWrites k (markWriteReady h ac)

/-- `connect timeout`. -/
def connectTimeoutText : Bytes :=
  [99, 111, 110, 110, 101, 99, 116, 32, 116, 105, 109, 101, 111, 117, 116]

/-- `connect failed`. -/
def connectFailedText : Bytes :=
  [99, 111, 110, 110, 101, 99, 116, 32, 102, 97, 105, 108, 101, 100]

/-- `ngx_anytls_upstream_write_handler`. -/
def upstreamWriteHandler (k : Callbacks) (h : Handle) (timedout : Bool) (ac : Connection) :
    Connection :=
  if (ac.streams h).state ≠ .connecting then onWriteReady k h ac
  else if timedout then synackAndClose k .connectTimeout h connectTimeoutText ac
  else if ac.sockErr then synackAndClose k .connectFailed h connectFailedText ac.sockErrNext
  else
    let r := onConnectReady k h (setConnectTimer h false ac.sockErrNext)
    if r.1 ≠ .ok then r.2 else onWriteReady k h r.2

/-- `resolve failed`. -/
def resolveFailedText : Bytes :=
  [114, 101, 115, 111, 108, 118, 101, 32, 102, 97, 105, 108, 101, 100]

/-- `NGX_ANYTLS_UPSTREAM_EVENT_RESOLVE_OK` of `ngx_anytls_upstream_mux_event`. -/
def muxResolveOk (k : Callbacks) (h : Handle) (ac : Connection) : Connection :=
  let closeUnlessOk (r : Rc × Connection) :=
    if r.1 ≠ .ok then closeFailed k .openFailed h r.2 else r.2
  match (ac.streams h).resolverTarget with
  | .tcp => closeUnlessOk (openResolved k h (clearResolverTarget h ac))
  | .uotConnect => closeUnlessOk (uotResolved k h (clearResolverTarget h ac))
  | .uotPacket => closeUnlessOk (uotPacketResolved k h ac)
  | .none => clearResolverTarget h ac

/-- `NGX_ANYTLS_UPSTREAM_EVENT_RESOLVE_ERROR` of `ngx_anytls_upstream_mux_event`. -/
def muxResolveError (k : Callbacks) (h : Handle) (ac : Connection) : Connection :=
  match (ac.streams h).resolverTarget with
  | .tcp => synackAndClose k .resolveFailed h resolveFailedText (clearResolverTarget h ac)
  | .uotPacket => uotPacketResolveFailed k h ac
  | _ => closeFailed k .uotResolveFailed h (clearResolverTarget h ac)

/-- The lookup is over. -/
def endLookup (h : Handle) (ac : Connection) : Connection :=
  ac.upd h fun st => { st with resolverCtx := false, resolverPending := false }

/-- `ngx_anytls_resolve_handler`; a cancelled lookup is not answered. -/
def resolveHandler (k : Callbacks) (h : Handle) (a : Answer) (ac : Connection) : Connection :=
  if !(ac.streams h).resolverCtx then ac
  else
    match usableAddr a with
    | none => muxResolveError k h (endLookup h ac)
    | some sa => muxResolveOk k h (copyAddr h sa (endLookup h ac))

/-- The read loop of `ngx_anytls_udp_read_handler`. -/
def udpReadLoop (k : Callbacks) (h : Handle) : Nat → Connection → Connection
  | 0, ac => ac.arm.2
  | fuel + 1, ac =>
    let r := uotReadDgram h ac
    match r.1 with
    | .again => r.2.arm.2
    | .error => closeFailed k .readFailed h r.2
    | .ok => udpReadLoop k h fuel r.2

/-- `ngx_anytls_udp_read_handler`; the answers of `recvfrom` run out. -/
def udpReadHandler (k : Callbacks) (h : Handle) (ac : Connection) : Connection :=
  let ac := uotArmIdleTimer h ac
  if (ac.streams h).uotMode = .uotV2Connect then onReadReady k h ac
  else if ac.outputPressure ∨ !hasRoom 0 ac then (blockRead h ac).2
  else udpReadLoop k h (ac.env.recvFrom.length + 1) ac

/-- `ngx_anytls_uot_idle_timeout_handler`. -/
def uotIdleTimeoutHandler (k : Callbacks) (h : Handle) (ac : Connection) : Connection :=
  if (ac.streams h).state = .closed then ac else (sendFinAndClose k h (uotClose h ac)).2

end NgxAnytls
