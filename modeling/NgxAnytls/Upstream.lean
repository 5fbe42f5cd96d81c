import NgxAnytls.ClientMux

/-! Sending client payload to a TCP upstream (`ngx_anytls_upstream.c`). -/

namespace NgxAnytls

def pendingWriteChainLimit : Nat := 64

/-- `NGX_ANYTLS_UPSTREAM_SEND_UNLIMITED`, `(size_t) -1`. -/
def sendUnlimited : Nat := 2 ^ 64 - 1

/-- The backlog of a stream as bytes. -/
def Stream.backlog (st : Stream) : Bytes := st.pendingIn.flatMap Pending.rest

/-- The buffers of one batch: at most 64 and at most `remaining` bytes; no buffer is longer than
`sendUnlimited`. -/
def batchLoop : List Pending → Nat → Nat → List Bytes
  | [], _, _ => []
  | _, _, 0 => []
  | p :: ps, remaining, n + 1 =>
    if p.rest = [] then batchLoop ps remaining (n + 1)
    else if remaining = sendUnlimited then p.rest :: batchLoop ps remaining n
    else
      let size := min p.rest.length remaining
      if remaining - size = 0 then [p.rest.take size]
      else p.rest.take size :: batchLoop ps (remaining - size) n

/-- The socket takes `n` of the `total` bytes it was given; it stays writable only if that is
all of them. -/
def setWriteReady (h : Handle) (n total : Nat) (ac : Connection) : Connection :=
  if n < total then
    ac.upd h fun st => { st with upstream := st.upstream.map fun c =>
      { c with writeReady := false } }
  else ac

/-- `ngx_anytls_transport_write_chain` on the upstream: the bytes taken, `none` for
`NGX_CHAIN_ERROR`. -/
def upstreamWriteChain (h : Handle) (batch : Bytes) (ac : Connection) : Option Nat × Connection :=
  match ac.chainRes with
  | .error => (none, ac.chainNext)
  | .again => (some 0, setWriteReady h 0 batch.length ac.chainNext)
  | .done n =>
    let n := min n batch.length
    (some n, setWriteReady h n batch.length (ac.chainNext.log (.upChain h (batch.take n))))

/-- `n` more bytes of the head buffer are sent. -/
def accountHead (n : Nat) : List Pending → List Pending
  | [] => []
  | p :: ps => { p with sent := p.sent + n } :: ps

/-- Account `n` bytes of the head buffer as sent. -/
def accountSent (h : Handle) (n : Nat) (ac : Connection) : Connection :=
  (ac.upd h fun st => { st with pendingIn := accountHead n st.pendingIn }).log (.upAccount h n)

/-- Take the fully sent head buffer out of the backlog. -/
def popPending (h : Handle) (ac : Connection) : Connection :=
  let len := match (ac.streams h).pendingIn with
    | [] => 0
    | p :: _ => p.data.length
  { ac with pendingInput := ac.pendingInput - len }.upd h fun st => { st with
    pendingIn := st.pendingIn.tail, pendingInBytes := st.pendingInBytes - len }

/-- The accounting loop: `none` means it ran to its end, else the code returns. Popping a buffer
can resume client input and so queue for this stream again. -/
def accountLoop (k : Callbacks) (h : Handle) : Nat → Nat → Connection → Option Rc × Connection
  | 0, _, ac => (none, ac)
  | fuel + 1, sent, ac =>
    match (ac.streams h).pendingIn with
    | [] => (none, ac)
    | p :: _ =>
      if sent = 0 then (none, ac)
      else
        let size := min p.rest.length sent
        let ac := accountSent h size ac
        if p.sent + size ≠ p.data.length then
          let r := ac.arm
          (some r.1, r.2)
        else
          let r := updateInputState k h (popPending h ac)
          if r.1 ≠ .ok then (some .error, r.2.log (.resumeFailed h))
          else accountLoop k h fuel (sent - size) r.2

/-- The half-close that waited for the backlog. -/
def shutdownDeferred (h : Handle) (ac : Connection) : Connection :=
  if (ac.streams h).pendingShutdown ∧ (ac.streams h).upstream.isSome then
    (ac.upd h fun st => { st with pendingShutdown := false }).log (.upShutdown h)
  else ac

/-- What follows the send loop: re-arm, or finish a deferred half-close and resume input. -/
def sendPendingTail (k : Callbacks) (h : Handle) (ac : Connection) : Rc × Connection :=
  if (ac.streams h).pendingIn ≠ [] then ac.arm
  else
    let r := (shutdownDeferred h ac).arm
    if r.1 ≠ .ok then (.error, r.2) else k.resume r.2

/-- One batch given to the socket and accounted: the bytes it took, the result when the code
returns, the state. -/
def sendBatch (k : Callbacks) (h : Handle) (batch : Bytes) (ac : Connection) :
    Nat × Option Rc × Connection :=
  match upstreamWriteChain h batch ac with
  | (none, ac) => (0, some .error, ac)
  | (some sent, ac) =>
    if sent = 0 then (0, some ac.arm.1, ac.arm.2)
    else (sent, accountLoop k h (sent + (ac.streams h).pendingIn.length) sent ac)

/-- The loop of `ngx_anytls_upstream_send_pending`: the result, the bytes sent, the state. -/
def sendLoop (k : Callbacks) (h : Handle) : Nat → Nat → Nat → Connection → Rc × Nat × Connection
  | 0, _, total, ac =>
    let r := sendPendingTail k h ac
    (r.1, total, r.2)
  | fuel + 1, maxBytes, total, ac =>
    if (ac.streams h).pendingIn = [] then
      let r := sendPendingTail k h ac
      (r.1, total, r.2)
    else if maxBytes = 0 then (.ok, total, ac)
    else
      let batch := (batchLoop (ac.streams h).pendingIn maxBytes pendingWriteChainLimit).flatten
      if batch = [] then
        let r := sendPendingTail k h ac
        (r.1, total, r.2)
      else
        match sendBatch k h batch ac with
        | (sent, some rc, ac) => (rc, total + sent, ac)
        | (sent, none, ac) =>
          let maxBytes := if maxBytes = sendUnlimited then maxBytes else maxBytes - sent
          if sent < batch.length ∨ maxBytes = 0 then
            let r := sendPendingTail k h ac
            (r.1, total + sent, r.2)
          else sendLoop k h fuel maxBytes (total + sent) ac

/-- `ngx_anytls_upstream_send_pending`. Each turn of its loop sends a byte of the backlog or of
the held-back input. -/
def sendPending (k : Callbacks) (h : Handle) (maxBytes : Nat) (ac : Connection) :
    Rc × Nat × Connection :=
  if (ac.streams h).upstream.isNone ∨ !isOpenState (ac.streams h) then (.ok, 0, ac)
  else sendLoop k h ((ac.streams h).backlog.length + ac.remnant.length + 1) maxBytes 0 ac

/-- The socket takes `bs` straight from the frame. -/
def upDirect (h : Handle) (bs : Bytes) (ac : Connection) : Connection := ac.log (.upDirect h bs)

/-- The direct send loop: what is left of the payload, `none` after a failed send. -/
def directLoop (h : Handle) : Nat → Bytes → Connection → Option Bytes × Connection
  | 0, data, ac => (some data, ac)
  | fuel + 1, data, ac =>
    if data = [] then (some [], ac)
    else
      match ac.sendRes with
      | .error => (none, ac.sendNext)
      | .again => (some data, setWriteReady h 0 data.length ac.sendNext)
      | .done n =>
        let n := min n data.length
        if n = 0 then (none, ac.sendNext)
        else
          directLoop h fuel (data.drop n)
            (setWriteReady h n data.length (upDirect h (data.take n) ac.sendNext))

/-- Put payload at the end of the backlog. -/
def appendPending (h : Handle) (data : Bytes) (ac : Connection) : Connection :=
  ({ ac with pendingInput := ac.pendingInput + data.length }.upd h fun st => { st with
    pendingIn := st.pendingIn ++ [Pending.mk data 0]
    pendingInBytes := st.pendingInBytes + data.length }).log (.upAppend h data)

/-- The append of `ngx_anytls_upstream_queue`, with the limits on the backlog. A record or a buffer
that is recycled counts as one that is allocated. -/
def upstreamAppend (h : Handle) (data : Bytes) (ac : Connection) : Rc × Connection :=
  if !ac.allocOk then (.error, ac.allocNext)
  else if !ac.allocNext.allocOk then (.error, ac.allocNext.allocNext)
  else
    let ac := appendPending h data ac.allocNext.allocNext
    if ac.conf.maxPendingInput < (ac.streams h).pendingInBytes then blockInput h ac
    else if ac.conf.maxPendingInput < ac.pendingInput then clientInputPause ac
    else (.ok, ac)

/-- The part of `ngx_anytls_upstream_queue` that tries the socket when there is no backlog. -/
def upstreamDirect (h : Handle) (data : Bytes) (ac : Connection) : Rc × Connection :=
  if (ac.streams h).pendingIn ≠ [] then upstreamAppend h data ac
  else
    match directLoop h data.length data ac with
    | (none, ac) => (.error, ac)
    | (some rest, ac) =>
      let r := ac.arm
      if r.1 ≠ .ok then (.error, r.2)
      else if rest = [] then (.ok, r.2)
      else upstreamAppend h rest r.2

/-- `ngx_anytls_upstream_queue`: an old backlog is flushed first when the socket is writable. -/
def upstreamQueue (k : Callbacks) (h : Handle) (data : Bytes) (ac : Connection) :
    Rc × Connection :=
  if data = [] then (.ok, ac)
  else if (ac.streams h).upstream.isSome ∧ (ac.streams h).state = .connected then
    if (ac.streams h).pendingIn ≠ [] ∧ (ac.streams h).upstream.any UpConn.writeReady then
      let r := sendPending k h sendUnlimited ac
      if r.1 = .error then (.error, r.2.2) else upstreamDirect h data r.2.2
    else upstreamDirect h data ac
  else upstreamAppend h data ac

def setState (h : Handle) (state : StreamState) (ac : Connection) : Connection :=
  (logState h state ac).upd h fun st => { st with state := state }

/-- `ngx_anytls_upstream_mux_on_connect_ready`. -/
def onConnectReady (k : Callbacks) (h : Handle) (ac : Connection) : Rc × Connection :=
  let ac := (sendSynack h [] (setState h .connected (cancelConnect h ac))).2
  let r := ac.arm
  if r.1 ≠ .ok then (.error, closeFailed k .armFailed h r.2) else r

/-- `ngx_anytls_upstream_mux_on_connect_pending`. -/
def onConnectPending (h : Handle) (ac : Connection) : Connection :=
  if (ac.streams h).connectPending then ac
  else { ac with connectPending := ac.connectPending ++ [h] }.upd h fun st =>
    { st with connectPending := true }

/-- The new connection of `ngx_anytls_upstream_open_resolved`. -/
def openUpstream (h : Handle) (ready : Bool) (ac : Connection) : Connection :=
  ((logState h .connecting ac).upd h fun st => { st with
    upstream := some { writeReady := ready, timerSet := false }
    state := .connecting }).log (.upConnect h)

def markStateOpened (h : Handle) (ac : Connection) : Connection :=
  ac.upd h fun st => { st with upstreamStateOpened := true }

def setConnectTimer (h : Handle) (b : Bool) (ac : Connection) : Connection :=
  ac.upd h fun st => { st with upstream := st.upstream.map fun c => { c with timerSet := b } }

/-- `ngx_anytls_upstream_open_resolved`. -/
def openResolved (k : Callbacks) (h : Handle) (ac : Connection) : Rc × Connection :=
  if (ac.streams h).target.sockaddr.isNone then (.error, ac)
  else if !ac.allocOk then (.error, ac.allocNext)
  else
    let ac := ac.allocNext
    if !(ac.streams h).upstreamStateOpened ∧ !ac.allocOk then (.error, ac.allocNext)
    else
      let ac := markStateOpened h ac.allocNext
      match ac.connectRes with
      | .error => (.error, ac.connectNext)
      | .ok =>
        let r := onConnectReady k h (openUpstream h true ac.connectNext)
        if r.1 ≠ .ok then (.error, r.2)
        else
          let r := sendPending k h sendUnlimited r.2
          (r.1, r.2.2)
      | .again =>
        (setConnectTimer h true (onConnectPending h (openUpstream h false ac.connectNext))).arm

end NgxAnytls
