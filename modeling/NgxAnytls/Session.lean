import NgxAnytls.Fallback

/-! Client bytes, event handlers and runs (`ngx_anytls_session_actions.c`,
`ngx_anytls_client_handler.c`). -/

namespace NgxAnytls

/-- `ngx_anytls_stream_can_accept_payload`. -/
def canAcceptPayload (st : Stream) : Bool :=
  !(st.inClosed || st.state = .closing || st.state = .closed)

/-- The bytes a first PSH is parsed from: those of an earlier part of the address, as far as one
can be long, and then those of the frame. -/
def firstPshBytes (acc data : Bytes) : Bytes :=
  if acc = [] then data else acc ++ data.take (maxSocksAddrLen - acc.length)

/-- Forget the bytes of a partial address; their buffer stays. -/
def emptyFirstPsh (h : Handle) (ac : Connection) : Connection :=
  ac.upd h fun st => { st with firstPshAcc := st.firstPshAcc.map fun _ => [] }

/-- `ngx_anytls_stream_set_first_psh`. -/
def setFirstPsh (h : Handle) (addr : Addr) (ac : Connection) : Connection :=
  ac.upd h fun st => { st with firstPshSeen := true, target := addr }

def storeFirstPsh (h : Handle) (pdata : Bytes) (ac : Connection) : Connection :=
  ac.upd h fun st => { st with firstPshAcc := some pdata }

/-- Keep a partial address for the next PSH. -/
def keepFirstPsh (h : Handle) (pdata : Bytes) (ac : Connection) : Rc × Connection :=
  if maxSocksAddrLen ≤ pdata.length then (.error, ac)
  else if (ac.streams h).firstPshAcc.isNone then
    if !ac.allocOk then (.error, ac.allocNext) else (.ok, storeFirstPsh h pdata ac.allocNext)
  else (.ok, storeFirstPsh h pdata ac)

/-- The first PSH of a stream; an address that came in parts is completed from this frame. -/
def forwardFirstPsh (k : Callbacks) (h : Handle) (data : Bytes) (ac : Connection) :
    Rc × Connection :=
  if !ac.allocOk then (.error, ac.allocNext)
  else
    let ac := ac.allocNext
    let acc := (ac.streams h).firstPshAcc.getD []
    if acc ≠ [] ∧ data = [] then (.ok, ac)
    else
      let pdata := firstPshBytes acc data
      let ac := emptyFirstPsh h ac
      match parseSocksaddr pdata ac.allocOk with
      | .again => keepFirstPsh h pdata ac.allocNext
      | .error => (.error, ac.allocNext)
      | .ok addr consumed =>
        handleFirstPsh k h addr (data.drop (consumed - acc.length))
          (setFirstPsh h addr ac.allocNext)

/-- `NGX_ANYTLS_ACTION_FORWARD_CLIENT_PAYLOAD`. -/
def forwardClientPayload (k : Callbacks) (streamId : UInt32) (data : Bytes) (ac : Connection) :
    Rc × Connection :=
  match streamFind streamId ac with
  | none => (.ok, ac)
  | some h =>
    if !canAcceptPayload (ac.streams h) then (.ok, ac)
    else
      let ac := ac.log (.psh h data)
      if !(ac.streams h).firstPshSeen then forwardFirstPsh k h data ac
      else handleClientPayload k h data ac

/-- The end of the session that an ALERT or a protocol error asks for. -/
def endSession (k : Callbacks) (ac : Connection) : Connection :=
  finalize k (clientMuxDrain k 0 false (ac.log .ending)).2.2

/-- One turn of `ngx_anytls_session_actions_run`: the result, `outcome->done` and the state. -/
def runAction (k : Callbacks) (a : Action) (ac : Connection) : Rc × Bool × Connection :=
  match a with
  | .queueControl cmd streamId data =>
    let r := queueRefFrame none cmd streamId data ac
    (r.1, false, r.2)
  | .openStream streamId =>
    let r := streamCreateIfAbsent streamId ac
    (if r.1.isNone then .error else .ok, false, r.2)
  | .forwardClientPayload streamId data =>
    let r := forwardClientPayload k streamId data ac
    (r.1, false, r.2)
  | .clientFin streamId =>
    match streamFind streamId ac with
    | none => (.ok, false, ac)
    | some h => (.ok, false, handleClientFin k h (ac.log (.clientFin h (ac.streams h).state)))
  | .clientAlert _ => (.ok, true, endSession k ac)
  | .protocolError data =>
    (.ok, true, endSession k (if data ≠ [] then (queueError data ac).2 else ac))

/-- `ngx_anytls_session_actions_run`: an error does not stop it, the first one is returned. -/
def sessionActionsRun (k : Callbacks) : List Action → Rc → Connection → Rc × Bool × Connection
  | [], rc, ac => (rc, false, ac)
  | a :: as, rc, ac =>
    let r := runAction k a ac
    let rc := if rc = .ok then r.1 else rc
    if r.2.1 then (rc, true, r.2.2) else sessionActionsRun k as rc r.2.2

def setCore (core : SessionCore) (ac : Connection) : Connection := { ac with core := core }

/-- Hand one frame to the core and run what it asks for: whether to go on, and the state. -/
def processFrame (k : Callbacks) (f : Frame) (ac : Connection) : Rc × Connection :=
  let ac := ac.log (.frame f)
  let result := handleFrame ac.core f ac.allocOk
  let r := sessionActionsRun k result.actions .ok (setCore result.core ac.allocNext)
  if r.2.1 ∨ !result.ok then (.error, r.2.2) else (r.1, r.2.2)

/-- The end of `ngx_anytls_process_client_bytes`: what was not parsed stays in `read_buf`. -/
def keepRemnant (pos : Bytes) (ac : Connection) : Rc × Connection := (.ok, setRemnant pos ac)

/-- An error gives up what was not parsed. -/
def dropInput (pos : Bytes) (ac : Connection) : Connection :=
  (setRemnant [] ac).log (.inputDropped pos)

/-- The frame loop of `ngx_anytls_process_client_bytes`; each frame takes at least 7 bytes. -/
def processFrames (k : Callbacks) : Nat → Bytes → Connection → Rc × Connection
  | 0, pos, ac => keepRemnant pos ac
  | fuel + 1, pos, ac =>
    match parseFrame pos with
    | .again => keepRemnant pos ac
    | .error => (.error, dropInput pos ac)
    | .ok f consumed =>
      let r := processFrame k f ac
      if r.1 ≠ .ok then (r.1, dropInput (pos.drop consumed) r.2)
      else if r.2.inputPaused then keepRemnant (pos.drop consumed) r.2
      else processFrames k fuel (pos.drop consumed) r.2

/-- `ngx_anytls_process_client_bytes`. Bytes the auth buffer cannot hold are not replayed. -/
def processClientBytes (k : Callbacks) (data : Bytes) (ac : Connection) : Rc × Connection :=
  if ac.authenticated then
    if data = [] then (.ok, ac) else processFrames k (data.length + 1) data ac
  else
    match authProcess data ac with
    | (.more, _, ac) => (.ok, ac)
    | (.fallback, _, ac) => if !ac.conf.fallback then (.error, ac) else fallbackStart ac.auth ac
    | (.ok, consumed, ac) =>
      if data.drop consumed = [] then (.ok, ac)
      else processFrames k (data.length + 1) (data.drop consumed) ac

/-- The callbacks with held-back input parsed by `process`; `depth` bounds how often a lookup is
answered inside the handling of another answer. -/
def callbacks (process : Bytes → Connection → Rc × Connection) : Nat → Callbacks
  | 0 => { resume := inputResume process, resolved := fun _ _ ac => ac }
  | depth + 1 =>
    { resume := inputResume process
      resolved := fun h a ac => resolveHandler (callbacks process depth) h a ac }

/-- Each answer inside another one takes a packet out of the queue of its stream. -/
def resolveDepth (conf : Conf) : Nat := conf.uotPendingPackets + 2

/-- While frames are parsed nothing is held back, so a resume inside parses nothing. -/
def innerCallbacks (conf : Conf) : Callbacks :=
  callbacks (fun _ ac => (.error, ac)) (resolveDepth conf)

/-- The callbacks of an event handler. -/
def outerCallbacks (conf : Conf) : Callbacks :=
  callbacks (processClientBytes (innerCallbacks conf)) (resolveDepth conf)

def clientReadBudgetBytes : Nat := 1024 * 1024
def clientReadBudgetLoops : Nat := 16

/-- `ac->read_buf_size`. -/
def readBufSize (conf : Conf) : Nat := min conf.bufferSize (frameHeaderLen + maxFrameData)

/-- The end of the read handler. -/
def clientReadDone (exhausted : Bool) (ac : Connection) : Connection :=
  if ac.clientReadBlocked then ac
  else
    let ac := ac.arm.2
    if exhausted then postClientRead ac else ac

def setClientEof (ac : Connection) : Connection := { ac with clientEof := true }

/-- One read of the client and the parse of what it brought: whether to go on, the bytes. -/
def clientReadOnce (ac : Connection) : Option Nat × Connection :=
  let k := outerCallbacks ac.conf
  match ac.clientRecvRes with
  | .again => (none, clientReadDone false ac.clientRecvNext)
  | .error => (none, finalize k ac.clientRecvNext)
  | .data bs =>
    let bs := bs.take (readBufSize ac.conf)
    let ac := ac.clientRecvNext
    if bs = [] then (none, finalize k (setClientEof ac))
    else
      let data := ac.remnant ++ bs
      let r := processClientBytes (innerCallbacks ac.conf) data
        ((setRemnant [] ac).log (.clientRecv bs))
      if r.1 ≠ .ok then
        (none, if r.2.state ≠ .fallback then finalize k r.2 else r.2)
      else if r.2.state = .fallback ∨ r.2.clientReadBlocked then (none, r.2)
      else (some bs.length, r.2)

/-- The read loop of `ngx_anytls_client_read_handler`. -/
def clientReadLoop : Nat → Nat → Connection → Connection
  | 0, _, ac => clientReadDone true ac
  | loops + 1, bytes, ac =>
    match clientReadOnce ac with
    | (none, ac) => ac
    | (some n, ac) =>
      if clientReadBudgetBytes ≤ bytes + n then clientReadDone true ac
      else clientReadLoop loops (bytes + n) ac

/-- `ngx_anytls_client_read_handler` for the client's connection. -/
def clientReadHandler (timedout : Bool) (ac : Connection) : Connection :=
  let k := outerCallbacks ac.conf
  if timedout ∧ ac.state = .auth then finalize k ac
  else if ac.state = .fallback then fallbackRead k .upstream ac
  else if ac.inputPaused then
    let r := k.resume ac
    if r.1 ≠ .ok then finalize k r.2 else r.2
  else if ac.clientReadBlocked then ac
  else clientReadLoop clientReadBudgetLoops 0 ac

def clearWritePending (ac : Connection) : Connection := { ac with writePending := false }

/-- `ngx_anytls_client_write_handler` for the client's connection. -/
def clientWriteHandler (ac : Connection) : Connection :=
  let k := outerCallbacks ac.conf
  let ac := clearWritePending ac
  if ac.state = .fallback then fallbackWrite k .client false ac
  else
    let r := clientMuxDrain k 0 true ac
    if r.1 = .error ∨ r.2.1 then finalize k r.2.2 else r.2.2

/-- The connection as `ngx_anytls_connection_init` leaves it. -/
def Connection.init (conf : Conf) : Connection :=
  { conf := conf
    ht := List.replicate (htSize conf) .free
    core := { paddingMd5 := conf.paddingMd5, paddingData := conf.paddingData } }

/-- Whether the event loop can call the handler: a socket that is gone has no events. -/
def Event.enabled (ac : Connection) : Event → Bool
  | .clientRead _ | .clientWrite => true
  | .upstreamRead h | .upstreamWrite h _ _ => h < ac.nstreams && (ac.streams h).upstream.isSome
  | .udpRead h => h < ac.nstreams && (ac.streams h).udp.isSome
  | .uotIdle h => h < ac.nstreams && (ac.streams h).uotTimer
  | .resolved h _ => h < ac.nstreams && (ac.streams h).resolverCtx
  | .writeTimeout => ac.writeTimer
  | .fallbackRead | .fallbackWrite _ => ac.fb.opened

def unpostRead (ac : Connection) : Connection := { ac with readPosted := false }
def unpostWrite (ac : Connection) : Connection := { ac with writePosted := false }

/-- The event loop found the stream's upstream socket writable. -/
def reportWritable (h : Handle) (ac : Connection) : Connection :=
  ac.upd h fun st => { st with
    upstream := st.upstream.map fun c => { c with writeReady := true } }

def expireUotTimer (h : Handle) (ac : Connection) : Connection :=
  ac.upd h fun st => { st with uotTimer := false }

def setEnv (env : Env) (ac : Connection) : Connection := { ac with env := env }

/-- The handler of an event. -/
def handle (e : Event) (ac : Connection) : Connection :=
  let k := outerCallbacks ac.conf
  match e with
  | .clientRead timedout => clientReadHandler timedout (unpostRead ac)
  | .clientWrite => clientWriteHandler (unpostWrite ac)
  | .upstreamRead h => onReadReady k h ac
  | .upstreamWrite h timedout ready =>
    upstreamWriteHandler k h timedout (if ready then reportWritable h ac else ac)
  | .udpRead h => udpReadHandler k h ac
  | .uotIdle h => uotIdleTimeoutHandler k h (expireUotTimer h ac)
  | .resolved h a => resolveHandler k h a ac
  | .writeTimeout => finalize k (stopWriteTimer ac)
  | .fallbackRead => fallbackRead k .client ac
  | .fallbackWrite timedout => fallbackWrite k .upstream timedout ac

/-- One event, with the environment's answers to the calls its handler makes. -/
def step (ac : Connection) (e : Event × Env) : Connection :=
  if ac.closing ∨ ac.hung ∨ !e.1.enabled ac then ac
  else handle e.1 ((setEnv e.2 ac).log (.event e.1))

/-- A run of a session. -/
def run (conf : Conf) (es : List (Event × Env)) : Connection := es.foldl step (Connection.init conf)

/-- One user, whose hash is all zeros, and small limits. -/
def sampleConf : Conf :=
  { users := [{ name := [97], hash := List.replicate 32 0 }], maxStreams := 4
    maxPendingInput := 3 }

/-- What a client sends first: the hash, no padding and its settings. -/
def sampleHello (settings : Bytes) : Bytes :=
  List.replicate 32 0 ++ [0, 0] ++ encodeFrame 4 0 settings

/-- The settings `v=1` and `v=2`. -/
def sampleV1 : Bytes := [118, 61, 49]
def sampleV2 : Bytes := [118, 61, 50]

/-- The target 127.0.0.1:80 of a first PSH. -/
def sampleTarget : Bytes := [1, 127, 0, 0, 1, 0, 80]

/-- The target of the name "a", port 80. -/
def sampleDomain : Bytes := [3, 1, 97, 0, 80]

/-- The client sends these bytes in one read. -/
def sampleRead (bs : Bytes) (env : Env) : Event × Env :=
  (.clientRead false, { env with clientRecv := [.data bs] })

/-- The client starts a session and opens stream 1. -/
def sampleOpen (settings target : Bytes) (env : Env) : Event × Env :=
  sampleRead (sampleHello settings ++ encodeFrame 1 1 [] ++ encodeFrame 2 1 target) env

/-- The lookup of the first stream fails. -/
def sampleLookupFails : Event × Env := (.resolved 0 none, {})

end NgxAnytls
