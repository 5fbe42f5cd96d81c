import NgxAnytls.SessionCore
import NgxAnytls.SocksAddr

/-! Connection and stream state (`ngx_anytls_connection_private.h`,
`ngx_anytls_stream_private.h`), the answers of the environment, and the trace of effects. -/

namespace NgxAnytls

/-- `NGX_OK`, `NGX_AGAIN` and `NGX_ERROR`. -/
inductive Rc where
  | ok | again | error
  deriving DecidableEq, Repr

/-- A stream is named by the order of its allocation: closed streams keep their handle. -/
abbrev Handle := Nat

structure User where
  name : Bytes
  hash : Bytes
  deriving DecidableEq, Repr

/-- What the module reads of `ngx_stream_anytls_srv_conf_t`. -/
structure Conf where
  users : List User := []
  paddingMd5 : Bytes := []
  paddingData : Bytes := []
  fallback : Bool := false
  fallbackProxyProtocol : Bool := false
  bufferSize : Nat := 65535
  maxStreams : Nat := 1024
  maxUotStreams : Nat := 64
  maxPendingOutput : Nat := 8 * 1024 * 1024
  maxPendingInput : Nat := 8 * 1024 * 1024
  resolver : Bool := true
  writeTimeout : Nat := 60000
  uotIdleTimeout : Nat := 300000
  uotPendingPackets : Nat := 256
  uotPendingBytes : Nat := 512 * 1024
  deriving DecidableEq, Repr

/-- The result of a send: refused for now, failed, or that many bytes offered to be taken. -/
inductive Io where
  | again | error | done (n : Nat)
  deriving DecidableEq, Repr

/-- The result of a receive; no bytes are the end of the stream, or an empty datagram. -/
inductive Recv where
  | again | error | data (bs : Bytes)
  deriving DecidableEq, Repr

/-- The result of `recvfrom`. -/
inductive RecvFrom where
  | again | error | dgram (src : SockAddr) (bs : Bytes)
  deriving DecidableEq, Repr

/-- The resolver's answer: `none` is a resolver error, else the addresses found. -/
abbrev Answer := Option (List SockAddr)

/-- What `ngx_resolve_start` and `ngx_resolve_name` do with a name. -/
inductive Lookup where
  | startFailed
  | noResolver
  | nameFailed
  | pending
  | done (a : Answer)
  deriving DecidableEq, Repr

/-- The answers the environment gives to the calls of one event, in the order of the calls of
each kind. A list that runs out answers with its kind's default. -/
structure Env where
  alloc : List Bool := []
  arm : List Bool := []
  send : List Io := []
  chain : List Io := []
  client : List Io := []
  clientError : List Bool := []
  recv : List Recv := []
  clientRecv : List Recv := []
  recvFrom : List RecvFrom := []
  udpOpen : List Bool := []
  connect : List Rc := []
  sockError : List Bool := []
  lookup : List Lookup := []
  hosts : List (Option SockAddr) := []
  proxyHeader : List (Option Bytes) := []
  writable : List Bool := []
  deriving DecidableEq, Repr

inductive StreamState where
  | init | connecting | connected | halfClosed | closing | closed
  deriving DecidableEq, Repr

inductive UpstreamType where
  | tcp | uot
  deriving DecidableEq, Repr

inductive ResolveTarget where
  | none | tcp | uotConnect | uotPacket
  deriving DecidableEq, Repr

/-- `ngx_anytls_pending_t`: client bytes waiting for the upstream socket. -/
structure Pending where
  data : Bytes
  sent : Nat := 0
  deriving DecidableEq, Repr

/-- What is still to be sent of a pending buffer. -/
def Pending.rest (p : Pending) : Bytes := p.data.drop p.sent

/-- `ngx_anytls_uot_pending_t`. -/
structure UotPending where
  domain : Bytes
  port : Nat
  payload : Bytes
  deriving DecidableEq, Repr

/-- The upstream TCP connection: `c->write->ready` and the connect timer. -/
structure UpConn where
  writeReady : Bool := false
  timerSet : Bool := false
  deriving DecidableEq, Repr

/-- A recycled or new read buffer: the offset of `pos` from `start` and the bytes from `pos`
to `last`. -/
structure ReadBuf where
  pos : Nat := frameHeaderLen
  data : Bytes := []
  deriving DecidableEq, Repr

/-- `ngx_anytls_out_frame_t`. `inplace`: the header stands in the payload's own buffer.
`rest`: the bytes of the frame's chain that the client socket has not taken. -/
structure OutFrame where
  cmd : Cmd
  stream : Option Handle := none
  header : Bytes := []
  payload : Bytes := []
  inplace : Bool := false
  length : Nat := 0
  blocked : Bool := false
  fin : Bool := false
  rest : Bytes := []
  deriving DecidableEq, Repr

/-- `ngx_anytls_stream_t`. The bytes of `first_psh_acc` and of `uot_recv_buf` are those written
so far. -/
structure Stream where
  id : UInt32 := 0
  state : StreamState := .init
  upstreamType : UpstreamType := .tcp
  target : Addr := {}
  upstream : Option UpConn := none
  pendingIn : List Pending := []
  pendingInBytes : Nat := 0
  out : List OutFrame := []
  pendingOut : Nat := 0
  queuedFrames : Nat := 0
  directCount : Nat := 0
  queued : Bool := false
  upstreamReadReady : Bool := false
  upstreamWriteReady : Bool := false
  closing : Bool := false
  inClosed : Bool := false
  outClosed : Bool := false
  finQueued : Bool := false
  finSent : Bool := false
  synackSent : Bool := false
  firstPshSeen : Bool := false
  inputBlocked : Bool := false
  upstreamReadBlocked : Bool := false
  connectPending : Bool := false
  delayedClose : Bool := false
  closedByProtocol : Bool := false
  pendingShutdown : Bool := false
  resolverCtx : Bool := false
  resolverPending : Bool := false
  resolverTarget : ResolveTarget := .none
  resolverDomain : Bytes := []
  resolverPort : Nat := 0
  udp : Option Family := none
  uotPending : List UotPending := []
  uotPendingCount : Nat := 0
  uotPendingBytes : Nat := 0
  uotMode : AddrMode := .tcp
  uotRecvBuf : Option Bytes := none
  uotRecvPos : Nat := 0
  uotRecvLen : Nat := 0
  uotRecvSize : Nat := 0
  uotTimer : Bool := false
  uotRequestParsed : Bool := false
  uotCounted : Bool := false
  firstPshAcc : Option Bytes := none
  upstreamStateOpened : Bool := false

/-- What the event loop calls: the client's read and write events, those of a stream's TCP
socket (`timedout` is the connect timer, `ready` that the socket was reported writable), of its
UDP socket and idle timer, the answer to its lookup, the client write timer, and the fallback
upstream's events. -/
inductive Event where
  | clientRead (timedout : Bool)
  | clientWrite
  | upstreamRead (h : Handle)
  | upstreamWrite (h : Handle) (timedout ready : Bool)
  | udpRead (h : Handle)
  | uotIdle (h : Handle)
  | resolved (h : Handle) (a : Answer)
  | writeTimeout
  | fallbackRead
  | fallbackWrite (timedout : Bool)
  deriving DecidableEq, Repr

/-- Why `ngx_anytls_stream_close` is called for a stream that neither the client nor the end of the
session closes, without `ngx_anytls_stream_send_fin_and_close`. -/
inductive CloseCause where
  /-- the connect timer of the upstream expired -/
  | connectTimeout
  /-- the connect to the upstream failed -/
  | connectFailed
  /-- the lookup for a TCP upstream failed -/
  | resolveFailed
  /-- there is no UoT slot for the stream -/
  | uotLimit
  /-- the lookup for a UoT socket failed -/
  | uotResolveFailed
  /-- what follows a lookup failed -/
  | openFailed
  /-- a read of the upstream failed -/
  | readFailed
  /-- what was read could not be queued for the client -/
  | queueFailed
  /-- there is no memory for a read buffer -/
  | noReadBuf
  /-- the read size has no room for a datagram and its length -/
  | noReadSize
  /-- the backlog could not be sent -/
  | sendFailed
  /-- an event of the upstream could not be registered -/
  | armFailed
  deriving DecidableEq, Repr

/-- The effects of the module, in the order they happen. -/
inductive Obs where
  /-- the event loop called a handler -/
  | event (e : Event)
  /-- bytes received from the client -/
  | clientRecv (bs : Bytes)
  /-- a frame handed to the session core -/
  | frame (f : Frame)
  /-- a stream was allocated for an id -/
  | streamOpen (h : Handle) (id : UInt32)
  /-- the payload of a PSH frame handed to the stream it names -/
  | psh (h : Handle) (data : Bytes)
  /-- a FIN frame handed to the stream it names, in that state -/
  | clientFin (h : Handle) (state : StreamState)
  /-- received bytes given up unparsed after an error -/
  | inputDropped (bs : Bytes)
  /-- an upstream connection was opened -/
  | upConnect (h : Handle)
  /-- payload the upstream socket took straight from a frame -/
  | upDirect (h : Handle) (bs : Bytes)
  /-- payload appended to the stream's backlog -/
  | upAppend (h : Handle) (bs : Bytes)
  /-- backlog bytes the upstream socket took -/
  | upChain (h : Handle) (bs : Bytes)
  /-- backlog bytes accounted as sent -/
  | upAccount (h : Handle) (n : Nat)
  /-- the input resume that a sent buffer of the stream set off failed -/
  | resumeFailed (h : Handle)
  /-- the backlog was thrown away -/
  | upDiscard (h : Handle)
  /-- the write side of the upstream socket was shut down -/
  | upShutdown (h : Handle)
  /-- a datagram given to `sendto` -/
  | udpSend (h : Handle) (dst : SockAddr) (payload : Bytes)
  /-- a datagram read from a connected UoT socket -/
  | udpRecv (h : Handle) (bs : Bytes)
  /-- a frame accepted by the output queue, with `pending_output` and the client's version then -/
  | queued (f : OutFrame) (pendingOutput peerVersion : Nat)
  /-- a counter of the output was smaller than what was taken from it, and became zero -/
  | clamped
  /-- a frame linked to the unsent chain -/
  | linked (f : OutFrame)
  /-- bytes the client socket took -/
  | clientSend (bs : Bytes)
  /-- a SYNACK with that text was asked for and none was queued -/
  | synackSkipped (h : Handle) (data : Bytes)
  /-- `ngx_anytls_stream_close` is called for that cause, with the client's version, `synack_sent`
  of the stream and whether a control frame can be queued before the call -/
  | closeCall (h : Handle) (cause : CloseCause) (peerVersion : Nat) (synackSent room : Bool)
  /-- the state of the stream was set -/
  | setState (h : Handle) (old new : StreamState)
  /-- the lookup of the stream's target is reported pending, with the stream in that state -/
  | opening (h : Handle) (state : StreamState)
  /-- the stream entered `NGX_ANYTLS_STREAM_CLOSING` -/
  | streamClosing (h : Handle)
  /-- the stream entered `NGX_ANYTLS_STREAM_CLOSED` -/
  | streamClosed (h : Handle)
  /-- the fallback upstream was opened, with that PROXY protocol header -/
  | fallbackOpen (header : Bytes)
  /-- bytes the fallback upstream took -/
  | fallbackSend (bs : Bytes)
  /-- fallback upstream bytes the client took -/
  | fallbackRelay (bs : Bytes)
  /-- a client frame asked for the end of the session, and its handling goes on after that -/
  | ending
  /-- `ngx_stream_finalize_session` was called -/
  | finalize (rc : Nat)
  deriving DecidableEq, Repr

/-- A cell of the open-addressing stream table. -/
inductive Slot where
  | free | tomb | used (h : Handle)
  deriving DecidableEq, Repr

/-- A fallback buffer: the bytes from `start` to `last`, and how many of them are behind
`pos`. -/
structure FbBuf where
  cap : Nat
  data : Bytes := []
  pos : Nat := 0
  deriving DecidableEq, Repr

/-- The fallback relay. -/
structure Fallback where
  opened : Bool := false
  connected : Bool := false
  replay : Option FbBuf := none
  clientBuf : Option FbBuf := none
  upstreamBuf : Option FbBuf := none
  deriving DecidableEq, Repr

/-- `ngx_anytls_connection_t`. `remnant` is what `remnant_len` covers of `read_buf`, `auth` what
`auth_len` covers of the auth buffer; the unsent chain is what the frames of `sending` still
hold; `hung` says that a queue walk met a node linked to itself and never returns. -/
structure Connection where
  conf : Conf
  state : ConnState := .auth
  streams : Handle → Stream := fun _ => {}
  nstreams : Nat := 0
  ht : List Slot := []
  streamList : List Handle := []
  readyStreams : List Handle := []
  blockedUpstreamReads : List Handle := []
  closingStreams : List Handle := []
  readReady : List Handle := []
  writeReady : List Handle := []
  connectPending : List Handle := []
  activeStreams : Nat := 0
  blockedInputStreams : Nat := 0
  uotStreams : Nat := 0
  controlOut : List OutFrame := []
  dataOut : List OutFrame := []
  sending : List OutFrame := []
  frames : Nat := 0
  resumedStreams : Nat := 0
  writeTimer : Bool := false
  pendingOutput : Nat := 0
  pendingInput : Nat := 0
  remnant : Bytes := []
  auth : Bytes := []
  authPaddingLen : Nat := 0
  core : SessionCore := {}
  userName : Option Bytes := none
  authenticated : Bool := false
  authHashMatched : Bool := false
  clientEof : Bool := false
  clientReadBlocked : Bool := false
  inputPaused : Bool := false
  writePending : Bool := false
  outputPressure : Bool := false
  closing : Bool := false
  readPosted : Bool := false
  writePosted : Bool := false
  writeArmed : Bool := false
  hung : Bool := false
  fb : Fallback := {}
  env : Env := {}
  trace : List Obs := []

namespace Connection

/-- Change one stream. -/
def upd (ac : Connection) (h : Handle) (f : Stream → Stream) : Connection :=
  { ac with streams := Function.update ac.streams h (f (ac.streams h)) }

def log (ac : Connection) (o : Obs) : Connection := { ac with trace := ac.trace ++ [o] }

/-- `ac->unsent`: what the linked frames still hold; `[]` is `NULL`. -/
def unsent (ac : Connection) : Bytes := ac.sending.flatMap OutFrame.rest

-- the answer to the next call of a kind, and the state after that call

def allocOk (ac : Connection) : Bool := ac.env.alloc.headD true
def allocNext (ac : Connection) : Connection :=
  { ac with env := { ac.env with alloc := ac.env.alloc.tail } }

def armOk (ac : Connection) : Bool := ac.env.arm.headD true
def armNext (ac : Connection) : Connection :=
  { ac with env := { ac.env with arm := ac.env.arm.tail } }

def sendRes (ac : Connection) : Io := ac.env.send.headD .again
def sendNext (ac : Connection) : Connection :=
  { ac with env := { ac.env with send := ac.env.send.tail } }

def chainRes (ac : Connection) : Io := ac.env.chain.headD .again
def chainNext (ac : Connection) : Connection :=
  { ac with env := { ac.env with chain := ac.env.chain.tail } }

def clientRes (ac : Connection) : Io := ac.env.client.headD .again
def clientNext (ac : Connection) : Connection :=
  { ac with env := { ac.env with client := ac.env.client.tail } }

def clientErr (ac : Connection) : Bool := ac.env.clientError.headD false
def clientErrNext (ac : Connection) : Connection :=
  { ac with env := { ac.env with clientError := ac.env.clientError.tail } }

def recvRes (ac : Connection) : Recv := ac.env.recv.headD .again
def recvNext (ac : Connection) : Connection :=
  { ac with env := { ac.env with recv := ac.env.recv.tail } }

def clientRecvRes (ac : Connection) : Recv := ac.env.clientRecv.headD .again
def clientRecvNext (ac : Connection) : Connection :=
  { ac with env := { ac.env with clientRecv := ac.env.clientRecv.tail } }

def recvFromRes (ac : Connection) : RecvFrom := ac.env.recvFrom.headD .again
def recvFromNext (ac : Connection) : Connection :=
  { ac with env := { ac.env with recvFrom := ac.env.recvFrom.tail } }

def udpOpenOk (ac : Connection) : Bool := ac.env.udpOpen.headD true
def udpOpenNext (ac : Connection) : Connection :=
  { ac with env := { ac.env with udpOpen := ac.env.udpOpen.tail } }

def connectRes (ac : Connection) : Rc := ac.env.connect.headD .again
def connectNext (ac : Connection) : Connection :=
  { ac with env := { ac.env with connect := ac.env.connect.tail } }

def sockErr (ac : Connection) : Bool := ac.env.sockError.headD false
def sockErrNext (ac : Connection) : Connection :=
  { ac with env := { ac.env with sockError := ac.env.sockError.tail } }

def lookupRes (ac : Connection) : Lookup := ac.env.lookup.headD .pending
def lookupNext (ac : Connection) : Connection :=
  { ac with env := { ac.env with lookup := ac.env.lookup.tail } }

def hostRes (ac : Connection) : Option SockAddr := ac.env.hosts.headD none
def hostNext (ac : Connection) : Connection :=
  { ac with env := { ac.env with hosts := ac.env.hosts.tail } }

def proxyHeaderRes (ac : Connection) : Option Bytes := ac.env.proxyHeader.headD none
def proxyHeaderNext (ac : Connection) : Connection :=
  { ac with env := { ac.env with proxyHeader := ac.env.proxyHeader.tail } }

def writableRes (ac : Connection) : Bool := ac.env.writable.headD true
def writableNext (ac : Connection) : Connection :=
  { ac with env := { ac.env with writable := ac.env.writable.tail } }

/-- `ngx_handle_read_event`, `ngx_handle_write_event`, `ngx_add_event` or `ngx_del_event`, with
nothing else to do. -/
def arm (ac : Connection) : Rc × Connection := (if ac.armOk then .ok else .error, ac.armNext)

@[simp] theorem upd_streams (ac : Connection) (h h' : Handle) (f : Stream → Stream) :
    (ac.upd h f).streams h' = if h' = h then f (ac.streams h) else ac.streams h' := by
  by_cases e : h' = h
  · subst e; simp [upd]
  · simp [upd, e]

theorem upd_self (ac : Connection) (h : Handle) (f : Stream → Stream) :
    (ac.upd h f).streams h = f (ac.streams h) := by simp

@[simp] theorem log_trace (ac : Connection) (o : Obs) : (ac.log o).trace = ac.trace ++ [o] := rfl

@[simp] theorem log_streams (ac : Connection) (o : Obs) : (ac.log o).streams = ac.streams := rfl

end Connection

end NgxAnytls
