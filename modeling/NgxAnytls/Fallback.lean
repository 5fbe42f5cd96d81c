import NgxAnytls.UpstreamMux

/-! Authentication, the fallback relay and the end of a session (`ngx_anytls_auth.c`,
`ngx_anytls_fallback.c`, `ngx_anytls_connection.c`). -/

namespace NgxAnytls

def markClosing (ac : Connection) : Connection := { ac with closing := true, writeTimer := false }

def closeFallback (ac : Connection) : Connection :=
  { ac with fb := { ac.fb with opened := false } }

/-- Close every stream of the list. -/
def closeStreams (k : Callbacks) (hs : List Handle) (ac : Connection) : Connection :=
  hs.foldl (fun ac h => streamClose k h (markClosedByProtocol h ac)) ac

/-- `ngx_anytls_finalize_rc`. -/
def finalizeRc (k : Callbacks) (rc : Nat) (ac : Connection) : Connection :=
  if ac.closing then ac
  else
    (closeFallback (closeStreams k ac.streamList (markClosing ac))).log (.finalize rc)

/-- `NGX_STREAM_OK` and `NGX_STREAM_BAD_GATEWAY`. -/
def streamOk : Nat := 200
def streamBadGateway : Nat := 502

/-- `ngx_anytls_finalize`. -/
def finalize (k : Callbacks) (ac : Connection) : Connection := finalizeRc k streamOk ac

def authPrefixLen : Nat := 34
/-- `sizeof(ac->auth)`. -/
def authBufSize : Nat := 34 + 65535

/-- `ngx_anytls_auth_result_e`, without the error that is never returned. -/
inductive AuthResult where
  | more | ok | fallback
  deriving DecidableEq, Repr

def appendAuth (bs : Bytes) (ac : Connection) : Connection := { ac with auth := ac.auth ++ bs }

/-- Move up to `limit - auth_len` bytes of `data` to the auth buffer; the count and the state. -/
def authTake (limit : Nat) (data : Bytes) (ac : Connection) : Nat × Connection :=
  let n := min data.length (limit - ac.auth.length)
  (n, appendAuth (data.take n) ac)

/-- The first user whose hash the buffer starts with. -/
def matchUser (ac : Connection) : Option User :=
  ac.conf.users.find? fun u => ac.auth.take 32 = u.hash

/-- The padding length that follows the hash. -/
def authPadding (ac : Connection) : Nat := be16 (ac.auth.getD 32 0) (ac.auth.getD 33 0)

def setAuthPadding (n : Nat) (ac : Connection) : Connection := { ac with authPaddingLen := n }

def setAuthenticated (ac : Connection) : Connection :=
  { ac with authenticated := true, state := .settings }

def setUser (u : User) (ac : Connection) : Connection :=
  { ac with userName := some u.name, authHashMatched := true }

/-- The padding, once the hash is known. -/
def authPad (consumed : Nat) (data : Bytes) (ac : Connection) :
    AuthResult × Nat × Connection :=
  let ac := setAuthPadding (authPadding ac) ac
  let need := authPrefixLen + ac.authPaddingLen
  let t := if ac.auth.length < need then authTake need data ac else (0, ac)
  if t.2.auth.length < need then (.more, consumed + t.1, t.2)
  else (.ok, consumed + t.1, setAuthenticated t.2)

/-- `ngx_anytls_auth_process`: the result, the bytes consumed and the state. -/
def authProcess (data : Bytes) (ac : Connection) : AuthResult × Nat × Connection :=
  let t := if ac.auth.length < authPrefixLen then authTake authPrefixLen data ac else (0, ac)
  let data := data.drop t.1
  if t.2.auth.length < authPrefixLen then (.more, t.1, t.2)
  else if t.2.authHashMatched then authPad t.1 data t.2
  else
    match matchUser t.2 with
    | none =>
      let rest := authTake authBufSize data t.2
      (.fallback, t.1 + rest.1, rest.2)
    | some u =>
      authPad t.1 data (setUser u t.2)

def fallbackWriteBudget : Nat := 1024 * 1024
def fallbackReadBudgetBytes : Nat := 1024 * 1024
def fallbackReadBudgetLoops : Nat := 16

/-- The two ends of the relay. -/
inductive FbSide where
  | client | upstream
  deriving DecidableEq, Repr

/-- Bytes the far end took, in the trace of its side. -/
def logRelay (dst : FbSide) (bs : Bytes) (ac : Connection) : Connection :=
  ac.log (match dst with
    | .upstream => .fallbackSend bs
    | .client => .fallbackRelay bs)

def openFallback (connected : Bool) (ac : Connection) : Connection :=
  { ac with fb := { ac.fb with opened := true, connected := connected } }

/-- The relay starts with `header` and `raw` to be replayed. -/
def startReplay (header raw : Bytes) (ac : Connection) : Connection :=
  { ac with
    state := .fallback
    fb := { ac.fb with replay := some { cap := raw.length + 128, data := header ++ raw } } }.log
      (.fallbackOpen header)

/-- The PROXY protocol header, when there is one. -/
def takeProxyHeader (ac : Connection) : Bytes × Connection :=
  if ac.conf.fallbackProxyProtocol then (ac.proxyHeaderRes.getD [], ac.proxyHeaderNext)
  else ([], ac)

/-- `ngx_anytls_fallback_start` replaying `raw`. -/
def fallbackStart (raw : Bytes) (ac : Connection) : Rc × Connection :=
  if !ac.conf.fallback then (.error, ac)
  else if !ac.allocOk then (.error, ac.allocNext)
  else
    let ac := ac.allocNext
    match ac.connectRes with
    | .error => (.error, ac.connectNext)
    | rc =>
      let ac := openFallback (decide (rc = Rc.ok)) ac.connectNext
      if !ac.allocOk then (.error, ac.allocNext)
      else
        let p := takeProxyHeader ac.allocNext
        (.ok, startReplay p.1 raw p.2)

def FbBuf.reset (b : FbBuf) : FbBuf := { b with data := [], pos := 0 }

def FbBuf.advance (n : Nat) (b : FbBuf) : FbBuf := { b with pos := b.pos + n }

/-- What is still to be sent of a buffer. -/
def FbBuf.rest (b : FbBuf) : Bytes := b.data.drop b.pos

/-- The send loop of `ngx_anytls_fallback_flush_buf`; the buffer is threaded through. -/
def flushBufLoop (dst : FbSide) : Nat → Nat → FbBuf → Connection → Rc × FbBuf × Connection
  | 0, _, b, ac => (.ok, b.reset, ac)
  | fuel + 1, sent, b, ac =>
    if b.data.length ≤ b.pos then (.ok, b.reset, ac)
    else
      let size := min (b.data.length - b.pos) (fallbackWriteBudget - sent)
      match ac.sendRes with
      | .again =>
        let r := ac.sendNext.arm
        (if r.1 ≠ .ok then .error else .again, b, r.2)
      | .error => (.error, b, ac.sendNext)
      | .done n =>
        let n := min n size
        if n = 0 then (.error, b, ac.sendNext)
        else
          let ac := logRelay dst (b.rest.take n) ac.sendNext
          let b := b.advance n
          if fallbackWriteBudget ≤ sent + n ∧ b.pos < b.data.length then
            let r := ac.arm
            (if r.1 ≠ .ok then .error else .again, b, r.2)
          else flushBufLoop dst fuel (sent + n) b ac

/-- `ngx_anytls_fallback_flush_buf` of a buffer that exists. -/
def flushBuf (dst : FbSide) (b : FbBuf) (ac : Connection) : Rc × FbBuf × Connection :=
  flushBufLoop dst (b.data.length + 1) 0 b ac

def setReplay (b : Option FbBuf) (ac : Connection) : Connection :=
  { ac with fb := { ac.fb with replay := b } }

/-- The buffer of what goes to `dst`. -/
def fbBuf (dst : FbSide) (ac : Connection) : Option FbBuf :=
  match dst with
  | .upstream => ac.fb.clientBuf
  | .client => ac.fb.upstreamBuf

def setFbBuf (dst : FbSide) (b : Option FbBuf) (ac : Connection) : Connection :=
  match dst with
  | .upstream => { ac with fb := { ac.fb with clientBuf := b } }
  | .client => { ac with fb := { ac.fb with upstreamBuf := b } }

/-- Flush the replay buffer, and give it up when it is empty. -/
def flushReplay (ac : Connection) : Rc × Connection :=
  match ac.fb.replay with
  | none => (.ok, ac)
  | some b =>
    match flushBuf .upstream b ac with
    | (.ok, _, ac) => (.ok, setReplay none ac)
    | (rc, b, ac) => (rc, setReplay (some b) ac)

/-- Flush the buffer of what goes to `dst`. -/
def flushFbBuf (dst : FbSide) (ac : Connection) : Rc × Connection :=
  match fbBuf dst ac with
  | none => (.ok, ac)
  | some b =>
    match flushBuf dst b ac with
    | (rc, b, ac) => (rc, setFbBuf dst (some b) ac)

/-- Arm an event, finalizing the session when that fails. -/
def armOrFinalize (k : Callbacks) (ac : Connection) : Connection :=
  let r := ac.arm
  if r.1 ≠ .ok then finalize k r.2 else r.2

def setFbConnected (ac : Connection) : Connection :=
  { ac with fb := { ac.fb with connected := true } }

/-- The connect of `ngx_anytls_fallback_write`: go on, or stop in that state. -/
def fallbackConnect (k : Callbacks) (timedout : Bool) (ac : Connection) :
    Bool × Connection :=
  if ac.fb.connected then (true, ac)
  else if timedout then (false, finalizeRc k streamBadGateway ac)
  else if !ac.writableRes then (false, armOrFinalize k ac.writableNext)
  else
    let ac := ac.writableNext
    if ac.sockErr then (false, finalizeRc k streamBadGateway ac.sockErrNext)
    else (true, setFbConnected ac.sockErrNext)

/-- What `ngx_anytls_fallback_write` does for a writable fallback upstream. -/
def fallbackWriteUpstream (k : Callbacks) (ac : Connection) : Connection :=
  let r := flushReplay ac
  match r.1 with
  | .error => finalize k r.2
  | .again => r.2
  | .ok =>
    let r := flushFbBuf .upstream r.2
    match r.1 with
    | .error => finalize k r.2
    | .again => r.2
    | .ok =>
      let r := r.2.arm
      if r.1 ≠ .ok then finalize k r.2 else armOrFinalize k r.2

/-- `ngx_anytls_fallback_write`. -/
def fallbackWrite (k : Callbacks) (dst : FbSide) (timedout : Bool) (ac : Connection) :
    Connection :=
  let r := if dst = .upstream then fallbackConnect k timedout ac else (true, ac)
  if !r.1 then r.2
  else
    let ac := r.2
    if !ac.writableRes then armOrFinalize k ac.writableNext
    else if dst = .upstream then fallbackWriteUpstream k ac.writableNext
    else
      let r := flushFbBuf .client ac.writableNext
      match r.1 with
      | .error => finalize k r.2
      | .again => r.2
      | .ok => armOrFinalize k r.2

/-- The bytes a relay read brings: from the client they count as received. -/
def relayRecv (dst : FbSide) (size : Nat) (ac : Connection) : Recv × Connection :=
  match dst with
  | .upstream =>
    match ac.clientRecvRes with
    | .data bs => (.data (bs.take size), ac.clientRecvNext.log (.clientRecv (bs.take size)))
    | r => (r, ac.clientRecvNext)
  | .client =>
    match ac.recvRes with
    | .data bs => (.data (bs.take size), ac.recvNext)
    | r => (r, ac.recvNext)

/-- The read loop of `ngx_anytls_fallback_read`; `loops` and `bytes` were done so far. -/
def fallbackReadLoop (k : Callbacks) (dst : FbSide) : Nat → Nat → FbBuf → Connection → Connection
  | 0, _, b, ac => armOrFinalize k (setFbBuf dst (some b) ac)
  | loops + 1, bytes, b, ac =>
    if b.cap ≤ b.data.length then armOrFinalize k (setFbBuf dst (some b) ac)
    else
      match relayRecv dst (b.cap - b.data.length) ac with
      | (.again, ac) => armOrFinalize k (setFbBuf dst (some b) ac)
      | (.error, ac) => finalize k (setFbBuf dst (some b) ac)
      | (.data bs, ac) =>
        if bs = [] then finalize k (setFbBuf dst (some b) ac)
        else
          match flushBuf dst { b with data := b.data ++ bs } ac with
          | (.error, b, ac) => finalize k (setFbBuf dst (some b) ac)
          | (.again, b, ac) => setFbBuf dst (some b) ac
          | (.ok, b, ac) =>
            if fallbackReadBudgetBytes ≤ bytes + bs.length then
              armOrFinalize k (setFbBuf dst (some b) ac)
            else fallbackReadLoop k dst loops (bytes + bs.length) b ac

/-- `ngx_anytls_fallback_read` of what goes to `dst`. -/
def fallbackRead (k : Callbacks) (dst : FbSide) (ac : Connection) : Connection :=
  if dst = .upstream ∧ ac.fb.replay.isSome then armOrFinalize k ac
  else
    match fbBuf dst ac with
    | some b =>
      if b.pos < b.data.length then
        let r := flushFbBuf dst ac
        if r.1 = .error then finalize k r.2 else r.2
      else fallbackReadLoop k dst fallbackReadBudgetLoops 0 b ac
    | none =>
      if !ac.allocOk then finalize k ac.allocNext
      else
        fallbackReadLoop k dst fallbackReadBudgetLoops 0 { cap := ac.conf.bufferSize } ac.allocNext

end NgxAnytls
