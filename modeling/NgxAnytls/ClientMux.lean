import NgxAnytls.Stream

/-! Writing frames to the client, and the backpressure on upstream reads
(`ngx_anytls_client_mux.c`, `ngx_anytls_upstream_mux.c`). -/

namespace NgxAnytls

def clientDrainFrames : Nat := 32
def maxScheduleBytes : Nat := 1024 * 1024
def minScheduleFrames : Nat := 16
def tlsRecordSize : Nat := 16384

/-- `ngx_anytls_upstream_mux_read_conn` is not `NULL`. -/
def hasReadConn (st : Stream) : Bool :=
  if st.upstreamType = .uot then st.udp.isSome else st.upstream.isSome

def isOpenState (st : Stream) : Bool := st.state = .connected ∨ st.state = .halfClosed

/-- `ngx_anytls_upstream_mux_stream_readable`. -/
def streamReadable (st : Stream) : Bool := hasReadConn st && isOpenState st

/-- `ngx_anytls_upstream_mux_stream_writable`. -/
def streamWritable (st : Stream) : Bool :=
  st.upstream.isSome && (isOpenState st || st.state = .connecting)

/-- `ngx_anytls_upstream_mux_read_size`. -/
def readSize (h : Handle) (ac : Connection) : Nat :=
  let size := min ac.conf.bufferSize maxFrameData
  if (ac.streams h).upstreamType ≠ .uot then min size (tlsRecordSize - frameHeaderLen) else size

def markReadBlocked (h : Handle) (ac : Connection) : Connection :=
  { ac with blockedUpstreamReads := ac.blockedUpstreamReads ++ [h] }.upd h fun st =>
    { st with upstreamReadBlocked := true }

/-- `ngx_anytls_upstream_block_read`. -/
def blockRead (h : Handle) (ac : Connection) : Rc × Connection :=
  if (ac.streams h).upstreamReadBlocked then (.ok, ac) else (markReadBlocked h ac).arm

/-- Take a node out of `read_ready`. -/
def takeReadReady (h : Handle) (ac : Connection) : Connection :=
  { ac with readReady := ac.readReady.erase h }.upd h fun st =>
    { st with upstreamReadReady := false }

/-- One stream taken out of `read_ready` by `ngx_anytls_upstream_mux_suspend_reads`. -/
def suspendRead (ac : Connection) (h : Handle) : Connection :=
  let ac := takeReadReady h ac
  let st := ac.streams h
  if !hasReadConn st ∨ st.state = .closed ∨ st.state = .closing then ac else (blockRead h ac).2

def setPressure (b : Bool) (ac : Connection) : Connection := { ac with outputPressure := b }

/-- `ngx_anytls_upstream_mux_suspend_reads`. -/
def suspendReads (ac : Connection) : Connection :=
  ac.readReady.foldl suspendRead (setPressure true ac)

def setResumed (n : Nat) (ac : Connection) : Connection := { ac with resumedStreams := n }

/-- The loop of `ngx_anytls_upstream_mux_process_blocked` over the queue it starts from. -/
def processBlockedLoop (k : Callbacks) : List Handle → Connection → Connection
  | [], ac => ac
  | h :: hs, ac =>
    if !streamReadable (ac.streams h) then processBlockedLoop k hs (unblockRead h ac)
    else if ac.outputPressure then ac
    else if !hasRoom (readSize h ac) ac then ac
    else
      let r := (unblockRead h ac).arm
      if r.1 ≠ .ok then closeFailed k .armFailed h r.2
      else processBlockedLoop k hs (setResumed (r.2.resumedStreams + 1) r.2)

/-- `ngx_anytls_upstream_mux_process_blocked`, its count added to `resumed_streams`. -/
def processBlocked (k : Callbacks) (ac : Connection) : Connection :=
  processBlockedLoop k ac.blockedUpstreamReads ac

/-- `ngx_anytls_upstream_mux_on_client_mux_result`. -/
def onClientMuxResult (k : Callbacks) (pressureReleased : Bool) (ac : Connection) : Connection :=
  if pressureReleased then
    processBlocked k (processBlocked k (setPressure false ac))
  else processBlocked k ac

/-- A frame out of the totals of the session. -/
def uncountFrame (f : OutFrame) (ac : Connection) : Connection :=
  { ac with pendingOutput := ac.pendingOutput - f.length, frames := ac.frames - 1 }

/-- A counter is smaller than what `retireFrame` takes from it. -/
def retireClamps (f : OutFrame) (ac : Connection) : Bool :=
  ac.pendingOutput < f.length || ac.frames = 0 ||
    match f.stream with
    | none => false
    | some h => (ac.streams h).queuedFrames = 0 || (ac.streams h).pendingOut < f.length

/-- The accounting of a sent frame. -/
def retireFrame (f : OutFrame) (ac : Connection) : Connection :=
  let ac := uncountFrame f (noteClamped (retireClamps f ac) ac)
  match f.stream with
  | none => ac
  | some h => ac.upd h fun st => { st with
      queuedFrames := st.queuedFrames - 1
      pendingOut := st.pendingOut - f.length
      finSent := st.finSent || f.fin
      outClosed := st.outClosed || f.fin }

/-- `ngx_anytls_default_frame_handler`. -/
def defaultFrameHandler (k : Callbacks) (f : OutFrame) (ac : Connection) : Connection :=
  let ac := retireFrame f ac
  match f.stream with
  | none => ac
  | some h =>
    if (ac.streams h).state = .closing ∧ (ac.streams h).queuedFrames = 0 then streamClose k h ac
    else ac

def setSending (fs : List OutFrame) (ac : Connection) : Connection := { ac with sending := fs }

/-- `ngx_anytls_recycle_sent_frames`; `fuel` is the number of linked frames. -/
def recycleSentFrames (k : Callbacks) : Nat → Connection → Connection
  | 0, ac => ac
  | fuel + 1, ac =>
    match ac.sending with
    | [] => ac
    | f :: fs =>
      if f.rest ≠ [] then ac
      else recycleSentFrames k fuel (defaultFrameHandler k f (setSending fs ac))

/-- Move the head of the stream's own list to `data_out`. -/
def moveToData (h : Handle) (f : OutFrame) (fs : List OutFrame) (ac : Connection) : Connection :=
  { ac with dataOut := ac.dataOut ++ [f] }.upd h fun st => { st with out := fs }

/-- Hand a frame of the stream to `data_out`; a stream with more goes back to the ready queue. -/
def scheduleFrame (h : Handle) (f : OutFrame) (fs : List OutFrame) (ac : Connection) :
    Connection :=
  let ac := moveToData h f fs ac
  if fs ≠ [] then markReady h ac else ac

/-- The loop of `ngx_anytls_schedule_stream_frames`. -/
def scheduleLoop (go : Nat → Nat → Bool) : Nat → Nat → Nat → Connection → Connection
  | 0, _, _, ac => ac
  | fuel + 1, frames, bytes, ac =>
    match ac.readyStreams with
    | [] => ac
    | h :: _ =>
      if !go frames bytes then ac
      else
        let ac := removeReady h ac
        match (ac.streams h).out with
        | [] => scheduleLoop go fuel frames bytes ac
        | f :: fs => scheduleLoop go fuel (frames + 1) (bytes + f.length) (scheduleFrame h f fs ac)

/-- `ngx_anytls_schedule_stream_frames`; each turn takes a ready stream or a frame. -/
def scheduleStreamFrames (maxFrames : Nat) (ac : Connection) : Connection :=
  let byteBudget := min (ac.conf.maxPendingOutput / 4) maxScheduleBytes
  let byteBudget := if byteBudget = 0 then maxFrameData else byteBudget
  let fuel := ac.readyStreams.length + ac.frames
  if 0 < maxFrames then
    scheduleLoop (fun frames bytes => frames < maxFrames && bytes < byteBudget) fuel 0 0 ac
  else
    let minFrames := if minScheduleFrames * 4 < ac.activeStreams then ac.activeStreams / 4
      else minScheduleFrames
    let minFrames := min minFrames 256
    scheduleLoop (fun frames bytes => frames < minFrames || bytes < byteBudget) fuel 0 0 ac

/-- Link the control frames, then the data frames, to the unsent chain. -/
def linkFrames (ac : Connection) : Connection :=
  if ac.unsent ≠ [] then ac
  else
    { ac with
      sending := ac.sending ++ (ac.controlOut ++ ac.dataOut)
      controlOut := []
      dataOut := []
      trace := ac.trace ++ (ac.controlOut ++ ac.dataOut).map .linked }

/-- The linked frames after the socket took `n` bytes of their chain. -/
def takeSent : Nat → List OutFrame → List OutFrame
  | _, [] => []
  | n, f :: fs => { f with rest := f.rest.drop n } :: takeSent (n - f.rest.length) fs

/-- The client socket takes the first `n` bytes of the unsent chain. -/
def clientTake (n : Nat) (ac : Connection) : Connection :=
  { ac with sending := takeSent n ac.sending }.log (.clientSend (ac.unsent.take n))

/-- `ngx_anytls_transport_write_chain` on the client; `none` is `NGX_CHAIN_ERROR`. -/
def clientWriteChain (ac : Connection) : Option Connection :=
  match ac.clientRes with
  | .error => none
  | .again => some ac.clientNext
  | .done n => some (clientTake n ac.clientNext)

/-- `ngx_queue_next`: `none` is the sentinel; a node taken out of its queue points to itself. -/
def queueNext (q : List Handle) (h : Handle) : Option Handle :=
  if h ∈ q then (q.drop (q.idxOf h + 1)).head? else some h

def setHung (ac : Connection) : Connection := { ac with hung := true }

/-- The drained stream leaves the closing queue. -/
def takeClosing (h : Handle) (ac : Connection) : Connection :=
  (unlinkClosing h ac).upd h fun st => { st with closing := false }

/-- The loop of `ngx_anytls_mux_drain_closing_streams`; the next node is read before the close. -/
def drainClosingLoop (k : Callbacks) : Nat → Option Handle → Connection → Connection
  | _, none, ac => ac
  | 0, some _, ac => setHung ac
  | fuel + 1, some h, ac =>
    let next := queueNext ac.closingStreams h
    if (ac.streams h).queuedFrames = 0 then
      drainClosingLoop k fuel next (streamClose k h (takeClosing h ac))
    else drainClosingLoop k fuel next ac

/-- `ngx_anytls_mux_drain_closing_streams`: a walk that ends visits a stream once, and a stream
opened on the way takes a held-back frame. -/
def drainClosingStreams (k : Callbacks) (ac : Connection) : Connection :=
  drainClosingLoop k (ac.nstreams + ac.remnant.length + 1) ac.closingStreams.head? ac

def setWriteArmed (b : Bool) (ac : Connection) : Connection := { ac with writeArmed := b }

def stopWriteTimer (ac : Connection) : Connection := { ac with writeTimer := false }

/-- What `ngx_anytls_flush` does once the chain was written completely. -/
def flushDone (k : Callbacks) (ac : Connection) : Rc × Connection :=
  let r := (setWriteArmed false ac).arm
  if r.1 ≠ .ok then r
  else
    let ac := drainClosingStreams k r.2
    if ac.controlOut ≠ [] ∨ ac.dataOut ≠ [] ∨ ac.readyStreams ≠ [] then (.ok, postWrite ac)
    else (.ok, stopWriteTimer ac)

/-- What `ngx_anytls_flush` does when the socket left a remainder. -/
def flushBlocked (ac : Connection) : Rc × Connection :=
  let r := ac.arm
  if r.1 ≠ .ok then r
  else (.again, armWriteTimer (setWriteArmed true r.2))

/-- `ngx_anytls_flush`. -/
def flush (k : Callbacks) (budget : Nat) (ac : Connection) : Rc × Connection :=
  if ac.clientErr then (.error, ac.clientErrNext)
  else
    let ac := linkFrames (scheduleStreamFrames budget ac.clientErrNext)
    if ac.unsent = [] then (.ok, stopWriteTimer ac)
    else
      match clientWriteChain ac with
      | none => (.error, ac.clientNext)
      | some ac =>
        let ac := recycleSentFrames k ac.sending.length ac
        let ac := if ac.outputPressure then ac else onClientMuxResult k false ac
        if ac.unsent ≠ [] then flushBlocked ac else flushDone k ac

/-- Whether a drained session has nothing left to do. -/
def canFinalize (ac : Connection) : Bool :=
  ac.clientEof && ac.activeStreams = 0 && ac.pendingOutput = 0 && ac.pendingInput = 0 &&
    ac.frames = 0 &&
    ac.streamList.all fun h => !(ac.streams h).resolverPending && (ac.streams h).uotPending = []

/-- The output pressure a flush leaves. -/
def drainPressure (rc : Rc) (ac : Connection) : Connection :=
  match rc with
  | .again => if ac.outputPressure then ac else suspendReads ac
  | .ok => setPressure false ac
  | .error => ac

/-- `ngx_anytls_client_mux_drain`; with `report` the caller passed a result record, whose
`can_finalize` is returned, and blocked upstream reads are resumed. -/
def clientMuxDrain (k : Callbacks) (budget : Nat) (report : Bool) (ac : Connection) :
    Rc × Bool × Connection :=
  let pressureWasOn := ac.outputPressure
  let budget := if budget = 0 then clientDrainFrames else budget
  let ac := drainClosingStreams k (setResumed 0 ac)
  let r := flush k budget ac
  let ac := drainPressure r.1 r.2
  if report then
    (r.1, canFinalize ac, onClientMuxResult k (pressureWasOn && !ac.outputPressure) ac)
  else (r.1, false, ac)

end NgxAnytls
