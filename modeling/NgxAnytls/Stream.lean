import NgxAnytls.Input

/-! The stream table and the closing of streams (`ngx_anytls_stream.c`). -/

namespace NgxAnytls

/-- The table size `ngx_anytls_connection_init` chooses. -/
def htSize (conf : Conf) : Nat :=
  let size : UInt32 := UInt32.ofNat (conf.maxStreams * 2) - 1
  let size := size ||| (size >>> 1)
  let size := size ||| (size >>> 2)
  let size := size ||| (size >>> 4)
  let size := size ||| (size >>> 8)
  let size := size ||| (size >>> 16)
  let size := size + 1
  if size < 64 then 64 else size.toNat

def htIndex (ac : Connection) (id : UInt32) : Nat := id.toNat &&& (ac.ht.length - 1)
def htNext (ac : Connection) (idx : Nat) : Nat := (idx + 1) &&& (ac.ht.length - 1)

/-- `ngx_anytls_stream_ht_find`; `fuel` counts the cells still to be looked at. -/
def htFindLoop (ac : Connection) (id : UInt32) : Nat → Nat → Option Handle
  | 0, _ => none
  | fuel + 1, idx =>
    match ac.ht.getD idx .free with
    | .free => none
    | .tomb => htFindLoop ac id fuel (htNext ac idx)
    | .used h =>
      if (ac.streams h).id = id then some h else htFindLoop ac id fuel (htNext ac idx)

def htFind (ac : Connection) (id : UInt32) : Option Handle :=
  htFindLoop ac id ac.ht.length (htIndex ac id)

/-- The first free cell or tombstone on the probe path (`ngx_anytls_stream_ht_insert`). -/
def htInsertLoop (ac : Connection) : Nat → Nat → Option Nat
  | 0, _ => none
  | fuel + 1, idx =>
    match ac.ht.getD idx .free with
    | .free | .tomb => some idx
    | .used _ => htInsertLoop ac fuel (htNext ac idx)

/-- The cell that holds the stream (`ngx_anytls_stream_ht_remove`). -/
def htRemoveLoop (ac : Connection) (h : Handle) : Nat → Nat → Option Nat
  | 0, _ => none
  | fuel + 1, idx =>
    if ac.ht.getD idx .free = .used h then some idx
    else htRemoveLoop ac h fuel (htNext ac idx)

def htRemove (h : Handle) (ac : Connection) : Connection :=
  match htRemoveLoop ac h ac.ht.length (htIndex ac (ac.streams h).id) with
  | none => ac
  | some idx => { ac with ht := ac.ht.set idx .tomb }

/-- A new stream, not in the table yet. -/
def newStream (id : UInt32) (ac : Connection) : Connection :=
  ({ ac with nstreams := ac.nstreams + 1 }.upd ac.nstreams fun _ => { id := id }).log
    (.streamOpen ac.nstreams id)

/-- The stream in the cell found for it. -/
def tableInsert (h : Handle) (idx : Nat) (ac : Connection) : Connection :=
  { ac with
    ht := ac.ht.set idx (.used h)
    streamList := ac.streamList ++ [h]
    activeStreams := ac.activeStreams + 1 }

/-- `ngx_anytls_stream_alloc`; a stream that finds no cell is lost. -/
def streamAlloc (id : UInt32) (ac : Connection) : Option Handle × Connection :=
  if !ac.allocOk then (none, ac.allocNext)
  else
    let h := ac.nstreams
    let ac := newStream id ac.allocNext
    match htInsertLoop ac ac.ht.length (htIndex ac id) with
    | none => (none, ac)
    | some idx => (some h, tableInsert h idx ac)

/-- `ngx_anytls_stream_find`. -/
def streamFind (id : UInt32) (ac : Connection) : Option Handle :=
  match htFind ac id with
  | none => none
  | some h => if (ac.streams h).closedByProtocol then none else some h

/-- `ngx_anytls_stream_create_if_absent`. -/
def streamCreateIfAbsent (id : UInt32) (ac : Connection) : Option Handle × Connection :=
  match htFind ac id with
  | some h => (some h, ac)
  | none =>
    if ac.conf.maxStreams ≤ ac.activeStreams then (none, ac) else streamAlloc id ac

/-- `ngx_anytls_stream_remove_ready`. -/
def removeReady (h : Handle) (ac : Connection) : Connection :=
  if (ac.streams h).queued then
    { ac with readyStreams := ac.readyStreams.erase h }.upd h fun st => { st with queued := false }
  else ac

def unlinkReadReady (h : Handle) (ac : Connection) : Connection :=
  if (ac.streams h).upstreamReadReady then
    { ac with readReady := ac.readReady.erase h }.upd h fun st =>
      { st with upstreamReadReady := false }
  else ac

def unlinkWriteReady (h : Handle) (ac : Connection) : Connection :=
  if (ac.streams h).upstreamWriteReady then
    { ac with writeReady := ac.writeReady.erase h }.upd h fun st =>
      { st with upstreamWriteReady := false }
  else ac

/-- `ngx_anytls_upstream_mux_unblock_read`. -/
def unblockRead (h : Handle) (ac : Connection) : Connection :=
  if (ac.streams h).upstreamReadBlocked then
    { ac with blockedUpstreamReads := ac.blockedUpstreamReads.erase h }.upd h fun st =>
      { st with upstreamReadBlocked := false }
  else ac

/-- `ngx_anytls_upstream_mux_cancel_connect`. -/
def cancelConnect (h : Handle) (ac : Connection) : Connection :=
  if (ac.streams h).connectPending then
    { ac with connectPending := ac.connectPending.erase h }.upd h fun st =>
      { st with connectPending := false }
  else ac

/-- `ngx_anytls_upstream_mux_stream_closing`. -/
def muxStreamClosing (h : Handle) (ac : Connection) : Connection :=
  cancelConnect h (unblockRead h (unlinkWriteReady h (unlinkReadReady h ac)))

/-- `ngx_anytls_stream_mark_closed_by_protocol`. -/
def markClosedByProtocol (h : Handle) (ac : Connection) : Connection :=
  if (ac.streams h).closedByProtocol then ac
  else ac.upd h fun st => { st with closedByProtocol := true, inClosed := true }

/-- `ngx_anytls_resolver_cancel`. -/
def resolverCancel (h : Handle) (ac : Connection) : Connection :=
  ac.upd h fun st => { st with
    resolverCtx := false, resolverPending := false, resolverTarget := .none
    resolverDomain := [], resolverPort := 0 }

/-- `ngx_anytls_transport_close` of the upstream connection. -/
def dropUpstream (h : Handle) (ac : Connection) : Connection :=
  ac.upd h fun st => { st with upstream := none }

def clearUotPending (h : Handle) (ac : Connection) : Connection :=
  ac.upd h fun st => { st with uotPending := [], uotPendingCount := 0, uotPendingBytes := 0 }

/-- Give the stream's UoT slot back. -/
def releaseUotSlot (h : Handle) (ac : Connection) : Connection :=
  if (ac.streams h).uotCounted then
    { ac with uotStreams := ac.uotStreams - 1 }.upd h fun st => { st with uotCounted := false }
  else ac

/-- Close the UDP socket and stop its idle timer. -/
def closeUdp (h : Handle) (ac : Connection) : Connection :=
  ac.upd h fun st => { st with uotTimer := false, udp := none }

/-- `ngx_anytls_uot_close`. -/
def uotClose (h : Handle) (ac : Connection) : Connection :=
  closeUdp h (clearUotPending h (resolverCancel h (releaseUotSlot h ac)))

def uotCloseIfCounted (h : Handle) (ac : Connection) : Connection :=
  if (ac.streams h).uotCounted then uotClose h ac else ac

/-- Record that the stream's state is about to be set. -/
def logState (h : Handle) (state : StreamState) (ac : Connection) : Connection :=
  ac.log (.setState h (ac.streams h).state state)

/-- The state change of a delayed close, with its place in the closing queue. -/
def enterClosing (h : Handle) (ac : Connection) : Connection :=
  let ac := logState h .closing ac
  let queue := if (ac.streams h).closing then ac.closingStreams else ac.closingStreams ++ [h]
  ({ ac with closingStreams := queue }.upd h fun st =>
    { st with state := .closing, delayedClose := true, closing := true }).log (.streamClosing h)

/-- The close while frames of the stream are still to be sent. -/
def delayClose (k : Callbacks) (h : Handle) (ac : Connection) : Connection :=
  cancelConnect h <| unblockRead h <| discardPending k h <| uotCloseIfCounted h <|
    dropUpstream h <| resolverCancel h <| enterClosing h ac

def enterClosed (h : Handle) (ac : Connection) : Connection :=
  let ac := logState h .closed ac
  (ac.upd h fun st => { st with state := .closed, delayedClose := false, closing := false }).log
    (.streamClosed h)

/-- Record that a counter of the output is set to zero. -/
def noteClamped (clamped : Bool) (ac : Connection) : Connection :=
  if clamped then ac.log .clamped else ac

/-- A counter is smaller than what `dropOut` takes from it. -/
def dropClamps (h : Handle) (ac : Connection) : Bool :=
  ac.pendingOutput < ((ac.streams h).out.map OutFrame.length).sum ||
    ac.frames < (ac.streams h).out.length ||
    (ac.streams h).queuedFrames < (ac.streams h).out.length

/-- Give up the frames the stream has not handed to `data_out`. -/
def dropOut (h : Handle) (ac : Connection) : Connection :=
  let ac := noteClamped (dropClamps h ac) ac
  let out := (ac.streams h).out
  { ac with
    pendingOutput := out.foldl (fun n (f : OutFrame) => n - f.length) ac.pendingOutput
    frames := ac.frames - out.length }.upd h fun st =>
      { st with out := [], pendingOut := 0, queuedFrames := st.queuedFrames - out.length }

def unlinkClosing (h : Handle) (ac : Connection) : Connection :=
  { ac with closingStreams := ac.closingStreams.erase h }

/-- Leave the stream list; the stream is not active any more. -/
def unlinkStream (h : Handle) (ac : Connection) : Connection :=
  { ac with streamList := ac.streamList.erase h, activeStreams := ac.activeStreams - 1 }

/-- Leave the closing queue, the stream list and the table. -/
def forgetStream (wasClosing : Bool) (h : Handle) (ac : Connection) : Connection :=
  htRemove h (unlinkStream h (if wasClosing then unlinkClosing h ac else ac))

/-- The close of a stream with no frame left, or of a session that is closing. -/
def fullClose (k : Callbacks) (h : Handle) (ac : Connection) : Connection :=
  forgetStream (ac.streams h).closing h <| cancelConnect h <| discardPending k h <|
    clearUotPending h <| uotCloseIfCounted h <| dropUpstream h <| dropOut h <|
      resolverCancel h <| removeReady h <| enterClosed h ac

/-- `ngx_anytls_stream_close`. -/
def streamClose (k : Callbacks) (h : Handle) (ac : Connection) : Connection :=
  if (ac.streams h).state = .closed then ac
  else
    let ac := muxStreamClosing h (markClosedByProtocol h ac)
    if !ac.closing ∧ (ac.streams h).queuedFrames ≠ 0 then delayClose k h ac
    else fullClose k h ac

/-- Whether the next control frame can be queued. -/
def hasFrame (ac : Connection) : Bool := ac.frames < maxOutFrames && ac.allocOk

/-- Record why the stream is about to be closed. -/
def logClose (cause : CloseCause) (h : Handle) (ac : Connection) : Connection :=
  ac.log (.closeCall h cause ac.core.peerVersion (ac.streams h).synackSent (hasFrame ac))

/-- `ngx_anytls_stream_close` after a failure. -/
def closeFailed (k : Callbacks) (cause : CloseCause) (h : Handle) (ac : Connection) : Connection :=
  streamClose k h (logClose cause h ac)

/-- A SYNACK with a text, and `ngx_anytls_stream_close`. -/
def synackAndClose (k : Callbacks) (cause : CloseCause) (h : Handle) (text : Bytes)
    (ac : Connection) : Connection :=
  streamClose k h (sendSynack h text (logClose cause h ac)).2

def closeOutput (h : Handle) (ac : Connection) : Connection :=
  ac.upd h fun st => { st with outClosed := true }

/-- `ngx_anytls_stream_send_fin_and_close`. -/
def sendFinAndClose (k : Callbacks) (h : Handle) (ac : Connection) : Rc × Connection :=
  let ac := closeOutput h (markClosedByProtocol h ac)
  if !(ac.streams h).finQueued ∧ !(ac.streams h).finSent then
    let r := queueFrame (some h) .fin (ac.streams h).id [] ac
    if r.1 ≠ .ok then r
    else (.ok, streamClose k h r.2)
  else (.ok, streamClose k h ac)

end NgxAnytls
