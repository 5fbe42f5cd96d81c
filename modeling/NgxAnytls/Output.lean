import NgxAnytls.State

/-! Queueing frames for the client (`ngx_anytls_client_mux.c`). -/

namespace NgxAnytls

def maxOutFrames : Nat := 10000
def maxStreamFrames : Nat := 1024
def maxDirectFrames : Nat := 4

/-- `ngx_anytls_frame_strong_ref`, for a frame of a stream. -/
def frameStrongRef (cmd : Cmd) : Bool := cmd == .psh || cmd == .fin || cmd == .synack

/-- `ngx_anytls_client_mux_has_room`. -/
def hasRoom (len : Nat) (ac : Connection) : Bool :=
  ac.pendingOutput + frameHeaderLen + len ≤ ac.conf.maxPendingOutput

/-- `ngx_anytls_client_mux_mark_ready`: packet-mode streams go to the head. -/
def markReady (h : Handle) (ac : Connection) : Connection :=
  if (ac.streams h).queued then ac
  else
    let ready := if (ac.streams h).upstreamType = .uot then h :: ac.readyStreams
      else ac.readyStreams ++ [h]
    { ac with readyStreams := ready }.upd h fun st => { st with queued := true }

/-- `ngx_anytls_arm_write_timer`. -/
def armWriteTimer (ac : Connection) : Connection :=
  if ac.closing ∨ ac.conf.writeTimeout = 0 then ac else { ac with writeTimer := true }

/-- `ngx_anytls_client_mux_post_write`. -/
def postWrite (ac : Connection) : Connection :=
  if ac.writePending then ac
  else { armWriteTimer { ac with writePending := true } with writePosted := true }

/-- The frame as queued: its owner, its length with the header and its buffer chain. The payload
link is left out of the chain when the length says there is none. -/
def OutFrame.prepare (f : OutFrame) (owner : Option Handle) : OutFrame :=
  let length := f.length + frameHeaderLen
  let chain := if f.inplace then f.payload
    else f.header ++ if length = frameHeaderLen then [] else f.payload
  { f with stream := owner, length := length, rest := chain, blocked := f.blocked || owner.isNone }

/-- The stream's share of the accounting. -/
def countStreamFrame (owner : Option Handle) (f : OutFrame) (ac : Connection) : Connection :=
  match owner with
  | none => ac
  | some h =>
    if frameStrongRef f.cmd then
      ac.upd h fun st => { st with
        queuedFrames := st.queuedFrames + 1
        pendingOut := st.pendingOut + f.length
        finQueued := st.finQueued || f.fin }
    else ac

def setDirectCount (h : Handle) (n : Nat) (ac : Connection) : Connection :=
  ac.upd h fun st => { st with directCount := n }

/-- Put a frame at the end of the stream's own list. -/
def appendOut (h : Handle) (f : OutFrame) (ac : Connection) : Connection :=
  ac.upd h fun st => { st with out := st.out ++ [f] }

/-- The three routes of a frame: control, straight to `data_out`, the stream's own list. -/
def linkFrame (owner : Option Handle) (f : OutFrame) (ac : Connection) : Connection :=
  match owner with
  | none => { ac with controlOut := ac.controlOut ++ [f] }
  | some h =>
    if f.blocked then { ac with controlOut := ac.controlOut ++ [f] }
    else if f.cmd = .psh ∧ (ac.streams h).out = [] ∧ ac.readyStreams = []
        ∧ ac.pendingOutput ≤ ac.conf.maxPendingOutput / 2
        ∧ (ac.streams h).directCount < maxDirectFrames then
      setDirectCount h ((ac.streams h).directCount + 1) { ac with dataOut := ac.dataOut ++ [f] }
    else setDirectCount h 0 (markReady h (appendOut h f ac))

/-- The frame in the totals of the session. -/
def countFrame (f : OutFrame) (ac : Connection) : Connection :=
  { ac with pendingOutput := ac.pendingOutput + f.length, frames := ac.frames + 1 }

/-- `ngx_anytls_queue_prepared_frame`. -/
def queuePreparedFrame (owner : Option Handle) (f : OutFrame) (ac : Connection) :
    Rc × Connection :=
  if maxOutFrames ≤ ac.frames then (.error, ac)
  else if f.cmd = .psh ∧ owner.any fun h => maxStreamFrames ≤ (ac.streams h).queuedFrames then
    (.error, ac)
  else
    let f := f.prepare owner
    let ac := countFrame f (linkFrame owner f (countStreamFrame owner f ac))
    (.ok, postWrite (ac.log (.queued f ac.pendingOutput ac.core.peerVersion)))

/-- `ngx_anytls_client_mux_queue_frame` (`copy`) and `ngx_anytls_client_mux_queue_ref_frame`:
they differ in the allocation of the payload's copy. -/
def queueDataFrame (copy : Bool) (owner : Option Handle) (cmd : Cmd) (streamId : UInt32)
    (data : Bytes) (ac : Connection) : Rc × Connection :=
  if maxFrameData < data.length then (.error, ac)
  else if cmd = .psh ∧ !hasRoom data.length ac then (.again, ac)
  else if !ac.allocOk then (.error, ac.allocNext)
  else
    let ac := ac.allocNext
    let f : OutFrame :=
      { cmd := cmd, fin := cmd == .fin, blocked := !(cmd == .psh || cmd == .fin),
        header := writeFrameHeader cmd.toNat streamId data.length,
        payload := data, length := data.length }
    if copy ∧ data ≠ [] then
      if !ac.allocOk then (.error, ac.allocNext)
      else queuePreparedFrame owner f ac.allocNext
    else queuePreparedFrame owner f ac

def queueFrame := queueDataFrame true
def queueRefFrame := queueDataFrame false

/-- `ngx_anytls_client_mux_queue_chain_frame`: `len` is the caller's count, `buf` the payload's
buffer as it stands. With headroom the header goes in front of the payload. -/
def queueChainFrame (owner : Option Handle) (cmd : Cmd) (streamId : UInt32) (buf : ReadBuf)
    (len : Nat) (roomChecked : Bool) (ac : Connection) : Rc × Connection :=
  if maxFrameData < len then (.error, ac)
  else if cmd = .psh ∧ !roomChecked ∧ !hasRoom len ac then (.again, ac)
  else if !ac.allocOk then (.error, ac.allocNext)
  else
    let header := writeFrameHeader cmd.toNat streamId len
    let f : OutFrame :=
      { cmd := cmd, fin := cmd == .fin, blocked := !(cmd == .psh), header := header,
        payload := buf.data, length := len }
    if cmd = .psh ∧ frameHeaderLen ≤ buf.pos then
      queuePreparedFrame owner { f with payload := header ++ buf.data, inplace := true }
        ac.allocNext
    else queuePreparedFrame owner f ac.allocNext

def markSynackSent (h : Handle) (ac : Connection) : Connection :=
  ac.upd h fun st => { st with synackSent := true }

/-- `ngx_anytls_client_mux_send_synack`: only the first one counts, and only from version 2 on
is there a frame. -/
def sendSynack (h : Handle) (data : Bytes) (ac : Connection) : Rc × Connection :=
  if (ac.streams h).synackSent then (.ok, ac.log (.synackSkipped h data))
  else
    let ac := markSynackSent h ac
    if ac.core.peerVersion < 2 then (.ok, ac.log (.synackSkipped h data))
    else
      let r := queueRefFrame (some h) .synack (ac.streams h).id data ac
      if r.1 ≠ .ok then (r.1, r.2.log (.synackSkipped h data)) else r

/-- `ngx_anytls_client_mux_queue_error`. -/
def queueError (data : Bytes) (ac : Connection) : Rc × Connection :=
  queueRefFrame none .alert 0 data ac

end NgxAnytls
