import NgxAnytls.Output

/-! Pausing and resuming client input (`ngx_anytls_client_handler.c`, `ngx_anytls_upstream.c`). -/

namespace NgxAnytls

/-- The calls that lead back into code which calls the caller: `resume` is
`ngx_anytls_client_input_resume`, which parses held-back frames; `resolved` is
`ngx_anytls_resolve_handler`, which the resolver may call before `ngx_resolve_name` returns. -/
structure Callbacks where
  resume : Connection → Rc × Connection
  resolved : Handle → Answer → Connection → Connection

def setInputPaused (b : Bool) (ac : Connection) : Connection := { ac with inputPaused := b }

def setReadBlocked (b : Bool) (ac : Connection) : Connection := { ac with clientReadBlocked := b }

def postClientRead (ac : Connection) : Connection := { ac with readPosted := true }

def setRemnant (bs : Bytes) (ac : Connection) : Connection := { ac with remnant := bs }

/-- `ngx_anytls_client_input_pause`. -/
def clientInputPause (ac : Connection) : Rc × Connection :=
  let ac := setInputPaused true ac
  if ac.clientReadBlocked then (.ok, ac) else (setReadBlocked true ac).arm

/-- `ngx_anytls_enable_client_read`. -/
def enableClientRead (ac : Connection) : Rc × Connection :=
  let r := (setReadBlocked false ac).arm
  if r.1 ≠ .ok then r
  else if ac.remnant ≠ [] then (.ok, postClientRead r.2)
  else r

/-- `ngx_anytls_client_input_resume`, parsing what is held back with `process`. -/
def inputResume (process : Bytes → Connection → Rc × Connection) (ac : Connection) :
    Rc × Connection :=
  if ac.closing then (.ok, ac)
  else if ac.conf.maxPendingInput / 2 < ac.pendingInput then (.ok, ac)
  else if 0 < ac.blockedInputStreams then (.ok, ac)
  else
    let ac := setInputPaused false ac
    if ac.remnant ≠ [] then
      let r := process ac.remnant (setRemnant [] ac)
      if r.1 ≠ .ok then r
      else if r.2.inputPaused then (.ok, r.2)
      else enableClientRead r.2
    else enableClientRead ac

def markInputBlocked (h : Handle) (ac : Connection) : Connection :=
  if (ac.streams h).inputBlocked then ac
  else
    { ac with blockedInputStreams := ac.blockedInputStreams + 1 }.upd h fun st =>
      { st with inputBlocked := true }

/-- `ngx_anytls_upstream_block_input`. -/
def blockInput (h : Handle) (ac : Connection) : Rc × Connection :=
  clientInputPause (markInputBlocked h ac)

def unblockInput (h : Handle) (ac : Connection) : Connection :=
  if (ac.streams h).inputBlocked then
    { ac with blockedInputStreams := ac.blockedInputStreams - 1 }.upd h fun st =>
      { st with inputBlocked := false }
  else ac

/-- `ngx_anytls_upstream_update_input_state`. -/
def updateInputState (k : Callbacks) (h : Handle) (ac : Connection) : Rc × Connection :=
  if !(ac.streams h).inputBlocked then (.ok, ac)
  else if ac.conf.maxPendingInput / 2 < (ac.streams h).pendingInBytes then (.ok, ac)
  else k.resume (unblockInput h ac)

/-- Throw the backlog of a stream away. -/
def dropPending (h : Handle) (ac : Connection) : Connection :=
  ({ ac with pendingInput := ac.pendingInput - (ac.streams h).pendingInBytes }.upd h fun st =>
    { st with pendingIn := [], pendingInBytes := 0 }).log (.upDiscard h)

/-- `ngx_anytls_upstream_discard_pending`: the result of the resume is ignored. -/
def discardPending (k : Callbacks) (h : Handle) (ac : Connection) : Connection :=
  (k.resume (unblockInput h (dropPending h ac))).2

end NgxAnytls
