import NgxAnytls.Protocol

/-! The protocol core: what a client frame asks for (`ngx_anytls_session_core.c`). -/

namespace NgxAnytls

/-- `ngx_anytls_conn_state_e`. -/
inductive ConnState where
  | auth | settings | ready | fallback | closing
  deriving DecidableEq, Repr

/-- `ngx_anytls_session_core_t`. -/
structure SessionCore where
  settingsReceived : Bool := false
  peerVersion : Nat := 1
  state : ConnState := .auth
  paddingMd5 : Bytes := []
  paddingData : Bytes := []
  deriving DecidableEq, Repr

/-- `ngx_anytls_action_t`. -/
inductive Action where
  | queueControl (cmd : Cmd) (streamId : UInt32) (data : Bytes)
  | openStream (streamId : UInt32)
  | forwardClientPayload (streamId : UInt32) (data : Bytes)
  | clientFin (streamId : UInt32)
  | protocolError (data : Bytes)
  | clientAlert (data : Bytes)
  deriving DecidableEq, Repr

def sessionMaxActions : Nat := 4

/-- `ngx_anytls_session_add_action`: `none` when the array is full. -/
def addAction (result : List Action) (a : Action) : Option (List Action) :=
  if sessionMaxActions ≤ result.length then none else some (result ++ [a])

/-- `client did not send its settings`. -/
def noSettingsText : Bytes :=
  [99, 108, 105, 101, 110, 116, 32, 100, 105, 100, 32, 110, 111, 116, 32, 115, 101, 110, 100, 32,
   105, 116, 115, 32, 115, 101, 116, 116, 105, 110, 103, 115]

/-- `v=2`. -/
def serverSettingsText : Bytes := [118, 61, 50]

/-- The answer of `ngx_anytls_session_core_handle_frame`: `ok = false` is `NGX_ERROR`. -/
structure CoreResult where
  ok : Bool
  core : SessionCore
  actions : List Action
  deriving DecidableEq, Repr

/-- One action, or `NGX_ERROR` when it does not fit. -/
def CoreResult.add (r : CoreResult) (a : Action) : CoreResult :=
  match addAction r.actions a with
  | none => { r with ok := false }
  | some as => { r with actions := as }

/-- The SETTINGS case once the text is parsed; an empty payload is parsed like any other. -/
def handleSettings (core : SessionCore) (data : Bytes) : CoreResult :=
  let settings := parseSettings data
  let core := { core with
    settingsReceived := true, peerVersion := settings.version, state := .ready }
  let r : CoreResult := ⟨true, core, []⟩
  let r :=
    if settings.paddingMd5.length ≠ 32 ∨ settings.paddingMd5 ≠ core.paddingMd5.take 32 then
      r.add (.queueControl .updatePadding 0 core.paddingData)
    else r
  if !r.ok then r
  else if 2 ≤ core.peerVersion then r.add (.queueControl .serverSettings 0 serverSettingsText)
  else r

/-- `ngx_anytls_session_core_handle_frame`; `alloc` is the outcome of the copies SETTINGS makes. -/
def handleFrame (core : SessionCore) (frame : Frame) (alloc : Bool := true) : CoreResult :=
  let r : CoreResult := ⟨true, core, []⟩
  match Cmd.ofByte? frame.cmd with
  | some .waste => r
  | some .settings => if !alloc then ⟨false, core, []⟩ else handleSettings core frame.data
  | some .heartRequest => r.add (.queueControl .heartResponse frame.streamId [])
  | some .heartResponse => r
  | some .syn =>
    if !core.settingsReceived then { r.add (.protocolError noSettingsText) with ok := false }
    else if frame.streamId = 0 then ⟨false, core, []⟩
    else r.add (.openStream frame.streamId)
  | some .psh => r.add (.forwardClientPayload frame.streamId frame.data)
  | some .fin => r.add (.clientFin frame.streamId)
  | some .alert => if frame.dataLen = 0 then r else r.add (.clientAlert frame.data)
  | some .synack | some .updatePadding | some .serverSettings | none => r

theorem CoreResult.add_length (r : CoreResult) (a : Action) :
    (r.add a).actions.length ≤ r.actions.length + 1 := by
  unfold CoreResult.add addAction
  split_ifs <;> simp

private theorem handleSettings_actions_length (core : SessionCore) (data : Bytes) :
    (handleSettings core data).actions.length ≤ 2 := by
  unfold handleSettings
  simp only
  split_ifs <;>
    first
    | exact (CoreResult.add_length _ _).trans (Nat.succ_le_succ (CoreResult.add_length _ _))
    | exact (CoreResult.add_length _ _).trans (by simp)
    | simp

/-- The action array is never too small. -/
theorem handleFrame_actions_length (core : SessionCore) (frame : Frame) (alloc : Bool) :
    (handleFrame core frame alloc).actions.length ≤ 2 := by
  unfold handleFrame
  split <;> try split_ifs
  all_goals first
    | exact handleSettings_actions_length _ _
    | exact (CoreResult.add_length _ _).trans (by simp)
    | simp

end NgxAnytls
