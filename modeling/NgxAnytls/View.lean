import NgxAnytls.Session
import Mathlib.Logic.Relation

/-! The abstract session: what a stream and a connection are once sockets, timers, scheduling
queues, resolver bookkeeping and the environment are left out, and what one effect of the module
can do to it. -/

namespace NgxAnytls

structure StreamView where
  id : UInt32
  state : StreamState
  upstreamType : UpstreamType
  hasUpstream : Bool
  pendingIn : List Pending
  out : List OutFrame
  pendingOut : Nat
  queuedFrames : Nat
  inClosed : Bool
  closedByProtocol : Bool
  finQueued : Bool
  finSent : Bool
  synackSent : Bool
  pendingShutdown : Bool
  firstPshSeen : Bool
  firstPshAcc : Option Bytes
  lookup : Bool

/-- `lookup`: the answer to a lookup is to open the TCP upstream. -/
def Stream.view (st : Stream) : StreamView where
  id := st.id
  state := st.state
  upstreamType := st.upstreamType
  hasUpstream := st.upstream.isSome
  pendingIn := st.pendingIn
  out := st.out
  pendingOut := st.pendingOut
  queuedFrames := st.queuedFrames
  inClosed := st.inClosed
  closedByProtocol := st.closedByProtocol
  finQueued := st.finQueued
  finSent := st.finSent
  synackSent := st.synackSent
  pendingShutdown := st.pendingShutdown
  firstPshSeen := st.firstPshSeen
  firstPshAcc := st.firstPshAcc
  lookup := st.resolverCtx && st.resolverTarget == .tcp

def StreamView.backlog (st : StreamView) : Bytes := st.pendingIn.flatMap Pending.rest

/-- The states in which the upstream connection carries data. -/
def StreamView.IsOpen (st : StreamView) : Prop := st.state = .connected ∨ st.state = .halfClosed

/-- The states in which there is no upstream connection that carries or carried data. -/
def StreamView.IsEarly (st : StreamView) : Prop := st.state = .init ∨ st.state = .connecting

structure View where
  conf : Conf
  state : ConnState
  streams : Handle → StreamView
  nstreams : Nat
  ht : List Slot
  closingStreams : List Handle
  controlOut : List OutFrame
  dataOut : List OutFrame
  sending : List OutFrame
  frames : Nat
  pendingOutput : Nat
  remnant : Bytes
  auth : Bytes
  authenticated : Bool
  authHashMatched : Bool
  core : SessionCore
  inputPaused : Bool
  clientReadBlocked : Bool
  closing : Bool
  replay : Option FbBuf
  clientBuf : Option FbBuf
  trace : List Obs

def Connection.view (ac : Connection) : View where
  conf := ac.conf
  state := ac.state
  streams := fun h => (ac.streams h).view
  nstreams := ac.nstreams
  ht := ac.ht
  closingStreams := ac.closingStreams
  controlOut := ac.controlOut
  dataOut := ac.dataOut
  sending := ac.sending
  frames := ac.frames
  pendingOutput := ac.pendingOutput
  remnant := ac.remnant
  auth := ac.auth
  authenticated := ac.authenticated
  authHashMatched := ac.authHashMatched
  core := ac.core
  inputPaused := ac.inputPaused
  clientReadBlocked := ac.clientReadBlocked
  closing := ac.closing
  replay := ac.fb.replay
  clientBuf := ac.fb.clientBuf
  trace := ac.trace

namespace View

def upd (v : View) (h : Handle) (f : StreamView → StreamView) : View :=
  { v with streams := Function.update v.streams h (f (v.streams h)) }

def log (v : View) (o : Obs) : View := { v with trace := v.trace ++ [o] }

@[simp] theorem log_trace (v : View) (o : Obs) : (v.log o).trace = v.trace ++ [o] := rfl
@[simp] theorem upd_trace (v : View) (h : Handle) (f) : (v.upd h f).trace = v.trace := rfl
@[simp] theorem log_streams (v : View) (o : Obs) : (v.log o).streams = v.streams := rfl

@[simp] theorem upd_streams (v : View) (h h' : Handle) (f : StreamView → StreamView) :
    (v.upd h f).streams h' = if h' = h then f (v.streams h) else v.streams h' := by
  by_cases e : h' = h
  · subst e; simp [upd]
  · simp [upd, e]

theorem upd_upd (v : View) (h : Handle) (f g : StreamView → StreamView) :
    (v.upd h f).upd h g = v.upd h fun st => g (f st) := by simp [upd]

theorem upd_congr (v : View) (h : Handle) {f g : StreamView → StreamView}
    (hfg : f (v.streams h) = g (v.streams h)) : v.upd h f = v.upd h g := by simp [upd, hfg]

end View

/-- A FIN of the stream was queued. -/
def FinQueued (h : Handle) (t : List Obs) : Prop :=
  ∃ f n version, Obs.queued f n version ∈ t ∧ f.cmd = .fin ∧ f.stream = some h

/-- A SYNACK of the stream with a text was queued. -/
def SynackErrorQueued (h : Handle) (t : List Obs) : Prop :=
  ∃ f n version, Obs.queued f n version ∈ t ∧ f.cmd = .synack ∧ f.stream = some h ∧ f.payload ≠ []

/-- Whether a SYNACK with a text is asked for before the close. -/
def CloseCause.hasText : CloseCause → Bool
  | .connectTimeout | .connectFailed | .resolveFailed | .uotLimit => true
  | _ => false

/-- Whether the client is told of a close for that cause: a SYNACK with a text is asked for, and
only a client of version 2 gets it, once a stream and if it can be queued. -/
def CloseCause.Tells (cause : CloseCause) (peerVersion : Nat) (synackSent room : Bool) : Prop :=
  cause.hasText = true ∧ 2 ≤ peerVersion ∧ synackSent = false ∧ room = true

theorem CloseCause.not_tells {cause : CloseCause} (hc : cause.hasText = false) {version : Nat}
    {synackSent room : Bool} : ¬cause.Tells version synackSent room := by
  rintro ⟨htext, -⟩
  rw [hc] at htext
  cases htext

/-- The stream was closed for a cause of which the client is not told. -/
def UntoldClose (h : Handle) (t : List Obs) : Prop :=
  ∃ cause version synackSent room, Obs.closeCall h cause version synackSent room ∈ t ∧
    ¬cause.Tells version synackSent room

/-- The client closed the stream. -/
def ClientFin (h : Handle) (t : List Obs) : Prop := ∃ s, Obs.clientFin h s ∈ t

/-- What stands before the close of a stream of an open session. -/
def CloseReason (h : Handle) (t : List Obs) : Prop :=
  FinQueued h t ∨ SynackErrorQueued h t ∨ ClientFin h t ∨ UntoldClose h t

/-- A stream may be closed: the session ends, it was closed before, or there is a reason. -/
def View.MayClose (v : View) (h : Handle) : Prop :=
  v.closing ∨ .streamClosing h ∈ v.trace ∨ CloseReason h v.trace

/-- A frame whose header says what its buffers hold. The one exception is the empty datagram of a
connected UoT socket: the length counts its two length bytes, the buffer does not hold them. -/
structure OutFrame.Built (f : OutFrame) (id : UInt32) (body : Bytes) (t : List Obs) : Prop where
  header : f.header = writeFrameHeader f.cmd.toNat id f.length
  payload : f.payload = if f.inplace then f.header ++ body else body
  length : f.length = body.length ∨
    (f.length = 2 ∧ body = [] ∧ f.cmd = .psh ∧ ∃ h, Obs.udpRecv h [] ∈ t)
  le : f.length ≤ maxFrameData
  fin : f.fin = decide (f.cmd = .fin)
  rest : f.rest = []

/-- Where a frame goes. -/
inductive Route where
  | control | data | own (h : Handle)

def View.place (v : View) (f : OutFrame) : Route → View
  | .control => { v with controlOut := v.controlOut ++ [f] }
  | .data => { v with dataOut := v.dataOut ++ [f] }
  | .own h => v.upd h fun st => { st with out := st.out ++ [f] }

/-- A frame in the counters of its stream and of the session. -/
def View.count (v : View) (owner : Option Handle) (f : OutFrame) : View :=
  let v := { v with frames := v.frames + 1, pendingOutput := v.pendingOutput + f.length }
  match owner with
  | none => v
  | some h => v.upd h fun st => { st with
    queuedFrames := st.queuedFrames + 1
    pendingOut := st.pendingOut + f.length
    finQueued := st.finQueued || f.fin }

/-- The view once the frame is counted and linked. -/
def View.enqueue (v : View) (owner : Option Handle) (f : OutFrame) (route : Route) : View :=
  (v.count owner (f.prepare owner)).place (f.prepare owner) route

/-- The view once the first linked frame is sent and accounted. -/
def View.retire (v : View) (f : OutFrame) (fs : List OutFrame) : View :=
  let v := { v with
    sending := fs, frames := v.frames - 1, pendingOutput := v.pendingOutput - f.length }
  match f.stream with
  | none => v
  | some h => v.upd h fun st => { st with
    queuedFrames := st.queuedFrames - 1
    pendingOut := st.pendingOut - f.length
    finSent := st.finSent || f.fin }

/-- The view once the frames in the stream's own list are given up. -/
def View.dropOut (v : View) (h : Handle) : View :=
  { v with
    frames := v.frames - (v.streams h).out.length
    pendingOutput := (v.streams h).out.foldl (fun n (f : OutFrame) => n - f.length)
      v.pendingOutput }.upd h fun st =>
    { st with out := [], pendingOut := 0, queuedFrames := st.queuedFrames - st.out.length }

section Parts

variable (v : View) (owner : Option Handle) (f : OutFrame) (route : Route) (fs : List OutFrame)
  (h : Handle)

@[simp] theorem View.enqueue_trace : (v.enqueue owner f route).trace = v.trace := by
  cases owner <;> cases route <;> rfl

@[simp] theorem View.enqueue_nstreams : (v.enqueue owner f route).nstreams = v.nstreams := by
  cases owner <;> cases route <;> rfl

@[simp] theorem View.enqueue_closing : (v.enqueue owner f route).closing = v.closing := by
  cases owner <;> cases route <;> rfl

@[simp] theorem View.enqueue_conf : (v.enqueue owner f route).conf = v.conf := by
  cases owner <;> cases route <;> rfl

@[simp] theorem View.enqueue_core : (v.enqueue owner f route).core = v.core := by
  cases owner <;> cases route <;> rfl

@[simp] theorem View.retire_trace : (v.retire f fs).trace = v.trace := by
  unfold View.retire; cases f.stream <;> rfl

@[simp] theorem View.retire_nstreams : (v.retire f fs).nstreams = v.nstreams := by
  unfold View.retire; cases f.stream <;> rfl

@[simp] theorem View.retire_closing : (v.retire f fs).closing = v.closing := by
  unfold View.retire; cases f.stream <;> rfl

@[simp] theorem View.retire_conf : (v.retire f fs).conf = v.conf := by
  unfold View.retire; cases f.stream <;> rfl

@[simp] theorem View.retire_core : (v.retire f fs).core = v.core := by
  unfold View.retire; cases f.stream <;> rfl

@[simp] theorem View.dropOut_trace : (v.dropOut h).trace = v.trace := rfl
@[simp] theorem View.dropOut_nstreams : (v.dropOut h).nstreams = v.nstreams := rfl
@[simp] theorem View.dropOut_closing : (v.dropOut h).closing = v.closing := rfl
@[simp] theorem View.dropOut_conf : (v.dropOut h).conf = v.conf := rfl

end Parts

/-- A counter is smaller than what the account of a sent frame takes from it. -/
def View.RetireClamps (v : View) (f : OutFrame) : Prop :=
  v.pendingOutput < f.length ∨ v.frames = 0 ∨ ∃ h, f.stream = some h ∧
    ((v.streams h).queuedFrames = 0 ∨ (v.streams h).pendingOut < f.length)

/-- A counter is smaller than what giving up the stream's own list takes from it. -/
def View.DropClamps (v : View) (h : Handle) : Prop :=
  v.pendingOutput < ((v.streams h).out.map OutFrame.length).sum ∨
    v.frames < (v.streams h).out.length ∨ (v.streams h).queuedFrames < (v.streams h).out.length

/-- The states a state may be followed by. -/
def StreamState.Before (old new : StreamState) : Prop :=
  match old with
  | .closed => new = .closed
  | .closing => new = .closing ∨ new = .closed
  | .connected | .halfClosed => new ≠ .init ∧ new ≠ .connecting
  | .init | .connecting => True

instance (old new : StreamState) : Decidable (old.Before new) :=
  match old with
  | .closed => inferInstanceAs (Decidable (new = .closed))
  | .closing => inferInstanceAs (Decidable (new = .closing ∨ new = .closed))
  | .connected => inferInstanceAs (Decidable (new ≠ .init ∧ new ≠ .connecting))
  | .halfClosed => inferInstanceAs (Decidable (new ≠ .init ∧ new ≠ .connecting))
  | .init => isTrue trivial
  | .connecting => isTrue trivial

section Streams

variable {v : View} {r : StreamView → StreamView → Prop}

/-- A change of one stream, seen from every stream. -/
theorem View.rel_ite (hrefl : ∀ st, r st st) {g : Handle} {st : StreamView}
    (hf : r (v.streams g) st) (h : Handle) :
    r (v.streams h) (if h = g then st else v.streams h) := by
  split_ifs with hg
  · exact hg ▸ hf
  · exact hrefl _

/-- A queued frame changes the counters and the list of its stream. -/
theorem View.rel_enqueue (hrefl : ∀ st, r st st) (htrans : ∀ a b c, r a b → r b c → r a c)
    {owner : Option Handle} {f : OutFrame} {route : Route}
    (hcount : ∀ (st : StreamView) queued pending fin, r st { st with
      queuedFrames := queued, pendingOut := pending, finQueued := fin })
    (hout : ∀ (st : StreamView) out, r st { st with out := out }) (h : Handle) :
    r (v.streams h) ((v.enqueue owner f route).streams h) := by
  have hcounted : r (v.streams h) ((v.count owner (f.prepare owner)).streams h) := by
    cases owner with
    | none => exact hrefl _
    | some g =>
      simp only [View.count, View.upd_streams]
      exact View.rel_ite hrefl (hcount _ _ _ _) h
  cases route with
  | control => exact hcounted
  | data => exact hcounted
  | own g =>
    refine htrans _ _ _ hcounted ?_
    simp only [View.enqueue, View.place, View.upd_streams]
    split_ifs with hg
    · exact hg ▸ hout _ _
    · exact hrefl _

/-- A sent frame changes the counters of its stream. -/
theorem View.rel_retire (hrefl : ∀ st, r st st) {f : OutFrame} {fs : List OutFrame}
    (hcount : ∀ (st : StreamView) queued pending fin, r st { st with
      queuedFrames := queued, pendingOut := pending, finSent := fin }) (h : Handle) :
    r (v.streams h) ((v.retire f fs).streams h) := by
  unfold View.retire
  cases f.stream with
  | none => exact hrefl _
  | some g =>
    simp only [View.upd_streams]
    exact View.rel_ite hrefl (hcount _ _ _ _) h

end Streams

/-- Records of the trace that go with no change of the view. -/
def Obs.IsNote : Obs → Prop
  | .udpSend .. | .udpRecv .. | .closeCall .. | .synackSkipped .. | .resumeFailed ..
  | .fallbackRelay .. | .ending => True
  | _ => False

def unaccStep (h : Handle) (n : Nat) : Obs → Nat
  | .upChain g bs => if g = h then n + bs.length else n
  | .upAccount g m => if g = h then n - m else n
  | _ => n

/-- The backlog bytes the upstream socket took that are not accounted as sent. -/
def unacc (h : Handle) (t : List Obs) : Nat := t.foldl (unaccStep h) 0

@[simp] theorem unacc_append (h : Handle) (t : List Obs) (o : Obs) :
    unacc h (t ++ [o]) = unaccStep h (unacc h t) o := by simp [unacc]

/-- One effect of the code below the frame dispatcher. -/
inductive Act : View → View → Prop
  | note {v} (o : Obs) (ho : o.IsNote) : Act v (v.log o)
  | state {v} (h : Handle) (new : StreamState) (hnew : (v.streams h).state.Before new) :
      Act v (v.log (.setState h (v.streams h).state new))
  | clamped {v} (hc : (∃ f fs, v.sending = f :: fs ∧ v.RetireClamps f) ∨ ∃ h, v.DropClamps h) :
      Act v (v.log .clamped)
  | queue {v} (owner : Option Handle) (f : OutFrame) (id : UInt32) (body : Bytes) (route : Route)
      (howner : ∀ h, owner = some h → h < v.nstreams ∧ id = (v.streams h).id)
      (hroute : ∀ h, route = .own h → owner = some h)
      (hcmd : owner.isSome → frameStrongRef f.cmd)
      (hroom : f.cmd = .psh → v.pendingOutput + frameHeaderLen + f.length ≤ v.conf.maxPendingOutput)
      (hversion : owner.isSome → f.cmd = .synack → 2 ≤ v.core.peerVersion)
      (hf : f.Built id body v.trace) :
      Act v ((v.enqueue owner f route).log
        (.queued (f.prepare owner) (v.pendingOutput + (f.prepare owner).length) v.core.peerVersion))
  | schedule {v} (h : Handle) (f : OutFrame) (fs : List OutFrame)
      (hout : (v.streams h).out = f :: fs) :
      Act v ({ v with dataOut := v.dataOut ++ [f] }.upd h fun st => { st with out := fs })
  | link {v} (hsent : v.sending.flatMap OutFrame.rest = []) :
      Act v { v with
        sending := v.sending ++ (v.controlOut ++ v.dataOut), controlOut := [], dataOut := []
        trace := v.trace ++ (v.controlOut ++ v.dataOut).map .linked }
  | take {v} (n : Nat) :
      Act v ({ v with sending := takeSent n v.sending }.log
        (.clientSend ((v.sending.flatMap OutFrame.rest).take n)))
  | retire {v} (f : OutFrame) (fs : List OutFrame) (hs : v.sending = f :: fs) (hr : f.rest = []) :
      Act v (v.retire f fs)
  | synack {v} (h : Handle) : Act v (v.upd h fun st => { st with synackSent := true })
  | markClosed {v} (h : Handle) :
      Act v (v.upd h fun st => { st with closedByProtocol := true, inClosed := true })
  | closing {v} (h : Handle) (hmark : (v.streams h).closedByProtocol) (hmay : v.MayClose h)
      (hopen : v.closing = false) (hstate : (v.streams h).state ≠ .closed) (queue : List Handle)
      (hqueue : queue = v.closingStreams ∨ queue = v.closingStreams ++ [h]) :
      Act v (({ v with closingStreams := queue }.upd h fun st =>
        { st with state := .closing, lookup := false }).log (.streamClosing h))
  | closed {v} (h : Handle) (hmark : (v.streams h).closedByProtocol) (hmay : v.MayClose h) :
      Act v ((v.upd h fun st => { st with state := .closed, lookup := false }).log
        (.streamClosed h))
  | unqueueClosing {v} (h : Handle) :
      Act v { v with closingStreams := v.closingStreams.erase h }
  | untable {v} (idx : Nat) : Act v { v with ht := v.ht.set idx .tomb }
  | dropOut {v} (h : Handle) (hq : v.closing ∨ (v.streams h).queuedFrames = 0) :
      Act v (v.dropOut h)
  | dropUpstream {v} (h : Handle) : Act v (v.upd h fun st => { st with hasUpstream := false })
  | discard {v} (h : Handle) (hmark : (v.streams h).closedByProtocol)
      (hup : (v.streams h).hasUpstream = false)
      (hstate : .streamClosing h ∈ v.trace ∨ .streamClosed h ∈ v.trace) :
      Act v ((v.upd h fun st => { st with pendingIn := [] }).log (.upDiscard h))
  | lookup {v} (h : Handle) (hseen : (v.streams h).firstPshSeen)
      (hup : (v.streams h).hasUpstream = false) (hearly : (v.streams h).IsEarly) :
      Act v (v.upd h fun st => { st with lookup := true })
  | endLookup {v} (h : Handle) : Act v (v.upd h fun st => { st with lookup := false })
  | connecting {v} (h : Handle) (hseen : (v.streams h).firstPshSeen)
      (hfin : ¬ClientFin h v.trace) (hopening : ∃ t, v.trace = t ++
        [.opening h (v.streams h).state, .setState h (v.streams h).state .connecting]) :
      Act v (v.upd h fun st => { st with state := .connecting })
  | openUpstream {v} (h : Handle) (hseen : (v.streams h).firstPshSeen)
      (hup : (v.streams h).hasUpstream = false) (hlook : (v.streams h).lookup = false)
      (hearly : (v.streams h).IsEarly) :
      Act v ((v.upd h fun st => { st with hasUpstream := true, state := .connecting }).log
        (.upConnect h))
  | connected {v} (h : Handle) (hup : (v.streams h).hasUpstream)
      (hstate : (v.streams h).state = .connecting) :
      Act v (v.upd h fun st => { st with state := .connected })
  | pause {v} : Act v { v with inputPaused := true, clientReadBlocked := true }
  | unblock {v} (hp : v.inputPaused = false) : Act v { v with clientReadBlocked := false }

/-- One effect of the end of a session. -/
inductive EndAct : View → View → Prop
  | finalizing {v} (hopen : v.closing = false) : EndAct v { v with closing := true }
  | finalized {v} (rc : Nat) (hc : v.closing) : EndAct v (v.log (.finalize rc))

/-- One effect of `ngx_anytls_upstream_send_pending`. -/
inductive SendAct : View → View → Prop
  | chain {v} (h : Handle) (bs : Bytes) (hbs : bs <+: (v.streams h).backlog)
      (hp : (v.streams h).pendingIn ≠ []) :
      SendAct v (v.log (.upChain h bs))
  | account {v} (h : Handle) (p : Pending) (ps : List Pending) (n : Nat)
      (hp : (v.streams h).pendingIn = p :: ps) (hn : n ≤ p.rest.length)
      (hun : n ≤ unacc h v.trace) :
      SendAct v ((v.upd h fun st => { st with pendingIn := accountHead n st.pendingIn }).log
        (.upAccount h n))
  | pop {v} (h : Handle) (p : Pending) (ps : List Pending)
      (hp : (v.streams h).pendingIn = p :: ps) (hsent : p.sent = p.data.length) :
      SendAct v (v.upd h fun st => { st with pendingIn := st.pendingIn.tail })
  | shutdown {v} (h : Handle) (hp : (v.streams h).pendingIn = [])
      (hs : (v.streams h).pendingShutdown) (hu : (v.streams h).hasUpstream) :
      SendAct v ((v.upd h fun st => { st with pendingShutdown := false }).log (.upShutdown h))

/-- One effect of handling a client frame. -/
inductive DispatchAct : View → View → Prop
  | psh {v} (h : Handle) (data : Bytes) (hknown : h < v.nstreams)
      (hin : (v.streams h).inClosed = false) :
      DispatchAct v (v.log (.psh h data))
  | fin {v} (h : Handle) (hknown : h < v.nstreams) (hc : (v.streams h).closedByProtocol = false) :
      DispatchAct v ((v.log (.clientFin h (v.streams h).state)).upd h fun st =>
        { st with closedByProtocol := true, inClosed := true })
  | core {v} (core : SessionCore) : DispatchAct v { v with core := core }
  | opening {v} (h : Handle) :
      DispatchAct v ((v.log (.opening h (v.streams h).state)).log
        (.setState h (v.streams h).state .connecting))
  | create {v} (id : UInt32) :
      DispatchAct v (({ v with nstreams := v.nstreams + 1 }.upd v.nstreams fun _ =>
        Stream.view { id := id }).log (.streamOpen v.nstreams id))
  | table {v} (h : Handle) (idx : Nat) (hknown : h < v.nstreams) :
      DispatchAct v { v with ht := v.ht.set idx (.used h) }
  | firstPshAcc {v} (h : Handle) (acc : Option Bytes) (hf : (v.streams h).firstPshSeen = false) :
      DispatchAct v (v.upd h fun st => { st with firstPshAcc := acc })
  | firstPsh {v} (h : Handle) (hknown : h < v.nstreams) :
      DispatchAct v (v.upd h fun st => { st with firstPshSeen := true })
  | openUot {v} (h : Handle) (hseen : (v.streams h).firstPshSeen)
      (hup : (v.streams h).hasUpstream = false) (hlook : (v.streams h).lookup = false)
      (hearly : (v.streams h).IsEarly) (hfin : ¬ClientFin h v.trace) :
      DispatchAct v (v.upd h fun st => { st with upstreamType := .uot, state := .connected })
  | direct {v} (h : Handle) (bs : Bytes) (hknown : h < v.nstreams)
      (hp : (v.streams h).pendingIn = []) (hin : (v.streams h).inClosed = false) :
      DispatchAct v (v.log (.upDirect h bs))
  | append {v} (h : Handle) (bs : Bytes) (hknown : h < v.nstreams)
      (hin : (v.streams h).inClosed = false) :
      DispatchAct v ((v.upd h fun st => { st with
        pendingIn := st.pendingIn ++ [{ data := bs }] }).log (.upAppend h bs))
  | halfClose {v} (h : Handle) (hp : (v.streams h).pendingIn = [])
      (hstate : (v.streams h).state = .connected) (hfin : ClientFin h v.trace) :
      DispatchAct v (((v.log (.upShutdown h)).log
        (.setState h (v.streams h).state .halfClosed)).upd h fun st =>
          { st with state := .halfClosed })
  | deferClose {v} (h : Handle) (hp : (v.streams h).pendingIn ≠ [])
      (hstate : (v.streams h).state = .connected) (hfin : ClientFin h v.trace) :
      DispatchAct v (v.upd h fun st =>
        { st with state := .halfClosed, pendingShutdown := true })

/-- Records of the trace about client input, events and the fallback relay. -/
def Obs.IsInput : Obs → Prop
  | .event .. | .clientRecv .. | .frame .. | .inputDropped .. | .fallbackOpen ..
  | .fallbackSend .. => True
  | _ => False

/-- The parts of a session that input handling and the relay leave alone. -/
structure View.SameMux (v v' : View) : Prop where
  conf : v'.conf = v.conf
  streams : v'.streams = v.streams
  nstreams : v'.nstreams = v.nstreams
  ht : v'.ht = v.ht
  closingStreams : v'.closingStreams = v.closingStreams
  controlOut : v'.controlOut = v.controlOut
  dataOut : v'.dataOut = v.dataOut
  sending : v'.sending = v.sending
  frames : v'.frames = v.frames
  pendingOutput : v'.pendingOutput = v.pendingOutput
  core : v'.core = v.core
  closing : v'.closing = v.closing

/-- The parts of a session that input flags leave alone. -/
structure View.SameInput (v v' : View) : Prop where
  state : v'.state = v.state
  remnant : v.remnant = [] → v'.remnant = []
  auth : v'.auth = v.auth
  authenticated : v'.authenticated = v.authenticated
  authHashMatched : v'.authHashMatched = v.authHashMatched
  replay : v'.replay = v.replay
  clientBuf : v'.clientBuf = v.clientBuf
  blocked : v.remnant = [] → (v.clientReadBlocked → v.inputPaused) →
    v'.clientReadBlocked → v'.inputPaused
  paused : (v.inputPaused → v.clientReadBlocked) → v'.inputPaused → v'.clientReadBlocked

/-- The parts of a session that the event handlers and the relay leave alone. -/
structure View.SameHeld (v v' : View) : Prop where
  state : v'.state = v.state
  remnant : v'.remnant = v.remnant
  auth : v'.auth = v.auth
  authenticated : v'.authenticated = v.authenticated
  authHashMatched : v'.authHashMatched = v.authHashMatched
  inputPaused : v'.inputPaused = v.inputPaused
  clientReadBlocked : v'.clientReadBlocked = v.clientReadBlocked

/-- Records of the trace about events and about what the relay sends. -/
def Obs.IsRelay : Obs → Prop
  | .event .. | .fallbackSend .. => True
  | _ => False

/-- One effect of the handling of a client frame that does not end the session. -/
inductive HandleAct : View → View → Prop
  | act {v v'} (h : Act v v') : HandleAct v v'
  | send {v v'} (h : SendAct v v') : HandleAct v v'
  | dispatch {v v'} (h : DispatchAct v v') : HandleAct v v'
  | flags {v v'} (h : v.SameMux v') (hin : v.SameInput v') (ht : v'.trace = v.trace) :
      HandleAct v v'

/-- One effect of a session. -/
inductive SessionAct : View → View → Prop
  | act {v v'} (h : Act v v') : SessionAct v v'
  | close {v v'} (h : EndAct v v') : SessionAct v v'
  | send {v v'} (h : SendAct v v') : SessionAct v v'
  | dispatch {v v'} (h : DispatchAct v v') : SessionAct v v'
  | input {v v'} (h : v.SameMux v') (ht : v'.trace = v.trace) : SessionAct v v'
  | inputLog {v v'} (o : Obs) (ho : o.IsInput) (h : v.SameMux v')
      (ht : v'.trace = v.trace ++ [o]) : SessionAct v v'

end NgxAnytls
