import NgxAnytls.SendRefinement

/-! The upstream side refines the abstract session: connecting, lookups, datagrams, ready
sockets. -/

namespace NgxAnytls

@[simp] theorem connectNext_view (ac : Connection) : ac.connectNext.view = ac.view := rfl
@[simp] theorem lookupNext_view (ac : Connection) : ac.lookupNext.view = ac.view := rfl

@[simp] theorem setTarget_view (h : Handle) (addr : Addr) (ac : Connection) :
    (setTarget h addr ac).view = ac.view := upd_view_same fun _ => rfl

@[simp] theorem copyAddr_view (h : Handle) (sa : SockAddr) (ac : Connection) :
    (copyAddr h sa ac).view = ac.view := upd_view_same fun _ => rfl

@[simp] theorem markStateOpened_view (h : Handle) (ac : Connection) :
    (markStateOpened h ac).view = ac.view := upd_view_same fun _ => rfl

@[simp] theorem setConnectTimer_view (h : Handle) (b : Bool) (ac : Connection) :
    (setConnectTimer h b ac).view = ac.view :=
  upd_view_same fun st => by cases hu : st.upstream <;> simp [Stream.view, hu]

@[simp] theorem onConnectPending_view (h : Handle) (ac : Connection) :
    (onConnectPending h ac).view = ac.view := by
  unfold onConnectPending
  split_ifs
  · rfl
  · exact upd_view_same fun _ => rfl

theorem setState_view (h : Handle) (state : StreamState) (ac : Connection) :
    (setState h state ac).view =
      (ac.view.log (.setState h (ac.view.streams h).state state)).upd h fun st =>
        { st with state := state } := upd_view rfl fun _ => rfl

private theorem openUpstream_view (h : Handle) (ready : Bool) (ac : Connection) :
    (openUpstream h ready ac).view =
      ((ac.view.log (.setState h (ac.view.streams h).state .connecting)).upd h fun st =>
        { st with hasUpstream := true, state := .connecting }).log (.upConnect h) := by
  rw [openUpstream, log_view]
  congr 1
  exact upd_view rfl fun _ => rfl

@[simp] theorem resolveSync_view (h : Handle) (ac : Connection) :
    (resolveSync h ac).2.view = ac.view := by
  unfold resolveSync
  split
  · rfl
  · exact setTarget_view _ _ _

private theorem startLookup_view (h : Handle) (target : ResolveTarget) (ac : Connection) :
    (startLookup h target ac).view = ac.view.upd h fun st =>
      { st with lookup := target == .tcp } :=
  upd_view rfl fun st => by simp [Stream.view]

private theorem endLookup_view (h : Handle) (ac : Connection) :
    (endLookup h ac).view = ac.view.endLookup h := upd_view rfl fun st => by simp [Stream.view]

@[simp] theorem uotCompact_view (h : Handle) (ac : Connection) :
    (uotCompact h ac).view = ac.view := upd_view_same fun _ => rfl

@[simp] theorem uotGrow_view (h : Handle) (n : Nat) (ac : Connection) :
    (uotGrow h n ac).view = ac.view := upd_view_same fun _ => rfl

@[simp] theorem uotStore_view (h : Handle) (data : Bytes) (ac : Connection) :
    (uotStore h data ac).view = ac.view := upd_view_same fun _ => rfl

@[simp] theorem uotSetRecvSize_view (h : Handle) (ac : Connection) :
    (uotSetRecvSize h ac).view = ac.view := upd_view_same fun _ => rfl

@[simp] theorem uotNewBuffer_view (h : Handle) (ac : Connection) :
    (uotNewBuffer h ac).view = ac.view := upd_view_same fun _ => rfl

@[simp] theorem uotConsume_view (h : Handle) (left : Nat) (ac : Connection) :
    (uotConsume h left ac).view = ac.view := upd_view_same fun st => by simp only [Stream.view]

@[simp] theorem uotSetRequest_view (h : Handle) (isConnect : UInt8) (addr : Addr)
    (ac : Connection) : (uotSetRequest h isConnect addr ac).view = ac.view :=
  upd_view_same fun _ => rfl

@[simp] theorem uotBufferMakeRoom_view (h : Handle) (len : Nat) (ac : Connection) :
    (uotBufferMakeRoom h len ac).2.view = ac.view := by
  unfold uotBufferMakeRoom
  dsimp only
  split_ifs <;> simp

@[simp] theorem uotBufferAppend_view (h : Handle) (data : Bytes) (ac : Connection) :
    (uotBufferAppend h data ac).2.view = ac.view := by
  unfold uotBufferAppend
  dsimp only
  split_ifs <;> simp

@[simp] theorem setUdp_view (h : Handle) (udp : Option Family) (ac : Connection) :
    (setUdp h udp ac).view = ac.view := upd_view_same fun _ => rfl

@[simp] theorem uotArmIdleTimer_view (h : Handle) (ac : Connection) :
    (uotArmIdleTimer h ac).view = ac.view := by
  unfold uotArmIdleTimer
  split_ifs
  · rfl
  · exact upd_view_same fun _ => rfl

@[simp] theorem udpSocket_view (h : Handle) (family : Family) (ac : Connection) :
    (udpSocket h family ac).2.view = ac.view := by
  unfold udpSocket
  dsimp only
  split_ifs
  · rfl
  · exact setUdp_view h none ac
  · rw [uotArmIdleTimer_view, setUdp_view]
    exact setUdp_view h none ac

@[simp] theorem uotUpstreamStateOpen_view (h : Handle) (ac : Connection) :
    (uotUpstreamStateOpen h ac).2.view = ac.view := by
  unfold uotUpstreamStateOpen
  split_ifs
  · rfl
  · rfl
  · exact markStateOpened_view h _

@[simp] theorem uotAddPending_view (h : Handle) (p : UotPending) (ac : Connection) :
    (uotAddPending h p ac).view = ac.view := upd_view_same fun _ => rfl

@[simp] theorem uotRemovePending_view (h : Handle) (p : UotPending) (ac : Connection) :
    (uotRemovePending h p ac).view = ac.view := upd_view_same fun _ => rfl

@[simp] theorem uotEnqueuePending_view (h : Handle) (addr : Addr) (payload : Bytes)
    (ac : Connection) : (uotEnqueuePending h addr payload ac).2.view = ac.view := by
  unfold uotEnqueuePending
  dsimp only
  split_ifs
  · rfl
  · rfl
  · rfl
  · rfl
  · exact uotAddPending_view _ _ _

@[simp] theorem uotDropPendingDomain_view (h : Handle) (domain : Bytes) (port : Nat)
    (ac : Connection) : (uotDropPendingDomain h domain port ac).view = ac.view := by
  have hfold : ∀ ps : List UotPending, ∀ ac : Connection,
      (ps.foldl (fun ac p => uotRemovePending h p ac) ac).view = ac.view := by
    intro ps
    induction ps with
    | nil => exact fun _ => rfl
    | cons p ps ih => intro ac; rw [List.foldl_cons, ih, uotRemovePending_view]
  unfold uotDropPendingDomain
  exact hfold _ _

/-- The stream is about to open its TCP upstream. -/
structure View.Opening (v : View) (h : Handle) : Prop where
  seen : (v.streams h).firstPshSeen
  upstream : (v.streams h).hasUpstream = false
  lookup : (v.streams h).lookup = false
  early : (v.streams h).IsEarly

section Composition

variable {k : Callbacks} {R : View → View → Prop}

namespace Closed

theorem connectReady (hk : Closed k R) (h : Handle) (ac : Connection)
    (hup : (ac.view.streams h).hasUpstream) (hstate : (ac.view.streams h).state = .connecting) :
    R ac.view (onConnectReady k h ac).2.view := by
  refine hk.sane fun hs => ?_
  have hknown := hs.known_of_seen (hs.seen_of_upstream hup)
  have hview : (setState h .connected (cancelConnect h ac)).view =
      (ac.view.log (.setState h (ac.view.streams h).state .connected)).upd h fun st =>
        { st with state := .connected } := by
    rw [setState_view, cancelConnect_view]
  have hn : (setState h .connected (cancelConnect h ac)).nstreams = ac.nstreams :=
    congrArg View.nstreams hview
  have hset : R ac.view (setState h .connected (cancelConnect h ac)).view := by
    rw [hview]
    refine hk.step (.state h .connected (by rw [hstate]; trivial)) (hk.act ?_)
    exact .connected (v := ac.view.log _) h hup hstate
  have hsyn := hk.trans hset (hk.synack h [] _ (by rw [hn]; exact hknown))
  unfold onConnectReady
  dsimp only
  generalize (sendSynack h [] (setState h .connected (cancelConnect h ac))).2 = ac' at hsyn ⊢
  have hfail := hk.closeFailed .armFailed rfl h ac'.arm.2
  rw [arm_view] at hfail
  split_ifs
  · exact hk.trans hsyn hfail
  · exact hsyn

theorem openResolved (hk : Closed k R) (h : Handle) (ac : Connection)
    (ho : ac.view.Opening h) : R ac.view (NgxAnytls.openResolved k h ac).2.view := by
  have hview : (markStateOpened h ac.allocNext.allocNext).view = ac.view :=
    markStateOpened_view h ac.allocNext.allocNext
  have hopen : ∀ ready, R ac.view (openUpstream h ready
      (markStateOpened h ac.allocNext.allocNext).connectNext).view := by
    intro ready
    rw [openUpstream_view, connectNext_view, hview]
    refine hk.step (.state h .connecting (ho.early.elim (fun he => by rw [he]; trivial) fun he => by
      rw [he]; trivial)) (hk.act ?_)
    exact .openUpstream (v := ac.view.log _) h ho.seen ho.upstream ho.lookup ho.early
  have hready := hk.connectReady h
    (openUpstream h true (markStateOpened h ac.allocNext.allocNext).connectNext)
    (by rw [openUpstream_view]; simp) (by rw [openUpstream_view]; simp)
  unfold NgxAnytls.openResolved
  dsimp only
  generalize onConnectReady k h
    (openUpstream h true (markStateOpened h ac.allocNext.allocNext).connectNext) = r at hready ⊢
  cases (markStateOpened h ac.allocNext.allocNext).connectRes with
  | error =>
    dsimp only
    split_ifs
    · exact hk.refl _
    · exact hk.refl _
    · exact hk.refl _
    · rw [connectNext_view, hview]
      exact hk.refl _
  | ok =>
    have hsent := hk.trans (hopen true) (hk.trans hready (hk.send h sendUnlimited r.2))
    dsimp only
    split_ifs
    · exact hk.refl _
    · exact hk.refl _
    · exact hk.refl _
    · exact hk.trans (hopen true) hready
    · exact hsent
  | again =>
    dsimp only
    split_ifs
    · exact hk.refl _
    · exact hk.refl _
    · exact hk.refl _
    · rw [arm_view, setConnectTimer_view, onConnectPending_view]
      exact hopen false

/-- A TCP lookup starts for a stream that is about to open its upstream. -/
def LookupOk (v : View) (h : Handle) (target : ResolveTarget) : Prop :=
  target = .tcp → (v.streams h).firstPshSeen ∧ (v.streams h).hasUpstream = false ∧
    (v.streams h).IsEarly

theorem startLookup (hk : Closed k R) (h : Handle) (target : ResolveTarget) (ac : Connection)
    (ht : LookupOk ac.view h target) : R ac.view (NgxAnytls.startLookup h target ac).view := by
  rw [startLookup_view]
  by_cases he : target = .tcp
  · subst he
    obtain ⟨hseen, hup, hopen⟩ := ht rfl
    exact hk.act (.lookup h hseen hup hopen)
  · have hf : (target == ResolveTarget.tcp) = false := by simpa using he
    rw [hf]
    exact hk.act (.endLookup h)

theorem resolveAddr (hk : Closed k R) (h : Handle) (target : ResolveTarget) (ac : Connection)
    (ht : LookupOk ac.view h target) :
    R ac.view (NgxAnytls.resolveAddr k h target ac).2.view := by
  have hstart : R ac.view (NgxAnytls.startLookup h target ac.lookupNext.allocNext).view :=
    hk.startLookup h target ac.lookupNext.allocNext ht
  have hsync : R ac.view (resolveSync h ac).2.view := by
    rw [resolveSync_view]
    exact hk.refl _
  unfold NgxAnytls.resolveAddr
  dsimp only
  cases ac.lookupRes with
  | startFailed =>
    dsimp only
    split_ifs <;> first | exact hk.refl _ | exact hsync
  | noResolver =>
    have hsync' := resolveSync_view h ac.lookupNext
    dsimp only
    split_ifs <;> first | exact hk.refl _ | exact hsync | skip
    rw [hsync']
    exact hk.refl _
  | nameFailed =>
    have hcancel := hk.trans hstart (hk.cancelLookup h _)
    dsimp only
    split_ifs <;> first | exact hk.refl _ | exact hsync | exact hcancel
  | pending =>
    dsimp only
    split_ifs <;> first | exact hk.refl _ | exact hsync | exact hstart
  | done a =>
    have hdone := hk.trans hstart (hk.resolved h a _)
    dsimp only
    split_ifs <;> first | exact hk.refl _ | exact hsync | exact hdone

theorem uotSendResolved (hk : Closed k R) (h : Handle) (dst : Option SockAddr) (payload : Bytes)
    (ac : Connection) : R ac.view (NgxAnytls.uotSendResolved h dst payload ac).2.view := by
  unfold NgxAnytls.uotSendResolved
  split_ifs
  · exact hk.refl _
  · cases dst with
    | none => exact hk.refl _
    | some sa =>
      dsimp only
      split_ifs
      · rw [udpSocket_view]
        exact hk.refl _
      · rw [uotUpstreamStateOpen_view, udpSocket_view]
        exact hk.refl _
      · rw [log_view, uotUpstreamStateOpen_view, udpSocket_view]
        exact hk.note (.udpSend h sa payload) trivial ac

theorem uotFlushLoop (hk : Closed k R) (h : Handle) (domain : Bytes) (port : Nat)
    (dst : Option SockAddr) (ps : List UotPending) (ac : Connection) :
    R ac.view (NgxAnytls.uotFlushLoop h domain port dst ps ac).view := by
  induction ps generalizing ac with
  | nil => exact hk.refl _
  | cons p ps ih =>
    have hsend := hk.uotSendResolved h dst p.payload ac
    unfold NgxAnytls.uotFlushLoop
    dsimp only
    split_ifs
    · exact ih ac
    · rw [uotDropPendingDomain_view]
      exact hsend
    · refine hk.trans hsend ?_
      have hrest := ih (uotRemovePending h p (NgxAnytls.uotSendResolved h dst p.payload ac).2)
      rwa [uotRemovePending_view] at hrest

theorem uotFlush (hk : Closed k R) (h : Handle) (domain : Bytes) (port : Nat) (ac : Connection) :
    R ac.view (uotFlushPendingDomain h domain port ac).view :=
  hk.uotFlushLoop h domain port _ _ ac

theorem lookupOk_of_ne {v : View} {h : Handle} {target : ResolveTarget} (ht : target ≠ .tcp) :
    LookupOk v h target := fun he => absurd he ht

theorem uotProcessLoop (hk : Closed k R) (h : Handle) (n : Nat) (ac : Connection) :
    R ac.view (NgxAnytls.uotProcessLoop k h n ac).view := by
  induction n generalizing ac with
  | zero => exact hk.refl _
  | succ n ih =>
    unfold NgxAnytls.uotProcessLoop
    cases (ac.streams h).uotPending with
    | nil => exact hk.refl _
    | cons p ps =>
      have hres := hk.resolveAddr h .uotPacket
        (setTarget h { host := p.domain, port := p.port } ac) (lookupOk_of_ne (by simp))
      rw [setTarget_view] at hres
      dsimp only
      generalize NgxAnytls.resolveAddr k h .uotPacket
        (setTarget h { host := p.domain, port := p.port } ac) = r at hres ⊢
      split_ifs
      · exact hk.refl _
      · cases r.1 with
        | again => exact hres
        | error =>
          have hrest := ih (uotDropPendingDomain h p.domain p.port r.2)
          rw [uotDropPendingDomain_view] at hrest
          exact hk.trans hres hrest
        | ok =>
          exact hk.trans hres (hk.trans (hk.uotFlush h p.domain p.port r.2) (ih _))

theorem uotProcess (hk : Closed k R) (h : Handle) (ac : Connection) :
    R ac.view (uotProcessPending k h ac).view := hk.uotProcessLoop h _ ac

theorem uotSendDomainPacket (hk : Closed k R) (h : Handle) (addr : Addr) (payload : Bytes)
    (ac : Connection) : R ac.view (NgxAnytls.uotSendDomainPacket k h addr payload ac).2.view := by
  have hproc := hk.uotProcess h (uotEnqueuePending h addr payload ac).2
  rw [uotEnqueuePending_view] at hproc
  unfold NgxAnytls.uotSendDomainPacket
  dsimp only
  split_ifs
  · rw [uotEnqueuePending_view]
    exact hk.refl _
  · exact hproc
  · rw [uotEnqueuePending_view]
    exact hk.refl _

theorem uotResolveAddr (hk : Closed k R) (h : Handle) (ac : Connection) :
    R ac.view (NgxAnytls.uotResolveAddr k h ac).2.view := by
  unfold NgxAnytls.uotResolveAddr
  split_ifs
  · exact hk.refl _
  · exact hk.resolveAddr h .uotConnect ac (lookupOk_of_ne (by simp))

theorem uotSendPayload (hk : Closed k R) (h : Handle) (addr : Addr) (payload : Bytes)
    (ac : Connection) : R ac.view (NgxAnytls.uotSendPayload k h addr payload ac).2.view := by
  have hres := hk.uotResolveAddr h ac
  unfold NgxAnytls.uotSendPayload
  dsimp only
  split_ifs
  · exact hk.uotSendResolved _ _ _ _
  · exact hk.uotSendDomainPacket _ _ _ _
  · generalize NgxAnytls.uotResolveAddr k h ac = r at hres ⊢
    cases r.1 with
    | again => exact hres
    | error => exact hres
    | ok => exact hk.trans hres (hk.uotSendResolved _ _ _ _)

theorem uotConnectLoop (hk : Closed k R) (h : Handle) (n : Nat) (p : Bytes) (ac : Connection) :
    R ac.view (NgxAnytls.uotConnectLoop k h n p ac).2.view := by
  induction n generalizing p ac with
  | zero => exact hk.refl _
  | succ n ih =>
    unfold NgxAnytls.uotConnectLoop
    split
    · next l1 l0 q =>
      have hsend := hk.uotSendPayload h (ac.streams h).target (q.take (be16 l1 l0)) ac
      dsimp only
      split_ifs
      · exact hk.refl _
      · exact hsend
      · exact hk.trans hsend (ih _ _)
    · exact hk.refl _

theorem uotPacketLoop (hk : Closed k R) (h : Handle) (n : Nat) (p : Bytes) (ac : Connection) :
    R ac.view (NgxAnytls.uotPacketLoop k h n p ac).2.view := by
  induction n generalizing p ac with
  | zero => exact hk.refl _
  | succ n ih =>
    unfold NgxAnytls.uotPacketLoop
    dsimp only
    split_ifs
    · exact hk.refl _
    · exact hk.refl _
    · cases parseUotPacket p ac.allocNext.allocOk with
      | again => exact hk.refl _
      | error => exact hk.refl _
      | ok v consumed =>
        have hsend := hk.uotSendPayload h v.1 v.2 ac.allocNext.allocNext
        dsimp only
        split_ifs
        · exact hsend
        · exact hk.trans hsend (ih _ _)

theorem uotDatagrams (hk : Closed k R) (h : Handle) (p : Bytes) (ac : Connection) :
    R ac.view (NgxAnytls.uotDatagrams k h p ac).2.view := by
  have hres := hk.uotResolveAddr h ac
  unfold NgxAnytls.uotDatagrams
  dsimp only
  split_ifs
  · generalize NgxAnytls.uotResolveAddr k h ac = r at hres ⊢
    cases r.1 with
    | again =>
      dsimp only
      rw [uotConsume_view]
      exact hres
    | error => exact hres
    | ok =>
      have hloop := hk.uotConnectLoop h p.length p r.2
      dsimp only
      generalize NgxAnytls.uotConnectLoop k h p.length p r.2 = w at hloop ⊢
      obtain ⟨_ | left, ac'⟩ := w
      · exact hk.trans hres hloop
      · dsimp only
        rw [uotConsume_view]
        exact hk.trans hres hloop
  · have hloop := hk.uotPacketLoop h p.length p ac
    generalize NgxAnytls.uotPacketLoop k h p.length p ac = w at hloop ⊢
    obtain ⟨_ | left, ac'⟩ := w
    · exact hloop
    · dsimp only
      rw [uotConsume_view]
      exact hloop

theorem uotRequest (hk : Closed k R) (h : Handle) (p : Bytes) (ac : Connection) :
    R ac.view (NgxAnytls.uotRequest k h p ac).2.view := by
  unfold NgxAnytls.uotRequest
  cases p with
  | nil => exact hk.refl _
  | cons isConnect q =>
    dsimp only
    cases parseSocksaddr q ac.allocNext.allocOk with
    | again => split_ifs <;> exact hk.refl _
    | error => split_ifs <;> exact hk.refl _
    | ok addr consumed =>
      have hrest := hk.uotDatagrams h (q.drop consumed)
        (uotSetRequest h isConnect addr ac.allocNext.allocNext)
      rw [uotSetRequest_view] at hrest
      split_ifs
      · exact hk.refl _
      · exact hrest

theorem uotClientPayload (hk : Closed k R) (h : Handle) (data : Bytes) (ac : Connection) :
    R ac.view (NgxAnytls.uotClientPayload k h data ac).2.view := by
  have happ := uotBufferAppend_view h data ac
  unfold NgxAnytls.uotClientPayload
  dsimp only
  generalize uotBufferAppend h data ac = r at happ ⊢
  rw [← happ]
  split_ifs
  · exact hk.refl _
  · exact hk.refl _
  · exact hk.uotRequest h _ _
  · exact hk.uotDatagrams h _ _

theorem clearTarget (hk : Closed k R) (h : Handle) (ac : Connection) :
    R ac.view (clearResolverTarget h ac).view := by
  rw [clearResolverTarget_view]
  exact hk.act (.endLookup h)

theorem uotResolved (hk : Closed k R) (h : Handle) (ac : Connection) :
    R ac.view (NgxAnytls.uotResolved k h ac).2.view := by
  unfold NgxAnytls.uotResolved
  split_ifs
  · exact hk.refl _
  · exact hk.uotClientPayload h [] ac

theorem uotPacketResolveFailed (hk : Closed k R) (h : Handle) (ac : Connection) :
    R ac.view (NgxAnytls.uotPacketResolveFailed k h ac).view := by
  refine hk.trans (hk.clearTarget h ac) ?_
  unfold NgxAnytls.uotPacketResolveFailed
  dsimp only
  split_ifs
  · have hproc := hk.uotProcess h (uotDropPendingDomain h (ac.streams h).resolverDomain
      (ac.streams h).resolverPort (clearResolverTarget h ac))
    rwa [uotDropPendingDomain_view] at hproc
  · exact hk.uotProcess h _

theorem uotPacketResolved (hk : Closed k R) (h : Handle) (ac : Connection) :
    R ac.view (NgxAnytls.uotPacketResolved k h ac).2.view := by
  unfold NgxAnytls.uotPacketResolved
  split_ifs
  · exact hk.refl _
  · exact hk.trans (hk.clearTarget h ac) (hk.trans (hk.uotFlush h _ _ _) (hk.uotProcess h _))

theorem closeUnlessOk (hk : Closed k R) (h : Handle) (r : Rc × Connection) :
    R r.2.view (if r.1 ≠ .ok then NgxAnytls.closeFailed k .openFailed h r.2 else r.2).view := by
  split_ifs
  · exact hk.closeFailed .openFailed rfl h _
  · exact hk.refl _

/-- The answer to a TCP lookup finds its stream about to open the upstream. -/
theorem resolveOk (hk : Closed k R) (h : Handle) (ac : Connection)
    (ht : (ac.streams h).resolverTarget = .tcp → ac.view.Opening h) :
    R ac.view (muxResolveOk k h ac).view := by
  have hclear := hk.clearTarget h ac
  unfold muxResolveOk
  dsimp only
  cases htarget : (ac.streams h).resolverTarget with
  | tcp =>
    have ho := ht htarget
    have ho' : (clearResolverTarget h ac).view.Opening h := by
      rw [clearResolverTarget_view]
      exact ⟨by simpa [View.endLookup] using ho.seen, by simpa [View.endLookup] using ho.upstream,
        by simp [View.endLookup], by
          simpa [View.endLookup, StreamView.IsEarly] using ho.early⟩
    exact hk.trans hclear (hk.trans (hk.openResolved h _ ho') (hk.closeUnlessOk h _))
  | uotConnect => exact hk.trans hclear (hk.trans (hk.uotResolved h _) (hk.closeUnlessOk h _))
  | uotPacket => exact hk.trans (hk.uotPacketResolved h ac) (hk.closeUnlessOk h _)
  | none => exact hclear

theorem resolveError (hk : Closed k R) (h : Handle) (ac : Connection)
    (hknown : (ac.streams h).resolverTarget = .tcp → h < ac.nstreams) :
    R ac.view (muxResolveError k h ac).view := by
  have hclear := hk.clearTarget h ac
  unfold muxResolveError
  cases htarget : (ac.streams h).resolverTarget with
  | tcp =>
    have hn : (clearResolverTarget h ac).nstreams = ac.nstreams := rfl
    exact hk.trans hclear
      (hk.synackAndClose .resolveFailed h (by decide) (by decide) _ (hn ▸ hknown htarget))
  | uotPacket => exact hk.uotPacketResolveFailed h ac
  | uotConnect => exact hk.trans hclear (hk.closeFailed .uotResolveFailed rfl h _)
  | none => exact hk.trans hclear (hk.closeFailed .uotResolveFailed rfl h _)

theorem resolveHandler (hk : Closed k R) (h : Handle) (a : Answer) (ac : Connection) :
    R ac.view (NgxAnytls.resolveHandler k h a ac).view := by
  refine hk.sane fun hs => ?_
  unfold NgxAnytls.resolveHandler
  split_ifs with hctx
  · exact hk.refl _
  · have hctx' : (ac.streams h).resolverCtx = true := by simpa using hctx
    have hlook : (ac.streams h).resolverTarget = .tcp → (ac.view.streams h).lookup := by
      intro ht
      simp [Connection.view, Stream.view, hctx', ht]
    have htarget : ((endLookup h ac).streams h).resolverTarget = (ac.streams h).resolverTarget := by
      simp [endLookup]
    have hend : R ac.view (endLookup h ac).view := by
      rw [endLookup_view]
      exact hk.act (.endLookup h)
    cases usableAddr a with
    | none =>
      refine hk.trans hend (hk.resolveError h _ fun ht => ?_)
      exact hs.known_of_seen (hs.seen_of_lookup (hlook (htarget ▸ ht)))
    | some sa =>
      have hcopy : ((copyAddr h sa (endLookup h ac)).streams h).resolverTarget =
          (ac.streams h).resolverTarget := by simp [copyAddr, endLookup]
      have hok := hk.resolveOk h (copyAddr h sa (endLookup h ac)) fun ht => by
        have hl := hlook (hcopy ▸ ht)
        obtain ⟨hup, hearly⟩ := (hs.stream h).lookup hl
        rw [copyAddr_view, endLookup_view]
        exact ⟨by simpa [View.endLookup] using hs.seen_of_lookup hl,
          by simpa [View.endLookup] using hup, by simp [View.endLookup],
          by simpa [View.endLookup, StreamView.IsEarly] using hearly⟩
      rw [copyAddr_view] at hok
      exact hk.trans hend hok

theorem requeueReadReady_view (h : Handle) (ac : Connection) :
    (requeueReadReady h ac).view = ac.view := by
  unfold requeueReadReady
  split_ifs
  · exact upd_view_same fun _ => rfl
  · rfl

theorem requeueRead_view (ac : Connection) : (requeueRead ac).2.view = ac.view := by
  unfold requeueRead
  dsimp only
  split_ifs <;> rfl

theorem blockReadOrClose (hk : Closed k R) (h : Handle) (ac : Connection) :
    R ac.view (NgxAnytls.blockReadOrClose k h ac).view := by
  have hfail := hk.closeFailed .armFailed rfl h (blockRead h ac).2
  rw [blockRead_view] at hfail
  unfold NgxAnytls.blockReadOrClose
  dsimp only
  split_ifs
  · exact hfail
  · rw [blockRead_view]
    exact hk.refl _

/-- Room for more is room for less. -/
theorem hasRoom_mono {len n : Nat} {ac : Connection} (hroom : hasRoom n ac) (hle : len ≤ n) :
    hasRoom len ac := by
  simp only [hasRoom, decide_eq_true_eq] at hroom ⊢
  omega

theorem queueRead (hk : Closed k R) (h : Handle) (buf : ReadBuf) (len : Nat) (ac : Connection)
    (hknown : h < ac.nstreams) (hroom : hasRoom len ac) (hbuf : ChainOk .psh buf len ac.trace) :
    R ac.view (NgxAnytls.queueRead k h buf len ac).2.view := by
  have hq := hk.queueChain (some h) .psh (ac.streams h).id buf len true ac
    (fun g hg => Option.some.inj hg ▸ ⟨hknown, rfl⟩) rfl (fun _ => hroom) hbuf
  unfold NgxAnytls.queueRead
  dsimp only
  generalize queueChainFrame (some h) .psh (ac.streams h).id buf len true ac = r at hq ⊢
  cases r.1 with
  | again => exact hk.trans hq (hk.blockReadOrClose h r.2)
  | error => exact hk.trans hq (hk.closeFailed .queueFailed rfl h r.2)
  | ok => exact hq

theorem readConnectedUot (hk : Closed k R) (h : Handle) (size : Nat) (ac : Connection)
    (hknown : h < ac.nstreams) (hroom : hasRoom size ac) :
    R ac.view (NgxAnytls.readConnectedUot k h size ac).2.view := by
  unfold NgxAnytls.readConnectedUot
  dsimp only
  cases ac.recvRes with
  | again =>
    split_ifs
    · exact hk.closeFailed .noReadSize rfl h ac
    · exact hk.refl _
  | error =>
    have hfail := hk.closeFailed .readFailed rfl h ac.recvNext
    split_ifs
    · exact hk.closeFailed .noReadSize rfl h ac
    · exact hfail
  | data bs =>
    have hlog : R ac.view (ac.recvNext.log (.udpRecv h (bs.take (size - 2)))).view :=
      hk.note (.udpRecv h (bs.take (size - 2))) trivial ac.recvNext
    dsimp only
    split_ifs with hsize hnil
    · exact hk.closeFailed .noReadSize rfl h ac
    · refine hk.trans hlog (hk.queueRead h _ _ _ hknown (hasRoom_mono (n := size) hroom
        (by omega)) (.inr ⟨rfl, rfl, rfl, h, ?_⟩))
      rw [hnil]
      simp
    · refine hk.trans hlog (hk.queueRead h _ _ _ hknown (hasRoom_mono (n := size) hroom ?_)
        (.inl (by simp)))
      simp only [List.length_take]
      omega

theorem readTcp (hk : Closed k R) (h : Handle) (size : Nat) (ac : Connection)
    (hknown : h < ac.nstreams) (hroom : hasRoom size ac) :
    R ac.view (NgxAnytls.readTcp k h size ac).2.view := by
  unfold NgxAnytls.readTcp
  cases ac.recvRes with
  | again => exact hk.refl _
  | error => exact hk.closeFailed .readFailed rfl h ac.recvNext
  | data bs =>
    dsimp only
    split_ifs
    · exact hk.trans (hk.dropUpstream h ac.recvNext) (hk.finAndClose h _ hknown)
    · exact hk.queueRead h _ _ ac.recvNext hknown (hasRoom_mono (n := size) hroom
        (List.length_take_le _ _)) (.inl rfl)

theorem readOnce (hk : Closed k R) (h : Handle) (size : Nat) (ac : Connection)
    (hknown : h < ac.nstreams) : R ac.view (NgxAnytls.readOnce k h size ac).2.view := by
  unfold NgxAnytls.readOnce
  split_ifs with hfull
  · exact hk.blockReadOrClose h ac
  · exact hk.closeFailed .noReadBuf rfl h ac.allocNext
  all_goals have hroom : hasRoom size ac := by simpa using (not_or.mp hfull).2
  · exact hk.readConnectedUot h size ac.allocNext hknown hroom
  · exact hk.readTcp h size ac.allocNext hknown hroom

/-- A relation says that handles stay known. -/
theorem known (hk : Closed k R) {v v' : View} (hr : R v v') (hs : v.Sane) {h : Handle}
    (hknown : h < v.nstreams) : h < v'.nstreams := hknown.trans_le (hk.keep hr hs).nstreams

theorem readLoop (hk : Closed k R) (h : Handle) (size left : Nat) (ac : Connection)
    (hknown : h < ac.nstreams) : R ac.view (NgxAnytls.readLoop k h size left ac).2.2.view := by
  induction left generalizing ac with
  | zero =>
    have hfail := hk.closeFailed .armFailed rfl h (requeueRead (requeueReadReady h ac)).2
    rw [requeueRead_view, requeueReadReady_view] at hfail
    unfold NgxAnytls.readLoop
    dsimp only
    split_ifs
    · exact hfail
    · rw [requeueRead_view, requeueReadReady_view]
      exact hk.refl _
  | succ left ih =>
    have honce := hk.readOnce h size ac hknown
    unfold NgxAnytls.readLoop
    generalize NgxAnytls.readOnce k h size ac = r at honce ⊢
    obtain ⟨_ | stop, ac'⟩ := r
    · exact hk.sane fun hs => hk.trans honce (ih ac' (hk.known honce hs hknown))
    · exact honce

theorem readStream (hk : Closed k R) (h : Handle) (left : Nat) (ac : Connection)
    (hknown : h < ac.nstreams) : R ac.view (NgxAnytls.readStream k h left ac).2.view := by
  have hloop := hk.readLoop h (readSize h ac) left ac hknown
  unfold NgxAnytls.readStream
  generalize NgxAnytls.readLoop k h (readSize h ac) left ac = r at hloop ⊢
  obtain ⟨left', _ | _, ac'⟩ := r
  · exact hloop
  · exact hloop

/-- A readable stream exists. -/
theorem known_of_readable {ac : Connection} (hs : ac.view.Sane) {h : Handle}
    (hr : streamReadable (ac.streams h)) : h < ac.nstreams := by
  unfold streamReadable isOpenState at hr
  simp only [Bool.and_eq_true, decide_eq_true_eq] at hr
  exact hs.known_of_seen (hs.seen_of_open hr.2)

theorem drainReadsLoop (hk : Closed k R) (n : Nat) (cur : Option Handle) (visits left : Nat)
    (ac : Connection) : R ac.view (NgxAnytls.drainReadsLoop k n cur visits left ac).view := by
  induction n generalizing cur visits left ac with
  | zero => cases cur <;> exact hk.refl _
  | succ n ih =>
    cases cur with
    | none => exact hk.refl _
    | some h =>
      have htake := takeReadReady_view h ac
      have hrest := ih (queueNext ac.readReady h) visits left (takeReadReady h ac)
      rw [htake] at hrest
      unfold NgxAnytls.drainReadsLoop
      dsimp only
      split_ifs with hvisits hread
      · exact hk.refl _
      · exact hrest
      · refine hk.sane fun hs => ?_
        have hread' : streamReadable ((takeReadReady h ac).streams h) := by simpa using hread
        have hstream := hk.readStream h left (takeReadReady h ac)
          (known_of_readable (htake ▸ hs) hread')
        rw [htake] at hstream
        exact hk.trans hstream (ih _ _ _ _)

theorem reads (hk : Closed k R) (ac : Connection) : R ac.view (drainReads k ac).view :=
  hk.drainReadsLoop _ _ _ _ ac

theorem readReady (hk : Closed k R) (h : Handle) (ac : Connection) :
    R ac.view (onReadReady k h ac).view := by
  have hreads := hk.reads (requeueReadReady h ac)
  rw [requeueReadReady_view] at hreads
  unfold onReadReady
  split_ifs
  · exact hk.refl _
  · exact hreads

theorem markWriteReady_view (h : Handle) (ac : Connection) :
    (markWriteReady h ac).view = ac.view := by
  unfold markWriteReady
  split_ifs
  · rfl
  · exact upd_view_same fun _ => rfl

theorem takeWriteReady_view (h : Handle) (ac : Connection) :
    (takeWriteReady h ac).view = ac.view := upd_view_same fun _ => rfl

theorem drainWritesLoop (hk : Closed k R) (n : Nat) (cur : Option Handle) (visits bytes : Nat)
    (ac : Connection) : R ac.view (NgxAnytls.drainWritesLoop k n cur visits bytes ac).view := by
  induction n generalizing cur visits bytes ac with
  | zero => exact hk.refl _
  | succ n ih =>
    cases cur with
    | none => exact hk.refl _
    | some h =>
      have hsend := hk.send h (scheduleByteBudget - bytes) (takeWriteReady h ac)
      rw [takeWriteReady_view] at hsend
      unfold NgxAnytls.drainWritesLoop
      dsimp only
      generalize sendPending k h (scheduleByteBudget - bytes) (takeWriteReady h ac) = r at hsend ⊢
      have hfail := hk.trans hsend (hk.closeFailed .sendFailed rfl h r.2.2)
      have hmark := ih (queueNext ac.writeReady h) (visits - 1) (bytes + r.2.1)
        (markWriteReady h r.2.2)
      rw [markWriteReady_view] at hmark
      split_ifs
      · exact hk.refl _
      · exact hk.trans hfail (ih _ _ _ _)
      · exact hk.trans hsend hmark
      · exact hk.trans hsend (ih _ _ _ _)

theorem writes (hk : Closed k R) (ac : Connection) : R ac.view (drainWrites k ac).view :=
  hk.drainWritesLoop _ _ _ _ ac

theorem writeReady (hk : Closed k R) (h : Handle) (ac : Connection) :
    R ac.view (onWriteReady k h ac).view := by
  have hwrites := hk.writes (markWriteReady h ac)
  rw [markWriteReady_view] at hwrites
  unfold onWriteReady
  split_ifs
  · exact hk.refl _
  · exact hwrites

theorem writeHandler (hk : Closed k R) (h : Handle) (timedout : Bool) (ac : Connection)
    (hup : (ac.view.streams h).hasUpstream) (hknown : h < ac.nstreams) :
    R ac.view (upstreamWriteHandler k h timedout ac).view := by
  unfold upstreamWriteHandler
  dsimp only
  split_ifs with hstate
  · exact hk.writeReady h ac
  · exact hk.synackAndClose .connectTimeout h (by decide) (by decide) ac hknown
  · exact hk.synackAndClose .connectFailed h (by decide) (by decide) ac.sockErrNext hknown
  all_goals
    have hready := hk.connectReady h (setConnectTimer h false ac.sockErrNext)
      (by rw [setConnectTimer_view]; exact hup)
      (by rw [setConnectTimer_view]; exact not_not.mp hstate)
    rw [setConnectTimer_view] at hready
  · exact hready
  · exact hk.trans hready (hk.writeReady h _)

/-- The length a datagram is queued with is that of its buffer. -/
theorem uotPacketHeader_length (src : SockAddr) (n : Nat) (hf : src.family ≠ .other) :
    (uotPacketHeader src n).length = uotHeaderLen src.family := by
  have hip := src.ip_length
  unfold uotPacketHeader uotHeaderLen
  cases hfam : src.family <;> simp_all [Family.ipLen]

theorem readDgram (hk : Closed k R) (h : Handle) (ac : Connection) (hknown : h < ac.nstreams) :
    R ac.view (uotReadDgram h ac).2.view := by
  unfold uotReadDgram
  dsimp only
  cases ac.allocNext.recvFromRes with
  | again => split_ifs <;> exact hk.refl _
  | error => split_ifs <;> exact hk.refl _
  | dgram src bs =>
    dsimp only
    by_cases hfam : src.family = .other
    · simp only [hfam, if_true]
      split_ifs <;> exact hk.refl _
    have hlen : (bs.take maxFrameData).length + uotHeaderLen src.family =
        (uotPacketHeader src (bs.take maxFrameData).length ++ bs.take maxFrameData).length := by
      rw [List.length_append, uotPacketHeader_length src _ hfam, Nat.add_comm]
    have hq := hk.queueChain (some h) .psh (ac.streams h).id
      { pos := frameHeaderLen + uotMaxHeader - uotHeaderLen src.family
        data := uotPacketHeader src (bs.take maxFrameData).length ++ bs.take maxFrameData }
      ((bs.take maxFrameData).length + uotHeaderLen src.family) false ac.allocNext.recvFromNext
      (fun g hg => Option.some.inj hg ▸ ⟨hknown, rfl⟩) rfl (by simp) (.inl hlen)
    split_ifs <;> first | exact hk.refl _ | exact hq

theorem udpReadLoop (hk : Closed k R) (h : Handle) (n : Nat) (ac : Connection)
    (hknown : h < ac.nstreams) : R ac.view (NgxAnytls.udpReadLoop k h n ac).view := by
  induction n generalizing ac with
  | zero => exact hk.refl _
  | succ n ih =>
    have hread := hk.readDgram h ac hknown
    unfold NgxAnytls.udpReadLoop
    dsimp only
    generalize uotReadDgram h ac = r at hread ⊢
    cases r.1 with
    | again => exact hread
    | error => exact hk.trans hread (hk.closeFailed .readFailed rfl h r.2)
    | ok => exact hk.sane fun hs => hk.trans hread (ih r.2 (hk.known hread hs hknown))

theorem udpRead (hk : Closed k R) (h : Handle) (ac : Connection) (hknown : h < ac.nstreams) :
    R ac.view (udpReadHandler k h ac).view := by
  have harm := uotArmIdleTimer_view h ac
  have hn : (uotArmIdleTimer h ac).nstreams = ac.nstreams := congrArg View.nstreams harm
  unfold udpReadHandler
  dsimp only
  generalize uotArmIdleTimer h ac = ac' at harm hn ⊢
  rw [← harm]
  split_ifs
  · exact hk.readReady h ac'
  · rw [blockRead_view]
    exact hk.refl _
  · exact hk.udpReadLoop h _ ac' (hn ▸ hknown)

theorem uotIdle (hk : Closed k R) (h : Handle) (ac : Connection) (hknown : h < ac.nstreams) :
    R ac.view (uotIdleTimeoutHandler k h ac).view := by
  have hclose : R ac.view (uotClose h ac).view := by
    rw [uotClose_view]
    exact hk.act (.endLookup h)
  have hn : (uotClose h ac).nstreams = ac.nstreams :=
    congrArg View.nstreams (uotClose_view h ac)
  unfold uotIdleTimeoutHandler
  split_ifs
  · exact hk.refl _
  · exact hk.trans hclose (hk.finAndClose h _ (hn ▸ hknown))

end Closed

end Composition

end NgxAnytls
