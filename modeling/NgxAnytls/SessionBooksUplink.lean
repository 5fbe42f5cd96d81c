import NgxAnytls.SessionBooksOutput

/-! What the upstreams of a session, its lookups and its UoT streams book. -/

namespace NgxAnytls

open Relation

namespace Books

variable {ac : Connection} {h : Handle}

theorem setWriteReady (h : Handle) (n total : Nat) (ac : Connection) :
    (NgxAnytls.setWriteReady h n total ac).books = ac.books := by
  unfold NgxAnytls.setWriteReady
  split_ifs
  · exact upd_quiet fun _ => rfl
  · rfl

theorem upstreamWriteChain (h : Handle) (batch : Bytes) (ac : Connection) :
    (NgxAnytls.upstreamWriteChain h batch ac).2.books = ac.books := by
  unfold NgxAnytls.upstreamWriteChain
  cases ac.chainRes with
  | error => rfl
  | again => exact setWriteReady h 0 _ ac.chainNext
  | done n => exact (setWriteReady h _ _ _).trans (log_quiet ⟨rfl, rfl, rfl⟩ ac.chainNext)

theorem accountHead_lens (n : Nat) (ps : List Pending) :
    (accountHead n ps).map (fun p => p.data.length) = ps.map fun p => p.data.length := by
  cases ps with
  | nil => rfl
  | cons p ps => rfl

theorem accountSent (h : Handle) (n : Nat) (ac : Connection) :
    (NgxAnytls.accountSent h n ac).books = ac.books := by
  have hsent : (ac.upd h fun st => { st with pendingIn := accountHead n st.pendingIn }).books =
      ac.books := by
    refine upd_quiet fun st => ?_
    exact congrArg (fun lens => (⟨lens, st.pendingInBytes, st.inputBlocked, st.out, st.linkedIn⟩ :
      StreamBooks)) (accountHead_lens n st.pendingIn)
  exact (log_quiet ⟨rfl, rfl, rfl⟩ _).trans hsent

theorem popPending (h : Handle) (ac : Connection) :
    (NgxAnytls.popPending h ac).books = ac.books.pop h := by
  have hlens : (ac.books.streams h).lens = (ac.streams h).pendingIn.map fun p => p.data.length :=
    rfl
  have htail : ∀ (n : Nat) (st : Stream), Stream.books { st with
      pendingIn := st.pendingIn.tail, pendingInBytes := st.pendingInBytes - n } = { st.books with
        lens := st.books.lens.tail, bytes := st.books.bytes - n } := fun n st =>
    congrArg (fun lens => (⟨lens, _, st.inputBlocked, st.out, st.linkedIn⟩ : StreamBooks))
      List.map_tail
  unfold NgxAnytls.popPending Books.pop
  rw [hlens]
  cases (ac.streams h).pendingIn with
  | nil => exact upd_books (htail 0)
  | cons p ps => exact upd_books (htail p.data.length)

theorem shutdownDeferred (h : Handle) (ac : Connection) :
    (NgxAnytls.shutdownDeferred h ac).books = ac.books := by
  have hclear : (ac.upd h fun st => { st with pendingShutdown := false }).books = ac.books :=
    upd_quiet fun _ => rfl
  unfold NgxAnytls.shutdownDeferred
  split_ifs
  · exact (log_quiet ⟨rfl, rfl, rfl⟩ _).trans hclear
  · rfl

theorem directLoop (h : Handle) (fuel : Nat) (data : Bytes) (ac : Connection) :
    (NgxAnytls.directLoop h fuel data ac).2.books = ac.books := by
  induction fuel generalizing data ac with
  | zero => rfl
  | succ fuel ih =>
    unfold NgxAnytls.directLoop
    split_ifs
    · rfl
    cases ac.sendRes with
    | error => rfl
    | again => exact setWriteReady h 0 _ ac.sendNext
    | done n =>
      dsimp only
      split_ifs
      · rfl
      · have hready := setWriteReady h (min n data.length) data.length
          (upDirect h (data.take (min n data.length)) ac.sendNext)
        exact (ih _ _).trans (hready.trans (log_quiet ⟨rfl, rfl, rfl⟩ ac.sendNext))

theorem appendPending (h : Handle) (data : Bytes) (ac : Connection) :
    CallsOn h ac (NgxAnytls.appendPending h data ac) := by
  refine CallsOn.then (.act fun hh => ?_) (.quiet (log_quiet ⟨rfl, rfl, rfl⟩ _))
  refine upd_act (.append h data.length hh) fun st => ?_
  exact congrArg (fun lens => (⟨lens, _, st.inputBlocked, st.out, st.linkedIn⟩ : StreamBooks))
    List.map_append

theorem upstreamAppend (h : Handle) (data : Bytes) (ac : Connection) :
    CallsOn h ac (NgxAnytls.upstreamAppend h data ac).2 := by
  have halloc : CallsOn h ac ac.allocNext.allocNext := .quiet rfl
  have happend := halloc.trans (appendPending h data _)
  unfold NgxAnytls.upstreamAppend
  dsimp only
  split_ifs with _ _ hfull
  · exact .quiet rfl
  · exact .quiet rfl
  · exact happend.trans (blockInput h _ hfull)
  · exact happend.then (.quiet (clientInputPause _))
  · exact happend

theorem upstreamDirect (h : Handle) (data : Bytes) (ac : Connection) :
    CallsOn h ac (NgxAnytls.upstreamDirect h data ac).2 := by
  have hloop := directLoop h data.length data ac
  unfold NgxAnytls.upstreamDirect
  split_ifs
  · exact upstreamAppend h data ac
  · cases hres : NgxAnytls.directLoop h data.length data ac with
    | mk rest ac' =>
      rw [hres] at hloop
      have hsent : CallsOn h ac ac'.arm.2 := .quiet hloop
      cases rest with
      | none => exact .quiet hloop
      | some rest =>
        dsimp only
        split_ifs
        · exact hsent
        · exact hsent
        · exact hsent.trans (upstreamAppend h rest ac'.arm.2)

theorem onConnectPending (h : Handle) (ac : Connection) :
    CallsOn h ac (NgxAnytls.onConnectPending h ac) := by
  unfold NgxAnytls.onConnectPending
  split_ifs with hpending
  · exact .refl h ac
  · refine .act fun hh => link_act .connect false hh (Bool.eq_false_iff.mpr hpending) rfl rfl
      (fun _ => rfl) (fun _ => rfl) fun r hr => ?_
    cases r with
    | connect => exact absurd rfl hr
    | ready | read | write | blocked => exact ⟨rfl, fun _ => rfl⟩

theorem setConnectTimer (h : Handle) (armed : Bool) (ac : Connection) :
    (NgxAnytls.setConnectTimer h armed ac).books = ac.books := upd_quiet fun _ => rfl

theorem markStateOpened (h : Handle) (ac : Connection) :
    (NgxAnytls.markStateOpened h ac).books = ac.books := upd_quiet fun _ => rfl

theorem setState (h : Handle) (state : StreamState) (ac : Connection) :
    (NgxAnytls.setState h state ac).books = ac.books := by
  have hlog : (logState h state ac).books = ac.books := log_quiet ⟨rfl, rfl, rfl⟩ ac
  rw [← hlog]
  exact upd_quiet fun _ => rfl

theorem openUpstream (h : Handle) (ready : Bool) (ac : Connection) :
    (NgxAnytls.openUpstream h ready ac).books = ac.books := by
  have hlog : (logState h .connecting ac).books = ac.books := log_quiet ⟨rfl, rfl, rfl⟩ ac
  refine (log_quiet ⟨rfl, rfl, rfl⟩ _).trans ?_
  rw [← hlog]
  exact upd_quiet fun _ => rfl

end Books

namespace BooksKept

open Books

variable {k : Callbacks} {ac : Connection} {h : Handle}

/-- A buffer that was sent leaves the backlog, and what it blocked is settled. -/
theorem updateInputState (hk : BooksKept k) (h : Handle) (ac : Connection) :
    Calls ac (NgxAnytls.updateInputState k h (NgxAnytls.popPending h ac)).2 := by
  have hpop : BookAct ac.books ((NgxAnytls.popPending h ac).books.settle h) := by
    rw [Books.popPending]
    exact .pop h
  generalize NgxAnytls.popPending h ac = ac' at hpop ⊢
  have hblocked : (ac'.books.streams h).blocked = (ac'.streams h).inputBlocked := rfl
  unfold NgxAnytls.updateInputState
  split_ifs with hopen hlow
  · have hsettle : ac'.books.settle h = ac'.books := by
      rw [Books.settle, Books.unblock, hblocked]
      simp only [Bool.not_eq_true'] at hopen
      simp [hopen]
    exact .act (hsettle ▸ hpop)
  · have hsettle : ac'.books.settle h = ac'.books := if_pos hlow
    exact .act (hsettle ▸ hpop)
  · have hsettle : ac'.books.settle h = (NgxAnytls.unblockInput h ac').books := by
      rw [Books.unblockInput]
      exact if_neg hlow
    rw [hsettle] at hpop
    exact (Calls.act hpop).trans (hk.resume _)

theorem accountLoop (hk : BooksKept k) (h : Handle) (fuel sent : Nat) (ac : Connection) :
    Calls ac (NgxAnytls.accountLoop k h fuel sent ac).2 := by
  induction fuel generalizing sent ac with
  | zero => exact .refl ac
  | succ fuel ih =>
    unfold NgxAnytls.accountLoop
    cases (ac.streams h).pendingIn with
    | nil => exact .refl ac
    | cons p ps =>
      have hsent : Calls ac (accountSent h (min p.rest.length sent) ac) :=
        .quiet (Books.accountSent h _ ac)
      have hpop := hsent.trans (hk.updateInputState h _)
      dsimp only
      split_ifs
      · exact .refl ac
      · exact hsent.trans (.quiet rfl)
      · exact hpop.trans (.quiet (log_quiet ⟨rfl, rfl, rfl⟩ _))
      · exact hpop.trans (ih _ _)

theorem sendPendingTail (hk : BooksKept k) (h : Handle) (ac : Connection) :
    Calls ac (NgxAnytls.sendPendingTail k h ac).2 := by
  have hshutdown : Calls ac (shutdownDeferred h ac).arm.2 := .quiet (Books.shutdownDeferred h ac)
  unfold NgxAnytls.sendPendingTail
  dsimp only
  split_ifs
  · exact .quiet rfl
  · exact hshutdown
  · exact hshutdown.trans (hk.resume _)

theorem sendBatch (hk : BooksKept k) (h : Handle) (batch : Bytes) (ac : Connection) :
    Calls ac (NgxAnytls.sendBatch k h batch ac).2.2 := by
  have hwrite := Books.upstreamWriteChain h batch ac
  unfold NgxAnytls.sendBatch
  cases hres : upstreamWriteChain h batch ac with
  | mk taken ac' =>
    rw [hres] at hwrite
    have htaken : Calls ac ac' := .quiet hwrite
    cases taken with
    | none => exact htaken
    | some sent =>
      dsimp only
      split_ifs
      · exact htaken.trans (.quiet rfl)
      · exact htaken.trans (hk.accountLoop h _ sent ac')

theorem sendLoop (hk : BooksKept k) (h : Handle) (fuel maxBytes total : Nat) (ac : Connection) :
    Calls ac (NgxAnytls.sendLoop k h fuel maxBytes total ac).2.2 := by
  induction fuel generalizing maxBytes total ac with
  | zero => exact hk.sendPendingTail h ac
  | succ fuel ih =>
    have hbatch := hk.sendBatch h
      (batchLoop (ac.streams h).pendingIn maxBytes pendingWriteChainLimit).flatten ac
    unfold NgxAnytls.sendLoop
    by_cases hnil : (ac.streams h).pendingIn = []
    · rw [if_pos hnil]
      exact hk.sendPendingTail h ac
    rw [if_neg hnil]
    by_cases hzero : maxBytes = 0
    · rw [if_pos hzero]
      exact .refl ac
    rw [if_neg hzero]
    dsimp only
    generalize (batchLoop (ac.streams h).pendingIn maxBytes pendingWriteChainLimit).flatten = batch
      at hbatch ⊢
    by_cases hempty : batch = []
    · rw [if_pos hempty]
      exact hk.sendPendingTail h ac
    rw [if_neg hempty]
    generalize NgxAnytls.sendBatch k h batch ac = r at hbatch ⊢
    obtain ⟨sent, _ | rc, ac'⟩ := r
    · dsimp only
      generalize (if maxBytes = sendUnlimited then maxBytes else maxBytes - sent) = left
      split_ifs
      · exact hbatch.trans (hk.sendPendingTail h ac')
      · exact hbatch.trans (ih _ _ ac')
    · exact hbatch

theorem sendPending (hk : BooksKept k) (h : Handle) (maxBytes : Nat) (ac : Connection) :
    Calls ac (NgxAnytls.sendPending k h maxBytes ac).2.2 := by
  unfold NgxAnytls.sendPending
  split_ifs
  · exact .refl ac
  · exact hk.sendLoop h _ maxBytes 0 ac

theorem upstreamQueue (hk : BooksKept k) (h : Handle) (data : Bytes) (ac : Connection) :
    CallsOn h ac (NgxAnytls.upstreamQueue k h data ac).2 := by
  have hsend := (hk.sendPending h sendUnlimited ac).on (h := h)
  unfold NgxAnytls.upstreamQueue
  dsimp only
  split_ifs
  · exact .refl h ac
  · exact hsend
  · exact hsend.trans (Books.upstreamDirect h data _)
  · exact Books.upstreamDirect h data ac
  · exact Books.upstreamAppend h data ac

theorem onConnectReady (hk : BooksKept k) (h : Handle) (ac : Connection) :
    CallsOn h ac (NgxAnytls.onConnectReady k h ac).2 := by
  have hstart : CallsOn h ac (setState h .connected (cancelConnect h ac)) :=
    ((Books.cancelConnect h ac).trans (.quiet (Books.setState h .connected _))).on
  have hsynack := hstart.trans (Books.sendSynack h [] _)
  unfold NgxAnytls.onConnectReady
  dsimp only
  generalize (sendSynack h [] (setState h .connected (cancelConnect h ac))).2 = ac₁
    at hsynack ⊢
  have harm : CallsOn h ac ac₁.arm.2 := hsynack.then (.quiet rfl)
  split_ifs
  · exact harm.then (hk.closeFailed h _)
  · exact harm

theorem openResolved (hk : BooksKept k) (h : Handle) (ac : Connection) :
    CallsOn h ac (NgxAnytls.openResolved k h ac).2 := by
  have hmark : CallsOn h ac (markStateOpened h ac.allocNext.allocNext) :=
    .quiet (Books.markStateOpened h ac.allocNext.allocNext)
  unfold NgxAnytls.openResolved
  by_cases hnone : (ac.streams h).target.sockaddr.isNone = true
  · rw [if_pos hnone]
    exact .refl h ac
  rw [if_neg hnone]
  by_cases hmem : (!ac.allocOk) = true
  · rw [if_pos hmem]
    exact .quiet rfl
  rw [if_neg hmem]
  dsimp only
  by_cases hstate : (!(ac.allocNext.streams h).upstreamStateOpened) = true ∧
      (!ac.allocNext.allocOk) = true
  · rw [if_pos hstate]
    exact .quiet rfl
  rw [if_neg hstate]
  generalize markStateOpened h ac.allocNext.allocNext = ac₁ at hmark ⊢
  have hstart : CallsOn h ac ac₁.connectNext := hmark.then (.quiet rfl)
  cases ac₁.connectRes with
  | error => exact hstart
  | ok =>
    have hopen := hstart.then (.quiet (Books.openUpstream h true _))
    have hready := hopen.trans (hk.onConnectReady h _)
    dsimp only
    split_ifs
    · exact hready
    · exact hready.then (hk.sendPending h sendUnlimited _)
  | again =>
    have hopen := hstart.then (.quiet (Books.openUpstream h false _))
    have hpending := hopen.trans (Books.onConnectPending h _)
    exact (hpending.then (.quiet (Books.setConnectTimer h true _))).then (.quiet rfl)

end BooksKept

namespace Books

variable {ac : Connection} {h : Handle}

theorem uotArmIdleTimer (h : Handle) (ac : Connection) :
    (NgxAnytls.uotArmIdleTimer h ac).books = ac.books := by
  unfold NgxAnytls.uotArmIdleTimer
  split_ifs
  · rfl
  · exact upd_quiet fun _ => rfl

theorem setUdp (h : Handle) (udp : Option Family) (ac : Connection) :
    (NgxAnytls.setUdp h udp ac).books = ac.books := upd_quiet fun _ => rfl

theorem udpSocket (h : Handle) (family : Family) (ac : Connection) :
    (NgxAnytls.udpSocket h family ac).2.books = ac.books := by
  have hfail : (NgxAnytls.setUdp h none ac).udpOpenNext.books = ac.books := setUdp h none ac
  unfold NgxAnytls.udpSocket
  dsimp only
  split_ifs
  · rfl
  · exact hfail
  · exact (uotArmIdleTimer h _).trans ((setUdp h (some family) _).trans hfail)

theorem uotUpstreamStateOpen (h : Handle) (ac : Connection) :
    (NgxAnytls.uotUpstreamStateOpen h ac).2.books = ac.books := by
  unfold NgxAnytls.uotUpstreamStateOpen
  split_ifs
  · rfl
  · rfl
  · exact markStateOpened h ac.allocNext

theorem uotSendResolved (h : Handle) (dst : Option SockAddr) (payload : Bytes) (ac : Connection) :
    (NgxAnytls.uotSendResolved h dst payload ac).2.books = ac.books := by
  unfold NgxAnytls.uotSendResolved
  split_ifs
  · rfl
  cases dst with
  | none => rfl
  | some sa =>
    have hsocket := udpSocket h sa.family ac
    have hstate := (uotUpstreamStateOpen h _).trans hsocket
    dsimp only
    split_ifs
    · exact hsocket
    · exact hstate
    · exact (log_quiet ⟨rfl, rfl, rfl⟩ _).trans hstate

theorem uotRemovePending (h : Handle) (p : UotPending) (ac : Connection) :
    (NgxAnytls.uotRemovePending h p ac).books = ac.books := upd_quiet fun _ => rfl

theorem uotDropPendingDomain (h : Handle) (domain : Bytes) (port : Nat) (ac : Connection) :
    (NgxAnytls.uotDropPendingDomain h domain port ac).books = ac.books := by
  have hall : ∀ (ps : List UotPending) (ac : Connection),
      (ps.foldl (fun ac p => NgxAnytls.uotRemovePending h p ac) ac).books = ac.books := by
    intro ps
    induction ps with
    | nil => exact fun _ => rfl
    | cons p ps ih => exact fun ac => (ih _).trans (uotRemovePending h p ac)
  exact hall _ ac

theorem uotFlushPendingDomain (h : Handle) (domain : Bytes) (port : Nat) (ac : Connection) :
    (NgxAnytls.uotFlushPendingDomain h domain port ac).books = ac.books := by
  have hloop : ∀ (dst : Option SockAddr) (ps : List UotPending) (ac : Connection),
      (uotFlushLoop h domain port dst ps ac).books = ac.books := by
    intro dst ps
    induction ps with
    | nil => exact fun _ => rfl
    | cons p ps ih =>
      intro ac
      have hsent := uotSendResolved h dst p.payload ac
      unfold uotFlushLoop
      dsimp only
      split_ifs
      · exact ih ac
      · exact (uotDropPendingDomain h domain port _).trans hsent
      · exact (ih _).trans ((uotRemovePending h p _).trans hsent)
  exact hloop _ _ ac

theorem uotEnqueuePending (h : Handle) (addr : Addr) (payload : Bytes) (ac : Connection) :
    (NgxAnytls.uotEnqueuePending h addr payload ac).2.books = ac.books := by
  have hadd : ∀ (p : UotPending) (ac : Connection), (uotAddPending h p ac).books = ac.books :=
    fun _ _ => upd_quiet fun _ => rfl
  unfold NgxAnytls.uotEnqueuePending
  dsimp only
  split_ifs
  · rfl
  · rfl
  · rfl
  · rfl
  · exact hadd _ ac.allocNext.allocNext

/-- The reassembly buffer stands in no book. -/
theorem books_recv (st : Stream) (buf : Option Bytes) (pos len size : Nat) :
    ({ st with uotRecvBuf := buf, uotRecvPos := pos, uotRecvLen := len, uotRecvSize := size } :
      Stream).books = st.books := rfl

theorem uotStore (h : Handle) (data : Bytes) (ac : Connection) :
    (NgxAnytls.uotStore h data ac).books = ac.books := by
  unfold NgxAnytls.uotStore
  exact upd_quiet fun st => books_recv st _ st.uotRecvPos _ st.uotRecvSize

theorem uotConsume (h : Handle) (left : Nat) (ac : Connection) :
    (NgxAnytls.uotConsume h left ac).books = ac.books := by
  unfold NgxAnytls.uotConsume
  exact upd_quiet fun st => books_recv st st.uotRecvBuf _ _ st.uotRecvSize

theorem uotBufferMakeRoom (h : Handle) (len : Nat) (ac : Connection) :
    (NgxAnytls.uotBufferMakeRoom h len ac).2.books = ac.books := by
  have hcompact : (if (ac.streams h).uotRecvPos ≠ 0 then uotCompact h ac else ac).books =
      ac.books := by
    split_ifs
    · unfold uotCompact
      exact upd_quiet fun st => books_recv st _ _ st.uotRecvLen st.uotRecvSize
    · rfl
  unfold NgxAnytls.uotBufferMakeRoom
  by_cases hroom : (!(ac.streams h).uotLacks len) = true
  · rw [if_pos hroom]
  rw [if_neg hroom]
  dsimp only
  generalize (if (ac.streams h).uotRecvPos ≠ 0 then uotCompact h ac else ac) = ac₁ at hcompact ⊢
  have hgrow : ∀ n, (uotGrow h n ac₁.allocNext).books = ac₁.books := by
    intro n
    unfold uotGrow
    exact upd_quiet fun st => books_recv st _ _ st.uotRecvLen n
  split_ifs
  · exact hcompact
  · exact hcompact
  · exact (hgrow _).trans hcompact
  · exact hcompact

theorem uotBufferAppend (h : Handle) (data : Bytes) (ac : Connection) :
    (NgxAnytls.uotBufferAppend h data ac).2.books = ac.books := by
  have hsize : (uotSetRecvSize h ac).allocNext.books = ac.books := by
    show (uotSetRecvSize h ac).books = ac.books
    unfold uotSetRecvSize
    exact upd_quiet fun st =>
      books_recv st st.uotRecvBuf st.uotRecvPos st.uotRecvLen uotRecvSize
  have hnew : (uotNewBuffer h (uotSetRecvSize h ac).allocNext).books = ac.books := by
    rw [← hsize]
    unfold uotNewBuffer
    exact upd_quiet fun st =>
      books_recv st (some []) st.uotRecvPos st.uotRecvLen st.uotRecvSize
  have hroom := uotBufferMakeRoom h data.length ac
  have hnewRoom := (uotBufferMakeRoom h data.length _).trans hnew
  unfold NgxAnytls.uotBufferAppend
  dsimp only
  split_ifs
  · rfl
  · exact hsize
  · exact hnewRoom
  · exact (uotStore h data _).trans hnewRoom
  · exact hroom
  · exact (uotStore h data _).trans hroom

theorem setTarget (h : Handle) (addr : Addr) (ac : Connection) :
    (NgxAnytls.setTarget h addr ac).books = ac.books := upd_quiet fun _ => rfl

theorem resolveSync (h : Handle) (ac : Connection) :
    (NgxAnytls.resolveSync h ac).2.books = ac.books := by
  unfold NgxAnytls.resolveSync
  split
  · rfl
  · exact setTarget h _ ac.hostNext

theorem clearResolverTarget (h : Handle) (ac : Connection) :
    (NgxAnytls.clearResolverTarget h ac).books = ac.books := upd_quiet fun _ => rfl

end Books

namespace BooksKept

open Books

variable {k : Callbacks} {ac : Connection} {h : Handle}

theorem resolveAddr (hk : BooksKept k) (h : Handle) (target : ResolveTarget) (ac : Connection) :
    CallsOn h ac (NgxAnytls.resolveAddr k h target ac).2 := by
  have hstart : CallsOn h ac (startLookup h target ac.lookupNext.allocNext) := by
    have hlookup : (startLookup h target ac.lookupNext.allocNext).books =
        ac.lookupNext.allocNext.books := upd_quiet fun _ => rfl
    exact .quiet hlookup
  have hsync := Books.resolveSync h ac.lookupNext
  unfold NgxAnytls.resolveAddr
  dsimp only
  split_ifs
  · exact .refl h ac
  · exact .refl h ac
  · exact .quiet (Books.resolveSync h ac)
  · exact .refl h ac
  · cases ac.lookupRes with
    | noResolver => exact .quiet hsync
    | startFailed | nameFailed | pending | done => exact .quiet rfl
  · cases ac.lookupRes with
    | startFailed => exact .quiet rfl
    | noResolver => exact .quiet hsync
    | nameFailed => exact hstart.then (.quiet (Books.resolverCancel h _))
    | pending => exact hstart
    | done a => exact hstart.trans (hk.resolved h a _)

theorem uotProcessPending (hk : BooksKept k) (h : Handle) (ac : Connection) :
    CallsOn h ac (NgxAnytls.uotProcessPending k h ac) := by
  have hloop : ∀ (fuel : Nat) (ac : Connection), CallsOn h ac (uotProcessLoop k h fuel ac) := by
    intro fuel
    induction fuel with
    | zero => exact fun ac => .refl h ac
    | succ fuel ih =>
      intro ac
      unfold uotProcessLoop
      cases (ac.streams h).uotPending with
      | nil => exact .refl h ac
      | cons p ps =>
        dsimp only
        split_ifs
        · exact .refl h ac
        have htarget : CallsOn h ac (setTarget h { host := p.domain, port := p.port } ac) :=
          .quiet (Books.setTarget h _ ac)
        have hlook := htarget.trans (hk.resolveAddr h .uotPacket _)
        cases (NgxAnytls.resolveAddr k h .uotPacket
            (setTarget h { host := p.domain, port := p.port } ac)).1 with
        | again => exact hlook
        | error =>
          exact (hlook.then (.quiet (Books.uotDropPendingDomain h _ _ _))).trans (ih _)
        | ok => exact (hlook.then (.quiet (Books.uotFlushPendingDomain h _ _ _))).trans (ih _)
  exact hloop _ ac

theorem uotResolveAddr (hk : BooksKept k) (h : Handle) (ac : Connection) :
    CallsOn h ac (NgxAnytls.uotResolveAddr k h ac).2 := by
  unfold NgxAnytls.uotResolveAddr
  split_ifs
  · exact .refl h ac
  · exact hk.resolveAddr h .uotConnect ac

theorem uotSendPayload (hk : BooksKept k) (h : Handle) (addr : Addr) (payload : Bytes)
    (ac : Connection) : CallsOn h ac (NgxAnytls.uotSendPayload k h addr payload ac).2 := by
  have henqueue : CallsOn h ac (uotEnqueuePending h addr payload ac).2 :=
    .quiet (Books.uotEnqueuePending h addr payload ac)
  have hlook := hk.uotResolveAddr h ac
  unfold NgxAnytls.uotSendPayload
  split_ifs
  · exact .quiet (Books.uotSendResolved h _ payload ac)
  · unfold uotSendDomainPacket
    dsimp only
    split_ifs
    · exact henqueue
    · exact henqueue.trans (hk.uotProcessPending h _)
    · exact henqueue
  · dsimp only
    cases (NgxAnytls.uotResolveAddr k h ac).1 with
    | again => exact hlook
    | error => exact hlook
    | ok => exact hlook.then (.quiet (Books.uotSendResolved h _ payload _))

theorem uotConnectLoop (hk : BooksKept k) (h : Handle) (fuel : Nat) (p : Bytes) (ac : Connection) :
    CallsOn h ac (NgxAnytls.uotConnectLoop k h fuel p ac).2 := by
  induction fuel generalizing p ac with
  | zero => exact .refl h ac
  | succ fuel ih =>
    unfold NgxAnytls.uotConnectLoop
    split
    · have hsend := fun payload => hk.uotSendPayload h (ac.streams h).target payload ac
      dsimp only
      split_ifs
      · exact .refl h ac
      · exact hsend _
      · exact (hsend _).trans (ih _ _)
    · exact .refl h ac

theorem uotPacketLoop (hk : BooksKept k) (h : Handle) (fuel : Nat) (p : Bytes) (ac : Connection) :
    CallsOn h ac (NgxAnytls.uotPacketLoop k h fuel p ac).2 := by
  induction fuel generalizing p ac with
  | zero => exact .refl h ac
  | succ fuel ih =>
    have halloc : CallsOn h ac ac.allocNext.allocNext := .quiet rfl
    unfold NgxAnytls.uotPacketLoop
    dsimp only
    split_ifs
    · exact .refl h ac
    · exact .quiet rfl
    cases parseUotPacket p ac.allocNext.allocOk with
    | again => exact halloc
    | error => exact halloc
    | ok v consumed =>
      have hsend := halloc.trans (hk.uotSendPayload h v.1 v.2 _)
      dsimp only
      split_ifs
      · exact hsend
      · exact hsend.trans (ih _ _)

theorem uotDatagrams (hk : BooksKept k) (h : Handle) (p : Bytes) (ac : Connection) :
    CallsOn h ac (NgxAnytls.uotDatagrams k h p ac).2 := by
  have hlook := hk.uotResolveAddr h ac
  have hconsume : ∀ (left : Nat) (ac : Connection), Calls ac (uotConsume h left ac) :=
    fun left ac => .quiet (Books.uotConsume h left ac)
  unfold NgxAnytls.uotDatagrams
  split_ifs
  · dsimp only
    cases (NgxAnytls.uotResolveAddr k h ac).1 with
    | again => exact hlook.then (hconsume _ _)
    | error => exact hlook
    | ok =>
      have hloop := hlook.trans (hk.uotConnectLoop h p.length p _)
      dsimp only
      generalize NgxAnytls.uotConnectLoop k h p.length p (NgxAnytls.uotResolveAddr k h ac).2 = r
        at hloop ⊢
      obtain ⟨_ | left, ac'⟩ := r
      · exact hloop
      · exact hloop.then (hconsume _ _)
  · have hloop := hk.uotPacketLoop h p.length p ac
    generalize NgxAnytls.uotPacketLoop k h p.length p ac = r at hloop ⊢
    obtain ⟨_ | left, ac'⟩ := r
    · exact hloop
    · exact hloop.then (hconsume _ _)

theorem uotRequest (hk : BooksKept k) (h : Handle) (p : Bytes) (ac : Connection) :
    CallsOn h ac (NgxAnytls.uotRequest k h p ac).2 := by
  unfold NgxAnytls.uotRequest
  cases p with
  | nil => exact .refl h ac
  | cons isConnect q =>
    have halloc : CallsOn h ac ac.allocNext.allocNext := .quiet rfl
    dsimp only
    split_ifs
    · exact .quiet rfl
    cases parseSocksaddr q ac.allocNext.allocOk with
    | again => exact halloc
    | error => exact halloc
    | ok addr consumed =>
      have hset : (uotSetRequest h isConnect addr ac.allocNext.allocNext).books =
          ac.allocNext.allocNext.books := upd_quiet fun _ => rfl
      exact (halloc.then (.quiet hset)).trans (hk.uotDatagrams h _ _)

theorem uotClientPayload (hk : BooksKept k) (h : Handle) (data : Bytes) (ac : Connection) :
    CallsOn h ac (NgxAnytls.uotClientPayload k h data ac).2 := by
  have happend : CallsOn h ac (uotBufferAppend h data ac).2 :=
    .quiet (Books.uotBufferAppend h data ac)
  unfold NgxAnytls.uotClientPayload
  dsimp only
  split_ifs
  · exact happend
  · exact happend
  · exact happend.trans (hk.uotRequest h _ _)
  · exact happend.trans (hk.uotDatagrams h _ _)

theorem muxResolveOk (hk : BooksKept k) (h : Handle) (ac : Connection) :
    CallsOn h ac (NgxAnytls.muxResolveOk k h ac) := by
  have hclear : CallsOn h ac (clearResolverTarget h ac) := .quiet (Books.clearResolverTarget h ac)
  have hfinish : ∀ r : Rc × Connection, CallsOn h ac r.2 →
      CallsOn h ac (if r.1 ≠ .ok then NgxAnytls.closeFailed k .openFailed h r.2 else r.2) := by
    intro r hr
    split_ifs
    · exact hr.then (hk.closeFailed h _)
    · exact hr
  unfold NgxAnytls.muxResolveOk
  cases (ac.streams h).resolverTarget with
  | none => exact hclear
  | tcp => exact hfinish _ (hclear.trans (hk.openResolved h _))
  | uotConnect =>
    refine hfinish _ (hclear.trans ?_)
    unfold uotResolved
    split_ifs
    · exact .refl h _
    · exact hk.uotClientPayload h [] _
  | uotPacket =>
    refine hfinish _ ?_
    have hflush := hclear.then (.quiet (Books.uotFlushPendingDomain h (ac.streams h).resolverDomain
      (ac.streams h).resolverPort _))
    unfold uotPacketResolved
    split_ifs
    · exact .refl h ac
    · exact hflush.trans (hk.uotProcessPending h _)

theorem muxResolveError (hk : BooksKept k) (h : Handle) (ac : Connection) :
    CallsOn h ac (NgxAnytls.muxResolveError k h ac) := by
  have hclear : CallsOn h ac (clearResolverTarget h ac) := .quiet (Books.clearResolverTarget h ac)
  unfold NgxAnytls.muxResolveError
  cases (ac.streams h).resolverTarget with
  | none => exact hclear.then (hk.closeFailed h _)
  | uotConnect => exact hclear.then (hk.closeFailed h _)
  | tcp => exact hclear.trans (hk.synackAndClose h _ _)
  | uotPacket =>
    unfold uotPacketResolveFailed
    dsimp only
    split_ifs
    · exact (hclear.then (.quiet (Books.uotDropPendingDomain h _ _ _))).trans
        (hk.uotProcessPending h _)
    · exact hclear.trans (hk.uotProcessPending h _)

theorem resolveHandler (hk : BooksKept k) (h : Handle) (a : Answer) (ac : Connection) :
    CallsOn h ac (NgxAnytls.resolveHandler k h a ac) := by
  have hend : (endLookup h ac).books = ac.books := upd_quiet fun _ => rfl
  have hcopy : ∀ sa, (copyAddr h sa (endLookup h ac)).books = ac.books := fun sa =>
    Eq.trans (upd_quiet fun _ => rfl) hend
  unfold NgxAnytls.resolveHandler
  split_ifs
  · exact .refl h ac
  · cases usableAddr a with
    | none => exact CallsOn.trans (.quiet hend) (hk.muxResolveError h _)
    | some sa => exact CallsOn.trans (.quiet (hcopy sa)) (hk.muxResolveOk h _)

end BooksKept

end NgxAnytls
