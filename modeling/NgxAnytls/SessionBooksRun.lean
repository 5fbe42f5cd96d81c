import NgxAnytls.SessionBooksFrames

/-! What events and whole runs book. -/

namespace NgxAnytls

open Relation

namespace BooksKept

open Books

variable {k : Callbacks} {ac : Connection} {h : Handle}

theorem blockReadOrClose (hk : BooksKept k) (h : Handle) (ac : Connection) :
    CallsOn h ac (NgxAnytls.blockReadOrClose k h ac) := by
  have hblock := Books.blockRead h ac
  unfold NgxAnytls.blockReadOrClose
  dsimp only
  split_ifs
  · exact hblock.then (hk.closeFailed h _)
  · exact hblock

theorem queueRead (hk : BooksKept k) (h : Handle) (buf : ReadBuf) (len : Nat) (ac : Connection) :
    CallsOn h ac (NgxAnytls.queueRead k h buf len ac).2 := by
  have hqueue : CallsOn h ac
      (queueChainFrame (some h) .psh (ac.streams h).id buf len true ac).2 := fun _ hh =>
    Books.queueChainFrame (some h) _ _ _ true ac (owned hh)
  unfold NgxAnytls.queueRead
  dsimp only
  cases (NgxAnytls.queueChainFrame (some h) .psh (ac.streams h).id buf len true ac).1 with
  | again => exact hqueue.trans (hk.blockReadOrClose h _)
  | error => exact hqueue.then (hk.closeFailed h _)
  | ok => exact hqueue

theorem readConnectedUot (hk : BooksKept k) (h : Handle) (size : Nat) (ac : Connection) :
    CallsOn h ac (NgxAnytls.readConnectedUot k h size ac).2 := by
  have hnext : CallsOn h ac ac.recvNext := .quiet rfl
  unfold NgxAnytls.readConnectedUot
  split_ifs
  · exact (hk.closeFailed h ac).on
  cases ac.recvRes with
  | again => exact hnext
  | error => exact hnext.then (hk.closeFailed h _)
  | data bs =>
    have hlog : CallsOn h ac (ac.recvNext.log (.udpRecv h (bs.take (size - 2)))) :=
      .quiet (log_quiet ⟨rfl, rfl, rfl⟩ ac.recvNext)
    dsimp only
    split_ifs
    · exact hlog.trans (hk.queueRead h _ _ _)
    · exact hlog.trans (hk.queueRead h _ _ _)

theorem readTcp (hk : BooksKept k) (h : Handle) (size : Nat) (ac : Connection) :
    CallsOn h ac (NgxAnytls.readTcp k h size ac).2 := by
  have hnext : CallsOn h ac ac.recvNext := .quiet rfl
  unfold NgxAnytls.readTcp
  cases ac.recvRes with
  | again => exact hnext
  | error => exact hnext.then (hk.closeFailed h _)
  | data bs =>
    dsimp only
    split_ifs
    · exact (hnext.then (.quiet (Books.dropUpstream h _))).trans (hk.sendFinAndClose h _)
    · exact hnext.trans (hk.queueRead h _ _ _)

theorem readOnce (hk : BooksKept k) (h : Handle) (size : Nat) (ac : Connection) :
    CallsOn h ac (NgxAnytls.readOnce k h size ac).2 := by
  have halloc : CallsOn h ac ac.allocNext := .quiet rfl
  unfold NgxAnytls.readOnce
  split_ifs
  · exact hk.blockReadOrClose h ac
  · exact halloc.then (hk.closeFailed h _)
  · exact halloc.trans (hk.readConnectedUot h size _)
  · exact halloc.trans (hk.readTcp h size _)

theorem readLoop (hk : BooksKept k) (h : Handle) (size left : Nat) (ac : Connection) :
    CallsOn h ac (NgxAnytls.readLoop k h size left ac).2.2 := by
  induction left generalizing ac with
  | zero =>
    have hrequeue := (Books.requeueReadReady h ac).then (.quiet (Books.requeueRead _))
    unfold NgxAnytls.readLoop
    dsimp only
    split_ifs
    · exact hrequeue.then (hk.closeFailed h _)
    · exact hrequeue
  | succ left ih =>
    have honce := hk.readOnce h size ac
    unfold NgxAnytls.readLoop
    generalize NgxAnytls.readOnce k h size ac = r at honce ⊢
    obtain ⟨_ | stop, ac'⟩ := r
    · exact honce.trans (ih ac')
    · exact honce

theorem readStream (hk : BooksKept k) (h : Handle) (left : Nat) (ac : Connection) :
    CallsOn h ac (NgxAnytls.readStream k h left ac).2 := by
  have hread := hk.readLoop h (readSize h ac) left ac
  unfold NgxAnytls.readStream
  generalize NgxAnytls.readLoop k h (readSize h ac) left ac = r at hread ⊢
  obtain ⟨left', _ | _, ac'⟩ := r
  · exact hread
  · exact hread

/-- The next stream of a queue exists, and so does the one a walk stays at. -/
theorem queueNext_known (q : SchedQueue) (hknown : ac.books.Known) (hh : h < ac.nstreams) :
    ∀ g, queueNext (ac.schedQueue q) h = some g → g < ac.nstreams := by
  intro g hg
  unfold queueNext at hg
  split_ifs at hg
  · exact hknown.linked q g (List.mem_of_mem_drop (List.mem_of_mem_head? hg))
  · cases hg
    exact hh

/-- The walk starts at a stream that exists and goes on to those of the queue. -/
theorem drainReadsLoop (hk : BooksKept k) (fuel : Nat) (cur : Option Handle) (visits left : Nat)
    (ac : Connection) (hknown : ac.books.Known) (hcur : ∀ g, cur = some g → g < ac.nstreams) :
    BookRun ac.books (NgxAnytls.drainReadsLoop k fuel cur visits left ac).books := by
  induction fuel generalizing cur visits left ac with
  | zero =>
    cases cur with
    | none => exact .refl
    | some g => exact .refl
  | succ fuel ih =>
    cases cur with
    | none => exact .refl
    | some g =>
      have hg := hcur g rfl
      have hnext := queueNext_known .read hknown hg
      have htake := Books.takeReadReady g ac hknown
      have hread : BookRun ac.books (NgxAnytls.readStream k g left
          (NgxAnytls.takeReadReady g ac)).2.books :=
        (Books.takeReadReady g ac).on.trans (hk.readStream g left _) hknown hg
      unfold NgxAnytls.drainReadsLoop
      dsimp only
      split_ifs
      · exact .refl
      · exact htake.trans (ih _ _ _ _ (htake.known hknown) fun g' hg' =>
          (hnext g' hg').trans_le htake.nstreams)
      · exact hread.trans (ih _ _ _ _ (hread.known hknown) fun g' hg' =>
          (hnext g' hg').trans_le hread.nstreams)

theorem drainReads (hk : BooksKept k) (ac : Connection) : Calls ac (NgxAnytls.drainReads k ac) :=
  fun hknown => hk.drainReadsLoop _ ac.readReady.head? _ _ ac hknown fun g hg =>
    hknown.linked .read g (List.mem_of_mem_head? hg)

theorem onReadReady (hk : BooksKept k) (h : Handle) (ac : Connection) :
    CallsOn h ac (NgxAnytls.onReadReady k h ac) := by
  unfold NgxAnytls.onReadReady
  split_ifs
  · exact .refl h ac
  · exact (Books.requeueReadReady h ac).then (hk.drainReads _)

theorem drainWritesLoop (hk : BooksKept k) (fuel : Nat) (cur : Option Handle) (visits bytes : Nat)
    (ac : Connection) (hknown : ac.books.Known) (hcur : ∀ g, cur = some g → g < ac.nstreams) :
    BookRun ac.books (NgxAnytls.drainWritesLoop k fuel cur visits bytes ac).books := by
  induction fuel generalizing cur visits bytes ac with
  | zero => exact .refl
  | succ fuel ih =>
    cases cur with
    | none => exact .refl
    | some g =>
      have hg := hcur g rfl
      have hnext := queueNext_known .write hknown hg
      have hsend := (Books.takeWriteReady g ac).trans
        (hk.sendPending g (scheduleByteBudget - bytes) _)
      have hrest : ∀ {ac' : Connection} {visits bytes : Nat}, CallsOn g ac ac' →
          BookRun ac.books (NgxAnytls.drainWritesLoop k fuel (queueNext ac.writeReady g) visits
            bytes ac').books := by
        intro ac' visits bytes hac
        have hr := hac hknown hg
        exact hr.trans (ih _ _ _ _ (hr.known hknown) fun g' hg' =>
          (hnext g' hg').trans_le hr.nstreams)
      unfold NgxAnytls.drainWritesLoop
      by_cases hbudget : visits = 0 ∨ scheduleByteBudget ≤ bytes
      · rw [if_pos hbudget]
      rw [if_neg hbudget]
      dsimp only
      generalize NgxAnytls.sendPending k g (scheduleByteBudget - bytes) (takeWriteReady g ac) = r
        at hsend ⊢
      by_cases herr : r.1 = .error
      · rw [if_pos herr]
        exact hrest (hsend.on.then (hk.closeFailed g _))
      rw [if_neg herr]
      refine hrest (hsend.on.trans ?_)
      split_ifs
      · exact Books.markWriteReady g _
      · exact .refl g _

theorem drainWrites (hk : BooksKept k) (ac : Connection) : Calls ac (NgxAnytls.drainWrites k ac) :=
  fun hknown => hk.drainWritesLoop _ ac.writeReady.head? _ _ ac hknown fun g hg =>
    hknown.linked .write g (List.mem_of_mem_head? hg)

theorem onWriteReady (hk : BooksKept k) (h : Handle) (ac : Connection) :
    CallsOn h ac (NgxAnytls.onWriteReady k h ac) := by
  unfold NgxAnytls.onWriteReady
  split_ifs
  · exact .refl h ac
  · exact (Books.markWriteReady h ac).then (hk.drainWrites _)

theorem upstreamWriteHandler (hk : BooksKept k) (h : Handle) (timedout : Bool) (ac : Connection) :
    CallsOn h ac (NgxAnytls.upstreamWriteHandler k h timedout ac) := by
  have hnext : CallsOn h ac ac.sockErrNext := .quiet rfl
  have hready := (hnext.then (.quiet (Books.setConnectTimer h false _))).trans
    (hk.onConnectReady h _)
  unfold NgxAnytls.upstreamWriteHandler
  dsimp only
  split_ifs
  · exact hk.onWriteReady h ac
  · exact hk.synackAndClose h _ ac
  · exact hnext.trans (hk.synackAndClose h _ _)
  · exact hready
  · exact hready.trans (hk.onWriteReady h _)

theorem udpReadLoop (hk : BooksKept k) (h : Handle) (fuel : Nat) (ac : Connection) :
    CallsOn h ac (NgxAnytls.udpReadLoop k h fuel ac) := by
  induction fuel generalizing ac with
  | zero => exact .quiet rfl
  | succ fuel ih =>
    have hread := Books.uotReadDgram h ac
    unfold NgxAnytls.udpReadLoop
    dsimp only
    cases (NgxAnytls.uotReadDgram h ac).1 with
    | again => exact hread
    | error => exact hread.then (hk.closeFailed h _)
    | ok => exact hread.trans (ih _)

theorem udpReadHandler (hk : BooksKept k) (h : Handle) (ac : Connection) :
    CallsOn h ac (NgxAnytls.udpReadHandler k h ac) := by
  have harm : CallsOn h ac (NgxAnytls.uotArmIdleTimer h ac) :=
    .quiet (Books.uotArmIdleTimer h ac)
  unfold NgxAnytls.udpReadHandler
  dsimp only
  split_ifs
  · exact harm.trans (hk.onReadReady h _)
  · exact harm.trans (Books.blockRead h _)
  · exact harm.trans (hk.udpReadLoop h _ _)

theorem uotIdleTimeoutHandler (hk : BooksKept k) (h : Handle) (ac : Connection) :
    CallsOn h ac (NgxAnytls.uotIdleTimeoutHandler k h ac) := by
  unfold NgxAnytls.uotIdleTimeoutHandler
  split_ifs
  · exact .refl h ac
  · exact CallsOn.trans (.quiet (Books.uotClose h ac)) (hk.sendFinAndClose h _)

theorem endSession (hk : BooksKept k) (ac : Connection) :
    Calls ac (NgxAnytls.endSession k ac) := by
  have hlog : Calls ac (ac.log .ending) := .quiet (log_quiet ⟨rfl, rfl, rfl⟩ ac)
  exact hlog.trans ((hk.clientMuxDrain 0 false _).trans (hk.finalize _))

theorem runAction (hk : BooksKept k) (a : Action) (ac : Connection) :
    Calls ac (NgxAnytls.runAction k a ac).2.2 := by
  cases a with
  | queueControl cmd id data =>
    exact fun _ => Books.queueDataFrame false none cmd id data ac nofun
  | openStream id => exact Books.streamCreateIfAbsent id ac
  | forwardClientPayload id data => exact hk.forwardClientPayload id data ac
  | clientFin id =>
    simp only [NgxAnytls.runAction]
    cases streamFind id ac with
    | none => exact .refl ac
    | some h =>
      have hlog : Calls ac (ac.log (.clientFin h (ac.streams h).state)) :=
        .quiet (log_quiet ⟨rfl, rfl, rfl⟩ ac)
      exact hlog.trans (hk.handleClientFin h _)
  | clientAlert data => exact hk.endSession ac
  | protocolError data =>
    have herror : Calls ac (if data ≠ [] then (NgxAnytls.queueError data ac).2 else ac) := by
      split_ifs
      · exact Books.queueError data ac
      · exact .refl ac
    exact herror.trans (hk.endSession _)

theorem sessionActionsRun (hk : BooksKept k) (as : List Action) (rc : Rc) (ac : Connection) :
    Calls ac (NgxAnytls.sessionActionsRun k as rc ac).2.2 := by
  induction as generalizing rc ac with
  | nil => exact .refl ac
  | cons a as ih =>
    have hone := hk.runAction a ac
    unfold NgxAnytls.sessionActionsRun
    dsimp only
    by_cases hdone : (NgxAnytls.runAction k a ac).2.1 = true
    · rw [if_pos hdone]
      exact hone
    rw [if_neg hdone]
    exact hone.trans (ih _ _)

theorem processFrame (hk : BooksKept k) (f : Frame) (ac : Connection) :
    Calls ac (NgxAnytls.processFrame k f ac).2 := by
  have hcore : Calls ac (setCore (handleFrame (ac.log (.frame f)).core f
      (ac.log (.frame f)).allocOk).core (ac.log (.frame f)).allocNext) :=
    .quiet (log_quiet ⟨rfl, rfl, rfl⟩ ac)
  unfold NgxAnytls.processFrame
  dsimp only
  split_ifs
  · exact hcore.trans (hk.sessionActionsRun _ _ _)
  · exact hcore.trans (hk.sessionActionsRun _ _ _)

theorem processFrames (hk : BooksKept k) (fuel : Nat) (pos : Bytes) (ac : Connection) :
    Calls ac (NgxAnytls.processFrames k fuel pos ac).2 := by
  have hdrop : ∀ (bs : Bytes) (ac : Connection), Calls ac (dropInput bs ac) := fun _ ac =>
    .quiet (log_quiet ⟨rfl, rfl, rfl⟩ ac)
  induction fuel generalizing pos ac with
  | zero => exact .quiet rfl
  | succ fuel ih =>
    unfold NgxAnytls.processFrames
    cases parseFrame pos with
    | again => exact .quiet rfl
    | error => exact hdrop pos ac
    | ok f consumed =>
      have hframe := hk.processFrame f ac
      have hrest : Calls (NgxAnytls.processFrame k f ac).2
          (keepRemnant (pos.drop consumed) (NgxAnytls.processFrame k f ac).2).2 := .quiet rfl
      dsimp only
      split_ifs
      · exact hframe.trans (hdrop _ _)
      · exact hframe.trans hrest
      · exact hframe.trans (ih _ _)

theorem authProcess (data : Bytes) (ac : Connection) :
    (NgxAnytls.authProcess data ac).2.2.books = ac.books := by
  have hpad : ∀ (n : Nat) (data : Bytes) (ac : Connection),
      (authPad n data ac).2.2.books = ac.books := by
    intro n data ac
    unfold authPad
    dsimp only
    split_ifs <;> rfl
  have hfirst : (if ac.auth.length < authPrefixLen then
      authTake authPrefixLen data ac else (0, ac)).2.books = ac.books := by
    split_ifs <;> rfl
  unfold NgxAnytls.authProcess
  dsimp only
  generalize (if ac.auth.length < authPrefixLen then authTake authPrefixLen data ac
    else (0, ac)) = t at hfirst ⊢
  split_ifs
  · exact hfirst
  · exact (hpad _ _ _).trans hfirst
  · cases matchUser t.2 with
    | none => exact hfirst
    | some u =>
      have huser : (setUser u t.2).books = ac.books := hfirst
      exact (hpad _ _ _).trans huser

theorem fallbackStart (raw : Bytes) (ac : Connection) :
    (NgxAnytls.fallbackStart raw ac).2.books = ac.books := by
  have hheader : ∀ ac : Connection, (takeProxyHeader ac).2.books = ac.books := by
    intro ac
    unfold takeProxyHeader
    split_ifs <;> rfl
  have hreplay : ∀ (header : Bytes) (ac : Connection),
      (startReplay header raw ac).books = ac.books := fun _ _ => log_quiet ⟨rfl, rfl, rfl⟩ _
  have hopen : ∀ (connected : Bool) (ac : Connection),
      (if (!(openFallback connected ac).allocOk) = true then
        (Rc.error, (openFallback connected ac).allocNext)
      else (Rc.ok, startReplay (takeProxyHeader (openFallback connected ac).allocNext).1 raw
        (takeProxyHeader (openFallback connected ac).allocNext).2)).2.books = ac.books := by
    intro connected ac
    split_ifs
    · rfl
    · exact (hreplay _ _).trans (hheader _)
  unfold NgxAnytls.fallbackStart
  dsimp only
  by_cases hconf : (!ac.conf.fallback) = true
  · rw [if_pos hconf]
  rw [if_neg hconf]
  by_cases hmem : (!ac.allocOk) = true
  · rw [if_pos hmem]
    rfl
  rw [if_neg hmem]
  cases ac.allocNext.connectRes with
  | error => rfl
  | ok => exact hopen _ ac.allocNext.connectNext
  | again => exact hopen _ ac.allocNext.connectNext

theorem processClientBytes (hk : BooksKept k) (data : Bytes) (ac : Connection) :
    Calls ac (NgxAnytls.processClientBytes k data ac).2 := by
  have hauth : Calls ac (NgxAnytls.authProcess data ac).2.2 := .quiet (authProcess data ac)
  unfold NgxAnytls.processClientBytes
  split_ifs
  · exact .refl ac
  · exact hk.processFrames _ data ac
  generalize NgxAnytls.authProcess data ac = r at hauth ⊢
  obtain ⟨_ | _ | _, consumed, ac'⟩ := r
  · exact hauth
  · dsimp only
    split_ifs
    · exact hauth
    · exact hauth.trans (hk.processFrames _ _ _)
  · dsimp only
    split_ifs
    · exact hauth
    · exact hauth.trans (.quiet (fallbackStart _ _))

end BooksKept

namespace Books

variable {ac : Connection} {h : Handle}

theorem inputResume {process : Bytes → Connection → Rc × Connection}
    (hp : ∀ data ac, Calls ac (process data ac).2) (ac : Connection) :
    Calls ac (NgxAnytls.inputResume process ac).2 := by
  have hpause : Calls ac (setInputPaused false ac) := .quiet rfl
  have htaken : Calls ac (setRemnant [] (setInputPaused false ac)) := .quiet rfl
  have hparse := htaken.trans (hp (setInputPaused false ac).remnant _)
  unfold NgxAnytls.inputResume
  dsimp only
  split_ifs
  · exact .refl ac
  · exact .refl ac
  · exact .refl ac
  · exact hparse
  · exact hparse
  · exact hparse.trans (.quiet (enableClientRead _))
  · exact hpause.trans (.quiet (enableClientRead _))

theorem callbacks {process : Bytes → Connection → Rc × Connection}
    (hp : ∀ data ac, Calls ac (process data ac).2) (depth : Nat) :
    BooksKept (NgxAnytls.callbacks process depth) := by
  induction depth with
  | zero => exact ⟨inputResume hp, fun h _ ac => .refl h ac⟩
  | succ depth ih => exact ⟨inputResume hp, fun h a ac => ih.resolveHandler h a ac⟩

theorem innerCallbacks (conf : Conf) : BooksKept (NgxAnytls.innerCallbacks conf) :=
  callbacks (fun _ ac => .refl ac) _

theorem outerCallbacks (conf : Conf) : BooksKept (NgxAnytls.outerCallbacks conf) :=
  callbacks (fun data ac => (innerCallbacks conf).processClientBytes data ac) _

theorem clientReadDone (exhausted : Bool) (ac : Connection) :
    (NgxAnytls.clientReadDone exhausted ac).books = ac.books := by
  unfold NgxAnytls.clientReadDone
  dsimp only
  split_ifs <;> rfl

theorem clientReadOnce (ac : Connection) : Calls ac (NgxAnytls.clientReadOnce ac).2 := by
  have hk := outerCallbacks ac.conf
  have hnext : Calls ac ac.clientRecvNext := .quiet rfl
  have heof : Calls ac (setClientEof ac.clientRecvNext) := .quiet rfl
  unfold NgxAnytls.clientReadOnce
  dsimp only
  cases ac.clientRecvRes with
  | again => exact hnext.trans (.quiet (clientReadDone false _))
  | error => exact hnext.trans (hk.finalize _)
  | data bs =>
    have hparse := (innerCallbacks ac.conf).processClientBytes
      (ac.clientRecvNext.remnant ++ bs.take (readBufSize ac.conf))
      ((setRemnant [] ac.clientRecvNext).log (.clientRecv (bs.take (readBufSize ac.conf))))
    have htaken : Calls ac ((setRemnant [] ac.clientRecvNext).log
        (.clientRecv (bs.take (readBufSize ac.conf)))) :=
      .quiet (log_quiet ⟨rfl, rfl, rfl⟩ (setRemnant [] ac.clientRecvNext))
    have hbytes := htaken.trans hparse
    dsimp only
    split_ifs
    · exact heof.trans (hk.finalize _)
    · exact hbytes.trans (hk.finalize _)
    · exact hbytes
    · exact hbytes
    · exact hbytes

theorem clientReadLoop (loops bytes : Nat) (ac : Connection) :
    Calls ac (NgxAnytls.clientReadLoop loops bytes ac) := by
  induction loops generalizing bytes ac with
  | zero => exact .quiet (clientReadDone true ac)
  | succ loops ih =>
    have honce := clientReadOnce ac
    unfold NgxAnytls.clientReadLoop
    generalize NgxAnytls.clientReadOnce ac = r at honce ⊢
    obtain ⟨_ | n, ac'⟩ := r
    · exact honce
    · dsimp only
      split_ifs
      · exact honce.trans (.quiet (clientReadDone true _))
      · exact honce.trans (ih _ ac')

theorem clientReadHandler (timedout : Bool) (ac : Connection) :
    Calls ac (NgxAnytls.clientReadHandler timedout ac) := by
  have hk := outerCallbacks ac.conf
  unfold NgxAnytls.clientReadHandler
  dsimp only
  split_ifs
  · exact hk.finalize ac
  · exact hk.fallbackRead .upstream ac
  · exact (hk.resume ac).trans (hk.finalize _)
  · exact hk.resume ac
  · exact .refl ac
  · exact clientReadLoop _ 0 ac

theorem clientWriteHandler (ac : Connection) : Calls ac (NgxAnytls.clientWriteHandler ac) := by
  have hk := outerCallbacks ac.conf
  have hclear : Calls ac (clearWritePending ac) := .quiet rfl
  have hdrain := hclear.trans (hk.clientMuxDrain 0 true (clearWritePending ac))
  unfold NgxAnytls.clientWriteHandler
  dsimp only
  split_ifs
  · exact hclear.trans (hk.fallbackWrite .client false _)
  · exact hdrain.trans (hk.finalize _)
  · exact hdrain

/-- The handler of an event that can happen: its stream exists. -/
theorem handle (e : Event) (ac : Connection) (henabled : e.enabled ac = true) :
    Calls ac (NgxAnytls.handle e ac) := by
  have hk := outerCallbacks ac.conf
  unfold NgxAnytls.handle
  cases e with
  | clientRead timedout =>
    exact Calls.trans (.quiet rfl) (clientReadHandler timedout (unpostRead ac))
  | clientWrite => exact Calls.trans (.quiet rfl) (clientWriteHandler (unpostWrite ac))
  | upstreamRead h =>
    have hknown : h < ac.nstreams := by simp_all [Event.enabled]
    exact (hk.onReadReady h ac).of fun _ => hknown
  | upstreamWrite h timedout ready =>
    have hknown : h < ac.nstreams := by simp_all [Event.enabled]
    have hready : CallsOn h ac (if ready = true then reportWritable h ac else ac) := by
      split_ifs
      · have hreport : (reportWritable h ac).books = ac.books := upd_quiet fun _ => rfl
        exact .quiet hreport
      · exact .refl h ac
    exact (hready.trans (hk.upstreamWriteHandler h timedout _)).of fun _ => hknown
  | udpRead h =>
    have hknown : h < ac.nstreams := by simp_all [Event.enabled]
    exact (hk.udpReadHandler h ac).of fun _ => hknown
  | uotIdle h =>
    have hknown : h < ac.nstreams := by simp_all [Event.enabled]
    have htimer : (expireUotTimer h ac).books = ac.books := upd_quiet fun _ => rfl
    exact (CallsOn.trans (.quiet htimer) (hk.uotIdleTimeoutHandler h _)).of fun _ => hknown
  | resolved h a =>
    have hknown : h < ac.nstreams := by simp_all [Event.enabled]
    exact (hk.resolveHandler h a ac).of fun _ => hknown
  | writeTimeout => exact Calls.trans (.quiet rfl) (hk.finalize (stopWriteTimer ac))
  | fallbackRead => exact hk.fallbackRead .client ac
  | fallbackWrite timedout => exact hk.fallbackWrite .upstream timedout ac

theorem step (ac : Connection) (e : Event × Env) : Calls ac (NgxAnytls.step ac e) := by
  have henv : Calls ac ((setEnv e.2 ac).log (.event e.1)) :=
    .quiet (log_quiet ⟨rfl, rfl, rfl⟩ (setEnv e.2 ac))
  unfold NgxAnytls.step
  split_ifs with hstop
  · exact .refl ac
  · have henabled : e.1.enabled ac = true := by
      simpa using fun h => hstop (.inr (.inr h))
    have henabled' : e.1.enabled ((setEnv e.2 ac).log (.event e.1)) = true := by
      rw [← henabled]
      cases e.1 <;> rfl
    exact henv.trans (handle e.1 _ henabled')

end Books

private theorem steps_books (es : List (Event × Env)) (ac : Connection) :
    Books.Calls ac (es.foldl step ac) := by
  induction es generalizing ac with
  | nil => exact .refl ac
  | cons e es ih => exact (Books.step ac e).trans (ih _)

theorem init_known (conf : Conf) : (Connection.init conf).books.Known :=
  ⟨fun _ hin => absurd (List.eq_of_mem_replicate hin) nofun, fun q => by cases q <;> exact nofun⟩

/-- A run of a session is, in its books, a run of the effects. -/
theorem run_books (conf : Conf) (es : List (Event × Env)) :
    BookRun (Connection.init conf).books (run conf es).books :=
  steps_books es _ (init_known conf)

/-- What all effects keep holds after every run. -/
theorem run_books_invariant {I : Books → Prop} (hI : ∀ {b b'}, BookAct b b' → I b → I b')
    (conf : Conf) (es : List (Event × Env)) (hi : I (Connection.init conf).books) :
    I (run conf es).books := (run_books conf es).invariant hI hi

end NgxAnytls
