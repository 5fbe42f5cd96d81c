import NgxAnytls.Records

/-! Finalization is the last effect, unless a client frame asks for it. -/

namespace NgxAnytls

open Relation

/-- The session was not finalized. -/
def NotFinal (t : List Obs) : Prop := ∀ rc, .finalize rc ∉ t

theorem NotFinal.append {t s : List Obs} (ht : NotFinal t) (hs : NotFinal s) :
    NotFinal (t ++ s) := fun rc hm => (List.mem_append.mp hm).elim (ht rc) (hs rc)

theorem NotFinal.one {t : List Obs} {o : Obs} (ht : NotFinal t) (ho : ∀ rc, o ≠ .finalize rc) :
    NotFinal (t ++ [o]) := ht.append fun rc hm => ho rc (List.mem_singleton.mp hm).symm

/-- Effects of a session that goes on: as long as no frame asks for its end, it is neither closing
nor finalized by them. -/
structure View.Calm (v v' : View) : Prop where
  trace : v.trace <+: v'.trace
  conf : v'.conf = v.conf
  closing : .ending ∉ v'.trace → v'.closing = v.closing
  final : .ending ∉ v'.trace → NotFinal v.trace → NotFinal v'.trace

section Effects

variable {v v' : View}

theorem View.Calm.refl (v : View) : v.Calm v := ⟨List.prefix_refl _, rfl, fun _ => rfl, fun _ => id⟩

theorem View.Calm.trans {a b c : View} (hab : a.Calm b) (hbc : b.Calm c) : a.Calm c where
  trace := hab.trace.trans hbc.trace
  conf := hbc.conf.trans hab.conf
  closing h := (hbc.closing h).trans (hab.closing fun hm => h (hbc.trace.subset hm))
  final h := fun ht => hbc.final h (hab.final (fun hm => h (hbc.trace.subset hm)) ht)

/-- An effect that adds the records `s`, none of them the last one. -/
theorem View.Calm.records (s : List Obs) (hs : NotFinal s) (ht : v'.trace = v.trace ++ s)
    (hconf : v'.conf = v.conf) (hc : v'.closing = v.closing) : v.Calm v' where
  trace := ht ▸ List.prefix_append _ _
  conf := hconf
  closing _ := hc
  final _ hv := ht ▸ hv.append hs

theorem View.Calm.none (ht : v'.trace = v.trace) (hconf : v'.conf = v.conf)
    (hc : v'.closing = v.closing) : v.Calm v' :=
  .records [] (fun _ => List.not_mem_nil) (by simpa using ht) hconf hc

theorem View.Calm.one (o : Obs) (ho : ∀ rc, o ≠ .finalize rc) (ht : v'.trace = v.trace ++ [o])
    (hconf : v'.conf = v.conf) (hc : v'.closing = v.closing) : v.Calm v' :=
  .records [o] (fun rc hm => ho rc (List.mem_singleton.mp hm).symm) ht hconf hc

theorem Obs.IsNote.not_final {o : Obs} (ho : o.IsNote) (rc : Nat) : o ≠ .finalize rc := by
  rintro rfl
  exact ho

theorem Obs.IsInput.not_final {o : Obs} (ho : o.IsInput) (rc : Nat) : o ≠ .finalize rc := by
  rintro rfl
  exact ho

theorem Act.calm (ha : Act v v') : v.Calm v' := by
  cases ha with
  | note o ho => exact .one o ho.not_final rfl rfl rfl
  | state h new => exact .one (.setState h _ new) nofun rfl rfl rfl
  | clamped => exact .one .clamped nofun rfl rfl rfl
  | queue owner f =>
    exact .one (.queued (f.prepare owner) _ _) nofun (by rw [View.log_trace, View.enqueue_trace])
      (View.enqueue_conf ..) (View.enqueue_closing ..)
  | link =>
    refine .records _ (fun rc hm => ?_) rfl rfl rfl
    obtain ⟨f, -, hf⟩ := List.mem_map.mp hm
    cases hf
  | take => exact .one (.clientSend _) nofun rfl rfl rfl
  | retire => exact .none (by simp) (by simp) (by simp)
  | closing h => exact .one (.streamClosing h) nofun rfl rfl rfl
  | closed h => exact .one (.streamClosed h) nofun rfl rfl rfl
  | discard h => exact .one (.upDiscard h) nofun rfl rfl rfl
  | openUpstream h => exact .one (.upConnect h) nofun rfl rfl rfl
  | schedule | synack | markClosed | unqueueClosing | untable | dropOut | dropUpstream | lookup
  | endLookup | connecting | connected | pause | unblock => exact .none rfl rfl rfl

theorem SendAct.calm (ha : SendAct v v') : v.Calm v' := by
  cases ha with
  | chain h bs => exact .one (.upChain h bs) nofun rfl rfl rfl
  | account h _ _ n => exact .one (.upAccount h n) nofun rfl rfl rfl
  | pop => exact .none rfl rfl rfl
  | shutdown h => exact .one (.upShutdown h) nofun rfl rfl rfl

theorem DispatchAct.calm (ha : DispatchAct v v') : v.Calm v' := by
  cases ha with
  | psh h data => exact .one (.psh h data) nofun rfl rfl rfl
  | fin h => exact .one (.clientFin h _) nofun rfl rfl rfl
  | opening h =>
    exact .records [.opening h (v.streams h).state, .setState h (v.streams h).state .connecting]
      (by simp [NotFinal]) (by simp) rfl rfl
  | create id => exact .one (.streamOpen _ id) nofun rfl rfl rfl
  | direct h bs => exact .one (.upDirect h bs) nofun rfl rfl rfl
  | append h bs => exact .one (.upAppend h bs) nofun rfl rfl rfl
  | halfClose h =>
    exact .records [.upShutdown h, .setState h (v.streams h).state .halfClosed]
      (by simp [NotFinal]) (by simp) rfl rfl
  | core | table | firstPshAcc | firstPsh | openUot | deferClose => exact .none rfl rfl rfl

theorem HandleAct.calm (ha : HandleAct v v') : v.Calm v' := by
  cases ha with
  | act ha => exact ha.calm
  | send ha => exact ha.calm
  | dispatch ha => exact ha.calm
  | flags hm _ ht => exact .none ht hm.conf hm.closing

private theorem handles_calm (hh : Handles v v') : v.Calm v' := by
  induction hh with
  | refl => exact .refl _
  | tail _ ha ih => exact ih.trans ha.calm

end Effects

/-- Client input leaves a session calm: a frame that does not ask for its end does not end it. -/
theorem parsed_calm : Parsed View.Calm where
  refl := .refl
  trans := .trans
  send h := h.calm
  note o ho := .one o ho.not_final rfl rfl rfl
  act _ h := h.calm
  input hm ht := .none ht hm.conf hm.closing
  inputLog o ho hm ht := .one o ho.not_final ht hm.conf hm.closing
  frame conf f rest ac := by
    have hlog : ac.view.Calm (ac.log (.frame f)).view := .one (.frame f) nofun rfl rfl rfl
    have hdrop : ∀ ac : Connection, ac.view.Calm (dropInput rest ac).view := fun ac =>
      .one (.inputDropped rest) nofun rfl rfl rfl
    have hframe : Call View.Calm ac.view (processFrame (innerCallbacks conf) f ac).2.view := by
      intro hs
      obtain ⟨hk, hreach⟩ := Reached.frame conf f ac hs
      have hs' : (ac.log (.frame f)).view.Sane := (SessionAct.frameLog f ac).sane hs
      have hserved := (Served.frame conf f ac hs').2
      refine ⟨hk, ⟨hk.trace, hreach.conf hs, fun hend => ?_, fun hend hfinal => ?_⟩⟩
      · exact ((hlog.trans (handles_calm (hserved.handled hend))).closing hend)
      · exact ((hlog.trans (handles_calm (hserved.handled hend))).final hend hfinal)
    intro hs
    obtain ⟨hk, hreach⟩ := parsed_reaches.frame conf f rest ac hs
    obtain ⟨-, hcalm⟩ := hframe hs
    refine ⟨hk, ?_⟩
    unfold frameStep
    generalize processFrame (innerCallbacks conf) f ac = r at hcalm ⊢
    dsimp only
    split_ifs
    · exact hcalm.trans (hdrop r.2)
    · exact hcalm

theorem fed_calm : Fed View.Calm := parsed_calm.fed

/-- What a handler does: calm effects, and at most the end of the session behind them. -/
def Connection.Finishes (conf : Conf) (ac r : Connection) : Prop :=
  Call View.Calm ac.view r.view ∨
    ∃ ac' rc, Call View.Calm ac.view ac'.view ∧ r = finalizeRc (outerCallbacks conf) rc ac'

namespace Connection.Finishes

variable {a b r : Connection} {conf : Conf}

theorem calm (h : Call View.Calm a.view r.view) : a.Finishes conf r := .inl h

theorem refl (a : Connection) : a.Finishes conf a := calm (fed_calm.callRefl _)

theorem finalizeRc (conf : Conf) (rc : Nat) (h : Call View.Calm a.view b.view) :
    a.Finishes conf (NgxAnytls.finalizeRc (outerCallbacks conf) rc b) := .inr ⟨b, rc, h, rfl⟩

theorem finalize (conf : Conf) (h : Call View.Calm a.view b.view) :
    a.Finishes conf (NgxAnytls.finalize (outerCallbacks conf) b) := finalizeRc conf streamOk h

theorem trans (h : Call View.Calm a.view b.view) (h' : b.Finishes conf r) :
    a.Finishes conf r := by
  rcases h' with h' | ⟨w, rc, h', rfl⟩
  · exact calm (fed_calm.callTrans h h')
  · exact finalizeRc conf rc (fed_calm.callTrans h h')

theorem sane (h : a.view.Sane → a.Finishes conf r) : a.Finishes conf r := by
  by_cases hs : a.view.Sane
  · exact h hs
  · exact calm fun hs' => absurd hs' hs

variable (conf)

theorem armOrFinalize (ac : Connection) :
    ac.Finishes conf (NgxAnytls.armOrFinalize (outerCallbacks conf) ac) := by
  unfold NgxAnytls.armOrFinalize
  dsimp only
  split_ifs
  · exact finalize (b := ac.arm.2) conf (fed_calm.callRefl _)
  · exact calm (fed_calm.callRefl _)

theorem fallbackConnect (timedout : Bool) (ac : Connection) :
    ac.Finishes conf (NgxAnytls.fallbackConnect (outerCallbacks conf) timedout ac).2 ∧
      ((NgxAnytls.fallbackConnect (outerCallbacks conf) timedout ac).1 = true →
        Call View.Calm ac.view
          (NgxAnytls.fallbackConnect (outerCallbacks conf) timedout ac).2.view) := by
  have hset : ∀ ac : Connection, Call View.Calm ac.view (setFbConnected ac).view := fun _ =>
    fed_calm.same ⟨⟨rfl, rfl, rfl, rfl, rfl, rfl, rfl, rfl, rfl, rfl, rfl, rfl⟩, rfl⟩
      ⟨rfl, rfl, rfl, rfl, rfl, rfl, rfl⟩
  have hconnected := hset ac.writableNext.sockErrNext
  have hrefl := fed_calm.callRefl ac.view
  unfold NgxAnytls.fallbackConnect
  dsimp only
  split_ifs
  · exact ⟨refl ac, fun _ => hrefl⟩
  · exact ⟨finalizeRc conf _ hrefl, nofun⟩
  · exact ⟨trans (b := ac.writableNext) hrefl (armOrFinalize conf _), nofun⟩
  · exact ⟨finalizeRc (b := ac.writableNext.sockErrNext) conf _ hrefl, nofun⟩
  · exact ⟨calm hconnected, fun _ => hconnected⟩

theorem fallbackWriteUpstream (ac : Connection) :
    ac.Finishes conf (NgxAnytls.fallbackWriteUpstream (outerCallbacks conf) ac) := by
  have hreplay := fed_calm.flushReplay ac
  unfold NgxAnytls.fallbackWriteUpstream
  dsimp only
  generalize NgxAnytls.flushReplay ac = r at hreplay ⊢
  obtain ⟨_ | _ | _, ac'⟩ := r
  · have hflush := fed_calm.callTrans hreplay (fed_calm.flushFbBuf .upstream ac')
    dsimp only
    generalize NgxAnytls.flushFbBuf .upstream ac' = r at hflush ⊢
    obtain ⟨_ | _ | _, ac''⟩ := r
    · dsimp only
      split_ifs
      · exact finalize (b := ac''.arm.2) conf hflush
      · exact trans (b := ac''.arm.2) hflush (armOrFinalize conf _)
    · exact calm hflush
    · exact finalize conf hflush
  · exact calm hreplay
  · exact finalize conf hreplay

theorem fallbackWrite (dst : FbSide) (timedout : Bool) (ac : Connection) :
    ac.Finishes conf (NgxAnytls.fallbackWrite (outerCallbacks conf) dst timedout ac) := by
  have hconnect : ∀ r, r = (if dst = .upstream then
      NgxAnytls.fallbackConnect (outerCallbacks conf) timedout ac else (true, ac)) →
      ac.Finishes conf r.2 ∧ (r.1 = true → Call View.Calm ac.view r.2.view) := by
    rintro r rfl
    split_ifs
    · exact fallbackConnect conf timedout ac
    · exact ⟨refl ac, fun _ => fed_calm.callRefl _⟩
  unfold NgxAnytls.fallbackWrite
  dsimp only
  obtain ⟨hdone, hgo⟩ := hconnect _ rfl
  generalize (if dst = .upstream then NgxAnytls.fallbackConnect (outerCallbacks conf) timedout ac
    else (true, ac)) = r at hdone hgo ⊢
  obtain ⟨_ | _, ac'⟩ := r
  · exact hdone
  have hac := hgo rfl
  have hclient := fed_calm.callTrans hac (fed_calm.flushFbBuf .client ac'.writableNext)
  generalize NgxAnytls.flushFbBuf .client ac'.writableNext = w at hclient ⊢
  rw [if_neg (show ¬(!true) = true by decide)]
  by_cases hwritable : (!ac'.writableRes) = true
  · rw [if_pos hwritable]
    exact trans (b := ac'.writableNext) hac (armOrFinalize conf _)
  rw [if_neg hwritable]
  by_cases hdst : dst = .upstream
  · rw [if_pos hdst]
    exact trans (b := ac'.writableNext) hac (fallbackWriteUpstream conf _)
  rw [if_neg hdst]
  obtain ⟨_ | _ | _, ac''⟩ := w
  · exact trans hclient (armOrFinalize conf ac'')
  · exact calm hclient
  · exact finalize conf hclient

theorem fallbackReadLoop (dst : FbSide) (n bytes : Nat) (b : FbBuf) (ac : Connection)
    (hstate : dst = .upstream → ac.state = .fallback) :
    ac.Finishes conf (NgxAnytls.fallbackReadLoop (outerCallbacks conf) dst n bytes b ac) := by
  have hstop : ∀ (b : FbBuf) (ac : Connection), ac.Finishes conf
      (NgxAnytls.armOrFinalize (outerCallbacks conf) (NgxAnytls.setFbBuf dst (some b) ac)) :=
    fun b ac => trans (fed_calm.setFbBuf dst (some b) ac) (armOrFinalize conf _)
  have hfail : ∀ (b : FbBuf) (ac : Connection), ac.Finishes conf
      (NgxAnytls.finalize (outerCallbacks conf) (NgxAnytls.setFbBuf dst (some b) ac)) :=
    fun b ac => finalize conf (fed_calm.setFbBuf dst (some b) ac)
  induction n generalizing bytes b ac with
  | zero => exact hstop b ac
  | succ n ih =>
    have hrecv := fed_calm.relayRecv dst (b.cap - b.data.length) ac (fed_calm.reads dst) hstate
    have hrecvState := relayRecv_state dst (b.cap - b.data.length) ac
    unfold NgxAnytls.fallbackReadLoop
    generalize NgxAnytls.relayRecv dst (b.cap - b.data.length) ac = r at hrecv hrecvState ⊢
    by_cases hfull : b.cap ≤ b.data.length
    · rw [if_pos hfull]
      exact hstop b ac
    · rw [if_neg hfull]
      obtain ⟨_ | _ | bs, ac'⟩ := r
      · exact trans hrecv (hstop b ac')
      · exact trans hrecv (hfail b ac')
      · dsimp only
        by_cases hnil : bs = []
        · rw [if_pos hnil]
          exact trans hrecv (hfail b ac')
        · rw [if_neg hnil]
          have hflush := fed_calm.callTrans hrecv
            (fed_calm.flushBuf dst { b with data := b.data ++ bs } ac')
          have hflushState : (NgxAnytls.flushBuf dst
            { b with data := b.data ++ bs } ac').2.2.state =
              ac'.state := flushBufLoop_state _ _ _ _ _
          generalize NgxAnytls.flushBuf dst { b with data := b.data ++ bs } ac' = w
            at hflush hflushState ⊢
          obtain ⟨_ | _ | _, b', ac''⟩ := w
          · dsimp only
            split_ifs
            · exact trans hflush (hstop b' ac'')
            · exact trans hflush
                (ih _ _ _ fun hdst => (hflushState.trans hrecvState).trans (hstate hdst))
          · exact calm (fed_calm.callTrans hflush (fed_calm.setFbBuf _ _ _))
          · exact trans hflush (hfail b' ac'')

theorem fallbackRead (dst : FbSide) (ac : Connection)
    (hstate : dst = .upstream → ac.state = .fallback) :
    ac.Finishes conf (NgxAnytls.fallbackRead (outerCallbacks conf) dst ac) := by
  have hflush := fed_calm.flushFbBuf dst ac
  unfold NgxAnytls.fallbackRead
  dsimp only
  by_cases hreplay : dst = .upstream ∧ ac.fb.replay.isSome
  · rw [if_pos hreplay]
    exact armOrFinalize conf ac
  · rw [if_neg hreplay]
    cases fbBuf dst ac with
    | none =>
      have hnext : Call View.Calm ac.view ac.allocNext.view := fed_calm.callRefl _
      dsimp only
      split_ifs
      · exact finalize conf hnext
      · exact trans hnext (fallbackReadLoop conf dst _ _ _ ac.allocNext hstate)
    | some b =>
      dsimp only
      split_ifs
      · exact finalize conf hflush
      · exact calm hflush
      · exact fallbackReadLoop conf dst _ _ b ac hstate

theorem clientReadDone (exhausted : Bool) (ac : Connection) :
    Call View.Calm ac.view (NgxAnytls.clientReadDone exhausted ac).view := by
  rw [Ended.clientReadDone_view]
  exact fed_calm.callRefl _

theorem readOnce (ac : Connection) :
    ac.Finishes ac.conf (clientReadOnce ac).2 ∧
      ((clientReadOnce ac).1.isSome → Call View.Calm ac.view (clientReadOnce ac).2.view) := by
  have hnext : Call View.Calm ac.view ac.clientRecvNext.view := fed_calm.callRefl _
  have hdone := fed_calm.callTrans hnext (clientReadDone false ac.clientRecvNext)
  have heof : Call View.Calm ac.view (setClientEof ac.clientRecvNext).view :=
    fed_calm.callRefl _
  unfold clientReadOnce
  dsimp only
  cases ac.clientRecvRes with
  | again => exact ⟨calm hdone, nofun⟩
  | error => exact ⟨finalize ac.conf hnext, nofun⟩
  | data bs =>
    have hparse := fed_calm.callTrans hnext
      (fed_calm.feed ac.conf (bs.take (readBufSize ac.conf)) ac.clientRecvNext)
    have hconf : ac.clientRecvNext.conf = ac.conf := rfl
    dsimp only
    rw [hconf]
    generalize processClientBytes (innerCallbacks ac.conf)
      (ac.clientRecvNext.remnant ++ bs.take (readBufSize ac.conf)) _ = r at hparse ⊢
    by_cases hnil : bs.take (readBufSize ac.conf) = []
    · rw [if_pos hnil]
      exact ⟨finalize ac.conf heof, nofun⟩
    · rw [if_neg hnil]
      split_ifs
      · exact ⟨finalize ac.conf hparse, nofun⟩
      · exact ⟨calm hparse, nofun⟩
      · exact ⟨calm hparse, nofun⟩
      · exact ⟨calm hparse, fun _ => hparse⟩

theorem readClient (n bytes : Nat) (ac : Connection) :
    ac.Finishes ac.conf (clientReadLoop n bytes ac) := by
  induction n generalizing bytes ac with
  | zero => exact calm (clientReadDone true ac)
  | succ n ih =>
    obtain ⟨hdone, hgo⟩ := readOnce ac
    unfold clientReadLoop
    generalize clientReadOnce ac = r at hdone hgo ⊢
    obtain ⟨_ | m, ac'⟩ := r
    · exact hdone
    · have hac := hgo rfl
      dsimp only
      split_ifs
      · exact calm (fed_calm.callTrans hac (clientReadDone true ac'))
      · refine sane fun hs => trans hac ?_
        have hconf : ac'.conf = ac.conf := (hac hs).2.conf
        exact hconf ▸ ih (bytes + m) ac'

theorem clientRead (timedout : Bool) (ac : Connection) :
    ac.Finishes ac.conf (clientReadHandler timedout ac) := by
  have hresume := (fed_calm.outer ac.conf).resume ac
  unfold clientReadHandler
  dsimp only
  generalize (outerCallbacks ac.conf).resume ac = r at hresume ⊢
  split_ifs with _ hstate
  · exact finalize ac.conf (fed_calm.callRefl _)
  · exact fallbackRead ac.conf .upstream ac fun _ => hstate
  · exact finalize ac.conf hresume
  · exact calm hresume
  · exact refl ac
  · exact readClient _ _ _

theorem clientWrite (ac : Connection) : ac.Finishes ac.conf (clientWriteHandler ac) := by
  have hclear : Call View.Calm ac.view (clearWritePending ac).view := fed_calm.callRefl _
  have hdrain := fed_calm.callTrans hclear
    ((fed_calm.outer ac.conf).drain 0 true (clearWritePending ac))
  have hfallback := trans hclear (fallbackWrite ac.conf .client false (clearWritePending ac))
  unfold clientWriteHandler
  dsimp only
  generalize clientMuxDrain (outerCallbacks ac.conf) 0 true (clearWritePending ac) = r
    at hdrain ⊢
  split_ifs
  · exact hfallback
  · exact finalize ac.conf hdrain
  · exact calm hdrain

theorem upstreamWrite (h : Handle) (timedout ready : Bool) (ac : Connection)
    (hup : (ac.streams h).upstream.isSome) (hknown : h < ac.nstreams) :
    ac.Finishes ac.conf (upstreamWriteHandler (outerCallbacks ac.conf) h timedout
      (if ready then reportWritable h ac else ac)) := by
  have hview : (if ready then reportWritable h ac else ac).view = ac.view := by
    split_ifs
    · exact Unfed.reportWritable_view h ac
    · rfl
  generalize (if ready then reportWritable h ac else ac) = ac' at hview ⊢
  have hn : ac'.nstreams = ac.nstreams := congrArg View.nstreams hview
  have hup' : ac'.view.streams h |>.hasUpstream := by
    rw [hview]
    exact hup
  refine trans (b := ac') (hview ▸ fed_calm.callRefl _) (calm ?_)
  exact (fed_calm.outer ac.conf).writeHandler h timedout ac' hup' (by rwa [hn])

theorem uotIdle (h : Handle) (ac : Connection) (hknown : h < ac.nstreams) :
    ac.Finishes ac.conf (uotIdleTimeoutHandler (outerCallbacks ac.conf) h
      (expireUotTimer h ac)) := by
  have hview := Unfed.expireUotTimer_view h ac
  generalize expireUotTimer h ac = ac' at hview ⊢
  have hn : ac'.nstreams = ac.nstreams := congrArg View.nstreams hview
  refine trans (b := ac') (hview ▸ fed_calm.callRefl _) (calm ?_)
  exact (fed_calm.outer ac.conf).uotIdle h ac' (by rwa [hn])

/-- The handler of an event that can happen. -/
theorem handle (e : Event) (ac : Connection) (he : e.enabled ac) :
    ac.Finishes ac.conf (NgxAnytls.handle e ac) := by
  have hk := fed_calm.outer ac.conf
  have hposted : Call View.Calm ac.view (unpostRead ac).view := fed_calm.callRefl _
  have hwrite : Call View.Calm ac.view (unpostWrite ac).view := fed_calm.callRefl _
  have htimer : Call View.Calm ac.view (stopWriteTimer ac).view := fed_calm.callRefl _
  unfold NgxAnytls.handle
  cases e with
  | clientRead timedout => exact trans hposted (clientRead timedout _)
  | clientWrite => exact trans hwrite (clientWrite _)
  | upstreamRead h => exact calm (hk.readReady h ac)
  | upstreamWrite h timedout ready =>
    obtain ⟨hknown, hup⟩ : h < ac.nstreams ∧ (ac.streams h).upstream.isSome := by
      simpa [Event.enabled] using he
    exact upstreamWrite h timedout ready ac hup hknown
  | udpRead h => exact calm (hk.udpRead h ac (by simp [Event.enabled] at he; exact he.1))
  | uotIdle h => exact uotIdle h ac (by simp [Event.enabled] at he; exact he.1)
  | resolved h a => exact calm (hk.resolveHandler h a ac)
  | writeTimeout => exact finalize ac.conf htimer
  | fallbackRead => exact fallbackRead ac.conf .client ac (by rintro ⟨⟩)
  | fallbackWrite timedout => exact fallbackWrite ac.conf .upstream timedout ac

end Connection.Finishes

/-- A session is running, or its finalization was the last thing that happened to it: it is what
`ngx_anytls_finalize_rc` left of a session that was open and not finalized. -/
def Connection.Settled (conf : Conf) (ac : Connection) : Prop :=
  (ac.closing = false ∧ NotFinal ac.trace) ∨
    ∃ (w : Connection) (rc : Nat), ac = finalizeRc (outerCallbacks conf) rc w ∧
      w.closing = false ∧ NotFinal w.trace ∧
        ∃ v : Connection, ac = v.log (.finalize rc) ∧ v.closing ∧ NotFinal v.trace

private theorem finalizeRc_settled (conf : Conf) (rc : Nat) (ac : Connection) (hs : ac.view.Sane)
    (hopen : ac.closing = false) (hfinal : NotFinal ac.trace)
    (hend : .ending ∉ (finalizeRc (outerCallbacks conf) rc ac).trace) :
    (finalizeRc (outerCallbacks conf) rc ac).Settled conf := by
  have hmark : (markClosing ac).view.Sane :=
    SessionAct.sane (.close (.finalizing (v := ac.view) hopen)) hs
  have hall := (fed_calm.outer conf).closeAll ac.streamList (markClosing ac) rfl hmark
  refine .inr ⟨ac, rc, rfl, hopen, hfinal, ?_⟩
  rw [finalizeRc, if_neg (by simp [hopen])] at hend ⊢
  refine ⟨_, rfl, hall.1.closing rfl, ?_⟩
  exact hall.2.final (fun hm => hend (List.mem_append_left _ hm)) hfinal

/-- One event finalizes a running session at most with its last effect. -/
theorem step_settled (ac : Connection) (e : Event × Env) (hs : ac.view.Sane)
    (hi : ac.Settled ac.conf) (hend : .ending ∉ (step ac e).trace) :
    (step ac e).Settled ac.conf := by
  rcases hi with ⟨hopen, hfinal⟩ | hdone
  · unfold step at hend ⊢
    by_cases hstop : ac.closing = true ∨ ac.hung = true ∨ (!e.1.enabled ac) = true
    · rw [if_pos hstop]
      exact .inl ⟨hopen, hfinal⟩
    · rw [if_neg hstop] at hend ⊢
      have he : e.1.enabled ((setEnv e.2 ac).log (.event e.1)) := by
        simp only [not_or, Bool.not_eq_true', Bool.not_eq_false] at hstop
        exact hstop.2.2
      have hlog : Call View.Calm ac.view ((setEnv e.2 ac).log (.event e.1)).view :=
        fed_calm.log (.event e.1) trivial
          ⟨rfl, rfl, rfl, rfl, rfl, rfl, rfl, rfl, rfl, rfl, rfl, rfl⟩
          ⟨rfl, rfl, rfl, rfl, rfl, rfl, rfl⟩ rfl
      have hhandle := (Connection.Finishes.handle e.1 _ he).trans hlog
      generalize handle e.1 ((setEnv e.2 ac).log (.event e.1)) = r at hhandle hend ⊢
      rcases hhandle with hcalm | ⟨ac', rc, hcalm, rfl⟩
      · obtain ⟨-, h⟩ := hcalm hs
        exact .inl ⟨(h.closing hend).trans hopen, h.final hend hfinal⟩
      · obtain ⟨hk, h⟩ := hcalm hs
        have hend' : .ending ∉ ac'.trace := fun hm => hend <|
          ((ended_reaches.outer _).finalizeRc ended_reaches.ending rc ac' hk.sane).1.trace.subset hm
        exact finalizeRc_settled _ rc ac' hk.sane ((h.closing hend').trans hopen)
          (h.final hend' hfinal) hend
  · have hclosing : ac.closing = true := by
      obtain ⟨w, rc, -, -, -, v, rfl, hc, -⟩ := hdone
      exact hc
    rw [step, if_pos (.inl hclosing)]
    exact .inr hdone

/-- The client closes its connection while a name is looked up. -/
def eofRun : List (Event × Env) :=
  [sampleOpen sampleV2 sampleDomain {}, sampleRead [] {}, (.clientRead false, {})]

/-- The client sends an ALERT. -/
def alertRun : List (Event × Env) := [sampleRead (sampleHello sampleV2 ++ encodeFrame 5 0 [98]) {}]

end NgxAnytls
