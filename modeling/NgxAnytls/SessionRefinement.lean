import NgxAnytls.DispatchRefinement

/-! Sessions refine the abstract session: client bytes, the fallback relay, event handlers and
runs. -/

namespace NgxAnytls

open Relation

/-- A frame handled, with what stands behind it given up when that failed. -/
def frameStep (k : Callbacks) (f : Frame) (rest : Bytes) (ac : Connection) : Rc × Connection :=
  let r := processFrame k f ac
  if r.1 ≠ .ok then (r.1, dropInput rest r.2) else r

theorem processFrames_ok (k : Callbacks) (n : Nat) (pos : Bytes) (ac : Connection) {f : Frame}
    {consumed : Nat} (hf : parseFrame pos = .ok f consumed) :
    processFrames k (n + 1) pos ac =
      let r := frameStep k f (pos.drop consumed) ac
      if r.1 ≠ .ok then r
      else if r.2.inputPaused then keepRemnant (pos.drop consumed) r.2
      else processFrames k n (pos.drop consumed) r.2 := by
  rw [processFrames]
  simp only [hf, frameStep]
  by_cases hrc : (processFrame k f ac).1 = .ok <;> simp [hrc]

/-- Effects that cover client input: a frame counts as one effect. -/
structure Parsed (P : View → View → Prop) : Prop extends Steps P where
  act : ∀ {v v'}, v.Sane → Act v v' → P v v'
  input : ∀ {v v'}, v.SameMux v' → v'.trace = v.trace → P v v'
  inputLog : ∀ {v v'} (o : Obs), o.IsInput → v.SameMux v' → v'.trace = v.trace ++ [o] → P v v'
  frame : ∀ conf f rest ac,
    Call P ac.view (frameStep (innerCallbacks conf) f rest ac).2.view

/-- Effects that cover the event handlers, apart from what a read of the client brings and from the
end of the session: the parse of what is held back counts as one effect. -/
structure Woken (P : View → View → Prop) : Prop extends Steps P where
  act : ∀ {v v'}, v.Sane → Act v v' → P v v'
  relay : ∀ {v v'}, v.SameMux v' → v.SameHeld v' → v'.trace = v.trace → P v v'
  relayLog : ∀ {v v'} (o : Obs), o.IsRelay → v.SameMux v' → v.SameHeld v' →
    v'.trace = v.trace ++ [o] → P v v'
  resume : ∀ conf ac,
    Call P ac.view (inputResume (processClientBytes (innerCallbacks conf)) ac).2.view

/-- Effects that cover the event handlers: the parse of what a read brought counts as one effect. -/
structure Fed (P : View → View → Prop) : Prop extends Woken P where
  received : ∀ {v} (bs : Bytes), v.state = .fallback → P v (v.log (.clientRecv bs))
  feed : ∀ conf bs ac, Call P ac.view (processClientBytes (innerCallbacks conf) (ac.remnant ++ bs)
    ((setRemnant [] ac).log (.clientRecv bs))).2.view

/-- What the relay reads of the client counts as one effect. -/
def ReadsClient (P : View → View → Prop) (dst : FbSide) : Prop :=
  dst = .upstream → ∀ (v : View) (bs : Bytes), v.state = .fallback → P v (v.log (.clientRecv bs))

theorem Fed.reads {P : View → View → Prop} (hP : Fed P) (dst : FbSide) : ReadsClient P dst :=
  fun _ _ bs => hP.received bs

/-- Effects that cover the handlers that read nothing of the client. -/
structure Unfed (P : View → View → Prop) : Prop extends Woken P where
  close : ∀ {v v'}, EndAct v v' → P v v'

/-- Effects that cover whole sessions. -/
structure Ended (P : View → View → Prop) : Prop extends Fed P, Unfed P

namespace Parsed

variable {P : View → View → Prop} {v v' : View}

theorem callRefl (hP : Parsed P) (v : View) : Call P v v := fun hs => ⟨.refl hs, hP.refl v⟩

theorem callTrans (hP : Parsed P) {a b c : View} (hab : Call P a b) (hbc : Call P b c) :
    Call P a c := hP.toSteps.call_trans hab hbc

theorem same (hP : Parsed P) (h : v.SameBut v') : Call P v v' := call_input hP.input h.1 h.2

theorem log (hP : Parsed P) (o : Obs) (ho : o.IsInput) (h : v.SameMux v')
    (ht : v'.trace = v.trace ++ [o]) : Call P v v' := fun hs =>
  have hs' : v'.Sane := SessionAct.sane (.inputLog o ho h ht) hs
  ⟨h.keeps hs' [o] (by simpa using ho) ht, hP.inputLog o ho h ht⟩

theorem frames (hP : Parsed P) (conf : Conf) (n : Nat) (pos : Bytes) (ac : Connection) :
    Call P ac.view (processFrames (innerCallbacks conf) n pos ac).2.view := by
  have hkeep : ∀ (pos : Bytes) (ac : Connection), Call P ac.view (keepRemnant pos ac).2.view :=
    fun pos ac => hP.same ⟨⟨rfl, rfl, rfl, rfl, rfl, rfl, rfl, rfl, rfl, rfl, rfl, rfl⟩, rfl⟩
  induction n generalizing pos ac with
  | zero => exact hkeep pos ac
  | succ n ih =>
    cases hf : parseFrame pos with
    | again => rw [processFrames]; simp only [hf]; exact hkeep pos ac
    | error => exact absurd hf (parseFrame_ne_error pos)
    | ok f consumed =>
      rw [processFrames_ok _ n pos ac hf]
      have hone := hP.frame conf f (pos.drop consumed) ac
      generalize frameStep (innerCallbacks conf) f (pos.drop consumed) ac = r at hone ⊢
      dsimp only
      split_ifs
      · exact hone
      · exact hP.callTrans hone (hkeep _ _)
      · exact hP.callTrans hone (ih _ _)

end Parsed

theorem authTake_same (limit : Nat) (data : Bytes) (ac : Connection) :
    ac.view.SameBut (authTake limit data ac).2.view :=
  ⟨⟨rfl, rfl, rfl, rfl, rfl, rfl, rfl, rfl, rfl, rfl, rfl, rfl⟩, rfl⟩

theorem authPad_same (consumed : Nat) (data : Bytes) (ac : Connection) :
    ac.view.SameBut (authPad consumed data ac).2.2.view := by
  have htake : ∀ ac' : Connection, ac.view.SameBut ac'.view → ∀ limit,
      ac.view.SameBut (authTake limit data ac').2.view := fun ac' h limit =>
    h.trans (authTake_same limit data ac')
  have hpad : ac.view.SameBut (setAuthPadding (authPadding ac) ac).view :=
    ⟨⟨rfl, rfl, rfl, rfl, rfl, rfl, rfl, rfl, rfl, rfl, rfl, rfl⟩, rfl⟩
  have hdone : ∀ ac' : Connection, ac'.view.SameBut (setAuthenticated ac').view :=
    fun _ => ⟨⟨rfl, rfl, rfl, rfl, rfl, rfl, rfl, rfl, rfl, rfl, rfl, rfl⟩, rfl⟩
  unfold authPad
  dsimp only
  split_ifs
  · exact htake _ hpad _
  · exact (htake _ hpad _).trans (hdone _)
  · exact hpad.trans (hdone _)

/-- Authentication only touches the auth buffer and the session's flags. -/
theorem authProcess_same (data : Bytes) (ac : Connection) :
    ac.view.SameBut (authProcess data ac).2.2.view := by
  have hfirst : ac.view.SameBut (if ac.auth.length < authPrefixLen then
      authTake authPrefixLen data ac else (0, ac)).2.view := by
    split_ifs
    · exact authTake_same _ _ _
    · exact .refl _
  have huser : ∀ (u : User) (ac : Connection), ac.view.SameBut (setUser u ac).view :=
    fun _ _ => ⟨⟨rfl, rfl, rfl, rfl, rfl, rfl, rfl, rfl, rfl, rfl, rfl, rfl⟩, rfl⟩
  unfold authProcess
  dsimp only
  generalize (if ac.auth.length < authPrefixLen then authTake authPrefixLen data ac
    else (0, ac)) = t at hfirst ⊢
  split_ifs
  · exact hfirst
  · exact hfirst.trans (authPad_same _ _ _)
  · cases matchUser t.2 with
    | none => exact hfirst.trans (authTake_same _ _ _)
    | some u => exact hfirst.trans ((huser u t.2).trans (authPad_same _ _ _))

namespace Parsed

variable {P : View → View → Prop} {v v' : View} {k : Callbacks}

theorem callNote (hP : Parsed P) (o : Obs) (ho : o.IsNote) (v : View) : Call P v (v.log o) :=
  fun hs => ⟨(Act.note o ho).keeps hs, hP.toSteps.note o ho⟩

theorem openFallback (hP : Parsed P) (b : Bool) (ac : Connection) :
    Call P ac.view (NgxAnytls.openFallback b ac).view :=
  hP.same ⟨⟨rfl, rfl, rfl, rfl, rfl, rfl, rfl, rfl, rfl, rfl, rfl, rfl⟩, rfl⟩

/-- The replay of an opened relay, behind the header. -/
theorem replay (hP : Parsed P) (raw : Bytes) (ac : Connection) :
    Call P ac.view (startReplay (takeProxyHeader ac).1 raw (takeProxyHeader ac).2).view := by
  have hheader : (takeProxyHeader ac).2.view = ac.view := by
    unfold takeProxyHeader
    split_ifs <;> rfl
  generalize takeProxyHeader ac = p at hheader ⊢
  rw [← hheader]
  exact hP.log (.fallbackOpen p.1) trivial
    ⟨rfl, rfl, rfl, rfl, rfl, rfl, rfl, rfl, rfl, rfl, rfl, rfl⟩ rfl

theorem fallbackStart (hP : Parsed P) (raw : Bytes) (ac : Connection) :
    Call P ac.view (NgxAnytls.fallbackStart raw ac).2.view := by
  have hnext : ac.allocNext.connectNext.view = ac.view := rfl
  have hstart : ∀ ac' : Connection, Call P ac.view ac'.view →
      Call P ac.view (if !ac'.allocOk then ((.error : Rc), ac'.allocNext)
        else (.ok, startReplay (takeProxyHeader ac'.allocNext).1 raw
          (takeProxyHeader ac'.allocNext).2)).2.view := by
    intro ac' h
    have hreplay := hP.callTrans h (hP.replay raw ac'.allocNext)
    split_ifs
    · exact h
    · exact hreplay
  have hopen := fun b => hP.openFallback b ac.allocNext.connectNext
  rw [hnext] at hopen
  unfold NgxAnytls.fallbackStart
  split_ifs
  · exact hP.callRefl _
  · exact hP.callRefl _
  · dsimp only
    generalize ac.allocNext.connectNext = ac' at hnext hopen ⊢
    cases ac.allocNext.connectRes with
    | error =>
      dsimp only
      rw [hnext]
      exact hP.callRefl _
    | ok => exact hstart _ (hopen _)
    | again => exact hstart _ (hopen _)

/-- Client bytes: authentication, frames or the start of the relay. -/
theorem clientBytes (hP : Parsed P) (conf : Conf) (data : Bytes) (ac : Connection) :
    Call P ac.view (processClientBytes (innerCallbacks conf) data ac).2.view := by
  have hauth := hP.same (authProcess_same data ac)
  unfold processClientBytes
  split_ifs
  · exact hP.callRefl _
  · exact hP.frames conf _ _ _
  · generalize authProcess data ac = r at hauth ⊢
    obtain ⟨_ | _ | _, consumed, ac'⟩ := r
    · exact hauth
    · dsimp only
      split_ifs
      · exact hauth
      · exact hP.callTrans hauth (hP.frames conf _ _ _)
    · dsimp only
      split_ifs
      · exact hauth
      · exact hP.callTrans hauth (hP.fallbackStart _ _)

/-- The resume of an event handler. -/
theorem resume (hP : Parsed P) (conf : Conf) (ac : Connection) :
    Call P ac.view (inputResume (processClientBytes (innerCallbacks conf)) ac).2.view := by
  have hpause : ac.view.SameBut (setInputPaused false ac).view :=
    ⟨⟨rfl, rfl, rfl, rfl, rfl, rfl, rfl, rfl, rfl, rfl, rfl, rfl⟩, rfl⟩
  have hdrop : ac.view.SameBut (setRemnant [] (setInputPaused false ac)).view :=
    ⟨⟨rfl, rfl, rfl, rfl, rfl, rfl, rfl, rfl, rfl, rfl, rfl, rfl⟩, rfl⟩
  have hparse := hP.callTrans (hP.same hdrop)
    (hP.clientBytes conf (setInputPaused false ac).remnant
    (setRemnant [] (setInputPaused false ac)))
  have hunblock : ∀ ac : Connection, ac.view.SameBut (setReadBlocked false ac).view :=
    fun _ => ⟨⟨rfl, rfl, rfl, rfl, rfl, rfl, rfl, rfl, rfl, rfl, rfl, rfl⟩, rfl⟩
  unfold inputResume
  dsimp only
  generalize processClientBytes (innerCallbacks conf) (setInputPaused false ac).remnant
    (setRemnant [] (setInputPaused false ac)) = r at hparse ⊢
  split_ifs
  · exact hP.callRefl _
  · exact hP.callRefl _
  · exact hP.callRefl _
  · exact hparse
  · exact hparse
  · rw [enableClientRead_view]
    exact hP.callTrans hparse (hP.same (hunblock _))
  · rw [enableClientRead_view]
    exact hP.same (hpause.trans (hunblock (setInputPaused false ac)))

/-- Client input in single frames is client input. -/
theorem fed (hP : Parsed P) : Fed P where
  toSteps := hP.toSteps
  act := hP.act
  relay hm _ ht := hP.input hm ht
  relayLog o ho hm _ ht := by
    refine hP.inputLog o ?_ hm ht
    cases o <;> trivial
  received bs _ := hP.inputLog (.clientRecv bs) trivial
    ⟨rfl, rfl, rfl, rfl, rfl, rfl, rfl, rfl, rfl, rfl, rfl, rfl⟩ rfl
  resume := hP.resume
  feed conf bs ac := by
    have hrecv : Call P ac.view ((setRemnant [] ac).log (.clientRecv bs)).view :=
      hP.log (.clientRecv bs) trivial
        ⟨rfl, rfl, rfl, rfl, rfl, rfl, rfl, rfl, rfl, rfl, rfl, rfl⟩ rfl
    exact hP.callTrans hrecv (hP.clientBytes conf (ac.remnant ++ bs) _)

end Parsed

namespace Woken

variable {P : View → View → Prop} {v v' : View} {k : Callbacks}

theorem callRefl (hP : Woken P) (v : View) : Call P v v := fun hs => ⟨.refl hs, hP.refl v⟩

theorem callTrans (hP : Woken P) {a b c : View} (hab : Call P a b) (hbc : Call P b c) :
    Call P a c := hP.toSteps.call_trans hab hbc

theorem callNote (hP : Woken P) (o : Obs) (ho : o.IsNote) (v : View) : Call P v (v.log o) :=
  fun hs => ⟨(Act.note o ho).keeps hs, hP.toSteps.note o ho⟩

theorem same (hP : Woken P) (h : v.SameBut v') (hh : v.SameHeld v') : Call P v v' :=
  call_input (fun hm ht => hP.relay hm hh ht) h.1 h.2

theorem log (hP : Woken P) (o : Obs) (ho : o.IsRelay) (h : v.SameMux v') (hh : v.SameHeld v')
    (ht : v'.trace = v.trace ++ [o]) : Call P v v' := by
  have hin : o.IsInput := by cases o <;> trivial
  intro hs
  have hs' : v'.Sane := SessionAct.sane (.inputLog o hin h ht) hs
  exact ⟨h.keeps hs' [o] (by simpa using hin) ht, hP.relayLog o ho h hh ht⟩

theorem logRelay (hP : Woken P) (dst : FbSide) (bs : Bytes) (ac : Connection) :
    Call P ac.view (NgxAnytls.logRelay dst bs ac).view := by
  cases dst with
  | client => exact hP.callNote (.fallbackRelay bs) trivial _
  | upstream =>
    exact hP.log (.fallbackSend bs) trivial
      ⟨rfl, rfl, rfl, rfl, rfl, rfl, rfl, rfl, rfl, rfl, rfl, rfl⟩
      ⟨rfl, rfl, rfl, rfl, rfl, rfl, rfl⟩ rfl

theorem flushBufLoop (hP : Woken P) (dst : FbSide) (n sent : Nat) (b : FbBuf) (ac : Connection) :
    Call P ac.view (NgxAnytls.flushBufLoop dst n sent b ac).2.2.view := by
  induction n generalizing sent b ac with
  | zero => exact hP.callRefl _
  | succ n ih =>
    unfold NgxAnytls.flushBufLoop
    split_ifs with hlen
    · exact hP.callRefl _
    · cases ac.sendRes with
      | again => exact hP.callRefl _
      | error => exact hP.callRefl _
      | done m =>
        dsimp only
        split_ifs
        · exact hP.callRefl _
        · exact hP.logRelay dst _ ac.sendNext
        · exact hP.logRelay dst _ ac.sendNext
        · exact hP.callTrans (hP.logRelay dst _ ac.sendNext) (ih _ _ _)

theorem flushBuf (hP : Woken P) (dst : FbSide) (b : FbBuf) (ac : Connection) :
    Call P ac.view (NgxAnytls.flushBuf dst b ac).2.2.view := hP.flushBufLoop dst _ _ _ _

theorem setReplay (hP : Woken P) (b : Option FbBuf) (ac : Connection) :
    Call P ac.view (NgxAnytls.setReplay b ac).view :=
  hP.same ⟨⟨rfl, rfl, rfl, rfl, rfl, rfl, rfl, rfl, rfl, rfl, rfl, rfl⟩, rfl⟩
    ⟨rfl, rfl, rfl, rfl, rfl, rfl, rfl⟩

theorem setFbBuf (hP : Woken P) (dst : FbSide) (b : Option FbBuf) (ac : Connection) :
    Call P ac.view (NgxAnytls.setFbBuf dst b ac).view := by
  cases dst
  · exact hP.same ⟨⟨rfl, rfl, rfl, rfl, rfl, rfl, rfl, rfl, rfl, rfl, rfl, rfl⟩, rfl⟩
      ⟨rfl, rfl, rfl, rfl, rfl, rfl, rfl⟩
  · exact hP.same ⟨⟨rfl, rfl, rfl, rfl, rfl, rfl, rfl, rfl, rfl, rfl, rfl, rfl⟩, rfl⟩
      ⟨rfl, rfl, rfl, rfl, rfl, rfl, rfl⟩

theorem flushReplay (hP : Woken P) (ac : Connection) :
    Call P ac.view (NgxAnytls.flushReplay ac).2.view := by
  unfold NgxAnytls.flushReplay
  cases ac.fb.replay with
  | none => exact hP.callRefl _
  | some b =>
    have hflush := hP.flushBuf .upstream b ac
    dsimp only
    generalize NgxAnytls.flushBuf .upstream b ac = r at hflush ⊢
    obtain ⟨_ | _ | _, b', ac'⟩ := r
    · exact hP.callTrans hflush (hP.setReplay _ _)
    · exact hP.callTrans hflush (hP.setReplay _ _)
    · exact hP.callTrans hflush (hP.setReplay _ _)

theorem flushFbBuf (hP : Woken P) (dst : FbSide) (ac : Connection) :
    Call P ac.view (NgxAnytls.flushFbBuf dst ac).2.view := by
  unfold NgxAnytls.flushFbBuf
  cases fbBuf dst ac with
  | none => exact hP.callRefl _
  | some b => exact hP.callTrans (hP.flushBuf dst b ac) (hP.setFbBuf _ _ _)

/-- What an event handler calls. -/
theorem outer (hP : Woken P) (conf : Conf) : Closed (outerCallbacks conf) (Call P) :=
  hP.toSteps.callbacks hP.act (hP.resume conf) _

theorem relayRecv (hP : Woken P) (dst : FbSide) (size : Nat) (ac : Connection)
    (hreads : ReadsClient P dst) (hstate : dst = .upstream → ac.state = .fallback) :
    Call P ac.view (NgxAnytls.relayRecv dst size ac).2.view := by
  unfold NgxAnytls.relayRecv
  cases dst with
  | client => cases ac.recvRes <;> exact hP.callRefl _
  | upstream =>
    cases ac.clientRecvRes with
    | again => exact hP.callRefl _
    | error => exact hP.callRefl _
    | data bs =>
      have hmux : ac.view.SameMux (ac.view.log (.clientRecv (bs.take size))) :=
        ⟨rfl, rfl, rfl, rfl, rfl, rfl, rfl, rfl, rfl, rfl, rfl, rfl⟩
      intro hs
      have hs' := SessionAct.sane (.inputLog (.clientRecv (bs.take size)) trivial hmux rfl) hs
      exact ⟨hmux.keeps hs' [.clientRecv (bs.take size)] (by simp [Obs.IsInput]) rfl,
        hreads rfl _ _ (hstate rfl)⟩

end Woken

theorem relayRecv_state (dst : FbSide) (size : Nat) (ac : Connection) :
    (relayRecv dst size ac).2.state = ac.state := by
  unfold relayRecv
  cases dst with
  | client => cases ac.recvRes <;> rfl
  | upstream => cases ac.clientRecvRes <;> rfl

theorem flushBufLoop_state (dst : FbSide) (n sent : Nat) (b : FbBuf) (ac : Connection) :
    (flushBufLoop dst n sent b ac).2.2.state = ac.state := by
  induction n generalizing sent b ac with
  | zero => rfl
  | succ n ih =>
    unfold flushBufLoop
    split_ifs
    · rfl
    · cases ac.sendRes with
      | again => rfl
      | error => rfl
      | done m =>
        dsimp only
        split_ifs
        · rfl
        · rfl
        · rfl
        · exact ih _ _ _

namespace Unfed

variable {P : View → View → Prop} {v v' : View} {k : Callbacks}

theorem ending (hP : Unfed P) (h : EndAct v v') : Call P v v' := fun hs => ⟨h.keeps hs, hP.close h⟩

section Relay

variable (hP : Unfed P) (hk : Closed k (Call P))

include hP hk

theorem armOrFinalize (ac : Connection) : Call P ac.view (NgxAnytls.armOrFinalize k ac).view := by
  unfold NgxAnytls.armOrFinalize
  dsimp only
  split_ifs
  · exact hk.finalize hP.ending ac.arm.2
  · exact hP.callRefl _

theorem fallbackConnect (timedout : Bool) (ac : Connection) :
    Call P ac.view (NgxAnytls.fallbackConnect k timedout ac).2.view := by
  have hset : ∀ ac : Connection, Call P ac.view (setFbConnected ac).view := fun _ =>
    hP.same ⟨⟨rfl, rfl, rfl, rfl, rfl, rfl, rfl, rfl, rfl, rfl, rfl, rfl⟩, rfl⟩
      ⟨rfl, rfl, rfl, rfl, rfl, rfl, rfl⟩
  have hconnected := hset ac.writableNext.sockErrNext
  unfold NgxAnytls.fallbackConnect
  dsimp only
  split_ifs
  · exact hP.callRefl _
  · exact hk.finalizeRc hP.ending _ _
  · exact armOrFinalize hP hk ac.writableNext
  · exact hk.finalizeRc hP.ending _ ac.writableNext.sockErrNext
  · exact hconnected

theorem fallbackWriteUpstream (ac : Connection) :
    Call P ac.view (NgxAnytls.fallbackWriteUpstream k ac).view := by
  have hreplay := hP.flushReplay ac
  unfold NgxAnytls.fallbackWriteUpstream
  dsimp only
  generalize NgxAnytls.flushReplay ac = r at hreplay ⊢
  obtain ⟨_ | _ | _, ac'⟩ := r
  · have hflush := hP.callTrans hreplay (hP.flushFbBuf .upstream ac')
    dsimp only
    generalize NgxAnytls.flushFbBuf .upstream ac' = r at hflush ⊢
    obtain ⟨_ | _ | _, ac''⟩ := r
    · dsimp only
      split_ifs
      · exact hP.callTrans hflush (hk.finalize hP.ending ac''.arm.2)
      · exact hP.callTrans hflush (armOrFinalize hP hk ac''.arm.2)
    · exact hflush
    · exact hP.callTrans hflush (hk.finalize hP.ending _)
  · exact hreplay
  · exact hP.callTrans hreplay (hk.finalize hP.ending _)

theorem fallbackWrite (dst : FbSide) (timedout : Bool) (ac : Connection) :
    Call P ac.view (NgxAnytls.fallbackWrite k dst timedout ac).view := by
  have hconnect : Call P ac.view (if dst = .upstream then
      NgxAnytls.fallbackConnect k timedout ac else (true, ac)).2.view := by
    split_ifs
    · exact fallbackConnect hP hk timedout ac
    · exact hP.callRefl _
  unfold NgxAnytls.fallbackWrite
  dsimp only
  generalize (if dst = .upstream then NgxAnytls.fallbackConnect k timedout ac
    else (true, ac)) = r at hconnect ⊢
  have hclient := hP.callTrans hconnect (hP.flushFbBuf .client r.2.writableNext)
  have hupstream := hP.callTrans hconnect (fallbackWriteUpstream hP hk r.2.writableNext)
  generalize NgxAnytls.flushFbBuf .client r.2.writableNext = w at hclient ⊢
  by_cases hgo : (!r.1) = true
  · rw [if_pos hgo]
    exact hconnect
  rw [if_neg hgo]
  by_cases hwritable : (!r.2.writableRes) = true
  · rw [if_pos hwritable]
    exact hP.callTrans hconnect (armOrFinalize hP hk r.2.writableNext)
  rw [if_neg hwritable]
  by_cases hdst : dst = .upstream
  · rw [if_pos hdst]
    exact hupstream
  rw [if_neg hdst]
  obtain ⟨_ | _ | _, ac'⟩ := w
  · exact hP.callTrans hclient (armOrFinalize hP hk ac')
  · exact hclient
  · exact hP.callTrans hclient (hk.finalize hP.ending _)

theorem fallbackReadLoop (dst : FbSide) (n bytes : Nat) (b : FbBuf) (ac : Connection)
    (hreads : ReadsClient P dst) (hstate : dst = .upstream → ac.state = .fallback) :
    Call P ac.view (NgxAnytls.fallbackReadLoop k dst n bytes b ac).view := by
  have hstop : ∀ b ac, Call P ac.view
      (NgxAnytls.armOrFinalize k (NgxAnytls.setFbBuf dst (some b) ac)).view := fun b ac =>
    hP.callTrans (hP.setFbBuf dst (some b) ac) (armOrFinalize hP hk _)
  have hfail : ∀ b ac, Call P ac.view
      (NgxAnytls.finalize k (NgxAnytls.setFbBuf dst (some b) ac)).view := fun b ac =>
    hP.callTrans (hP.setFbBuf dst (some b) ac) (hk.finalize hP.ending _)
  induction n generalizing bytes b ac with
  | zero => exact hstop b ac
  | succ n ih =>
    have hrecv := hP.relayRecv dst (b.cap - b.data.length) ac hreads hstate
    have hrecvState := relayRecv_state dst (b.cap - b.data.length) ac
    unfold NgxAnytls.fallbackReadLoop
    generalize NgxAnytls.relayRecv dst (b.cap - b.data.length) ac = r at hrecv hrecvState ⊢
    by_cases hfull : b.cap ≤ b.data.length
    · rw [if_pos hfull]
      exact hstop b ac
    · rw [if_neg hfull]
      obtain ⟨_ | _ | bs, ac'⟩ := r
      · exact hP.callTrans hrecv (hstop b ac')
      · exact hP.callTrans hrecv (hfail b ac')
      · dsimp only
        by_cases hnil : bs = []
        · rw [if_pos hnil]
          exact hP.callTrans hrecv (hfail b ac')
        · rw [if_neg hnil]
          have hflush := hP.callTrans hrecv
            (hP.flushBuf dst { b with data := b.data ++ bs } ac')
          have hflushState : (NgxAnytls.flushBuf dst
            { b with data := b.data ++ bs } ac').2.2.state =
              ac'.state := flushBufLoop_state _ _ _ _ _
          generalize NgxAnytls.flushBuf dst { b with data := b.data ++ bs } ac' = w
            at hflush hflushState ⊢
          obtain ⟨_ | _ | _, b', ac''⟩ := w
          · dsimp only
            split_ifs
            · exact hP.callTrans hflush (hstop b' ac'')
            · exact hP.callTrans hflush
                (ih _ _ _ fun hdst => (hflushState.trans hrecvState).trans (hstate hdst))
          · exact hP.callTrans hflush (hP.setFbBuf _ _ _)
          · exact hP.callTrans hflush (hfail b' ac'')

theorem fallbackRead (dst : FbSide) (ac : Connection)
    (hreads : ReadsClient P dst) (hstate : dst = .upstream → ac.state = .fallback) :
    Call P ac.view (NgxAnytls.fallbackRead k dst ac).view := by
  have hflush := hP.flushFbBuf dst ac
  unfold NgxAnytls.fallbackRead
  dsimp only
  by_cases hreplay : dst = .upstream ∧ ac.fb.replay.isSome
  · rw [if_pos hreplay]
    exact armOrFinalize hP hk ac
  · rw [if_neg hreplay]
    cases fbBuf dst ac with
    | none =>
      dsimp only
      split_ifs
      · exact hk.finalize hP.ending ac.allocNext
      · exact fallbackReadLoop hP hk dst _ _ _ ac.allocNext hreads hstate
    | some b =>
      dsimp only
      split_ifs
      · exact hP.callTrans hflush (hk.finalize hP.ending _)
      · exact hflush
      · exact fallbackReadLoop hP hk dst _ _ b ac hreads hstate

end Relay

end Unfed

namespace Ended

variable {P : View → View → Prop}

theorem clientReadDone_view (exhausted : Bool) (ac : Connection) :
    (clientReadDone exhausted ac).view = ac.view := by
  unfold clientReadDone
  dsimp only
  split_ifs <;> rfl

theorem readOnce (hP : Ended P) (ac : Connection) :
    Call P ac.view (clientReadOnce ac).2.view := by
  have hk := hP.outer ac.conf
  have hdone := clientReadDone_view false ac.clientRecvNext
  unfold clientReadOnce
  dsimp only
  cases ac.clientRecvRes with
  | again =>
    rw [hdone]
    exact hP.callRefl _
  | error => exact hk.finalize hP.ending ac.clientRecvNext
  | data bs =>
    have hparse := hP.feed ac.conf (bs.take (readBufSize ac.conf)) ac.clientRecvNext
    have hfinal := fun w => hk.finalize hP.ending w
    dsimp only
    have hconf : ac.clientRecvNext.conf = ac.conf := rfl
    rw [hconf]
    generalize processClientBytes (innerCallbacks ac.conf)
      (ac.clientRecvNext.remnant ++ bs.take (readBufSize ac.conf)) _ = r at hparse ⊢
    by_cases hnil : bs.take (readBufSize ac.conf) = []
    · rw [if_pos hnil]
      exact hfinal (setClientEof ac.clientRecvNext)
    · rw [if_neg hnil]
      split_ifs
      · exact hP.callTrans hparse (hfinal _)
      · exact hparse
      · exact hparse
      · exact hparse

theorem readClient (hP : Ended P) (n bytes : Nat) (ac : Connection) :
    Call P ac.view (clientReadLoop n bytes ac).view := by
  induction n generalizing bytes ac with
  | zero =>
    rw [clientReadLoop, clientReadDone_view]
    exact hP.callRefl _
  | succ n ih =>
    have hone := hP.readOnce ac
    unfold clientReadLoop
    generalize clientReadOnce ac = r at hone ⊢
    obtain ⟨_ | m, ac'⟩ := r
    · exact hone
    · dsimp only
      split_ifs
      · rw [clientReadDone_view]
        exact hone
      · exact hP.callTrans hone (ih _ _)

theorem clientRead (hP : Ended P) (timedout : Bool) (ac : Connection) :
    Call P ac.view (clientReadHandler timedout ac).view := by
  have hk := hP.outer ac.conf
  have hresume := hk.resume ac
  have hfinal := fun w => hk.finalize hP.ending w
  unfold clientReadHandler
  dsimp only
  generalize (outerCallbacks ac.conf).resume ac = r at hresume ⊢
  split_ifs with _ hstate
  · exact hfinal ac
  · exact hP.toUnfed.fallbackRead hk .upstream ac (hP.reads _) fun _ => hstate
  · exact hP.callTrans hresume (hfinal _)
  · exact hresume
  · exact hP.callRefl _
  · exact hP.readClient _ _ _

end Ended

namespace Unfed

variable {P : View → View → Prop}

theorem clientWrite (hP : Unfed P) (ac : Connection) :
    Call P ac.view (clientWriteHandler ac).view := by
  have hk := hP.outer ac.conf
  have hdrain := hk.drain 0 true (clearWritePending ac)
  have hfallback := hP.fallbackWrite hk .client false (clearWritePending ac)
  have hfinal := fun w => hk.finalize hP.ending w
  unfold clientWriteHandler
  dsimp only
  generalize clientMuxDrain (outerCallbacks ac.conf) 0 true (clearWritePending ac) = r
    at hdrain ⊢
  split_ifs
  · exact hfallback
  · exact hP.callTrans hdrain (hfinal _)
  · exact hdrain

theorem reportWritable_view (h : Handle) (ac : Connection) :
    (reportWritable h ac).view = ac.view :=
  upd_view_same fun st => by cases hu : st.upstream <;> simp [Stream.view, hu]

theorem expireUotTimer_view (h : Handle) (ac : Connection) :
    (expireUotTimer h ac).view = ac.view := upd_view_same fun _ => rfl

/-- The handler of an event that can happen, other than a read of the client. -/
theorem handle (hP : Unfed P) (e : Event) (ac : Connection) (he : e.enabled ac)
    (hread : ∀ timedout, e ≠ .clientRead timedout) :
    Call P ac.view (NgxAnytls.handle e ac).view := by
  have hk := hP.outer ac.conf
  unfold NgxAnytls.handle
  cases e with
  | clientRead timedout => exact absurd rfl (hread timedout)
  | clientWrite => exact hP.clientWrite (unpostWrite ac)
  | upstreamRead h => exact hk.readReady h ac
  | upstreamWrite h timedout ready =>
    obtain ⟨hknown, hup⟩ : h < ac.nstreams ∧ (ac.streams h).upstream.isSome := by
      simpa [Event.enabled] using he
    have hview : (if ready then reportWritable h ac else ac).view = ac.view := by
      split_ifs
      · exact reportWritable_view h ac
      · rfl
    dsimp only
    generalize (if ready then reportWritable h ac else ac) = ac' at hview ⊢
    rw [← hview]
    have hn : ac'.nstreams = ac.nstreams := congrArg View.nstreams hview
    refine hk.writeHandler h timedout ac' ?_ (by rwa [hn])
    exact (congrArg (fun v => (v.streams h).hasUpstream) hview).trans hup
  | udpRead h => exact hk.udpRead h ac (by simp [Event.enabled] at he; exact he.1)
  | uotIdle h =>
    have hview := expireUotTimer_view h ac
    have hknown : h < ac.nstreams := by simp [Event.enabled] at he; exact he.1
    dsimp only
    generalize expireUotTimer h ac = ac' at hview ⊢
    rw [← hview]
    have hn : ac'.nstreams = ac.nstreams := congrArg View.nstreams hview
    exact hk.uotIdle h ac' (by rwa [hn])
  | resolved h a => exact hk.resolveHandler h a ac
  | writeTimeout => exact hk.finalize hP.ending (stopWriteTimer ac)
  | fallbackRead => exact hP.fallbackRead hk .client ac (fun hno => nomatch hno) nofun
  | fallbackWrite timedout => exact hP.fallbackWrite hk .upstream timedout ac

end Unfed

/-- An event, when its handler is covered. -/
theorem Woken.event {P : View → View → Prop} (hP : Woken P) (ac : Connection) (e : Event × Env)
    (hhandle : ∀ ac' : Connection, e.1.enabled ac' → Call P ac'.view (handle e.1 ac').view) :
    Call P ac.view (step ac e).view := by
  unfold step
  split_ifs with hstop
  · exact hP.callRefl _
  · simp only [not_or, Bool.not_eq_true', Bool.not_eq_false] at hstop
    have hlog : Call P ac.view ((setEnv e.2 ac).log (.event e.1)).view :=
      hP.log (.event e.1) trivial ⟨rfl, rfl, rfl, rfl, rfl, rfl, rfl, rfl, rfl, rfl, rfl, rfl⟩
        ⟨rfl, rfl, rfl, rfl, rfl, rfl, rfl⟩ rfl
    exact hP.callTrans hlog (hhandle _ hstop.2.2)

theorem Unfed.step {P : View → View → Prop} (hP : Unfed P) (ac : Connection) (e : Event × Env)
    (hread : ∀ timedout, e.1 ≠ .clientRead timedout) :
    Call P ac.view (NgxAnytls.step ac e).view :=
  hP.event ac e fun ac' he => hP.handle e.1 ac' he hread

namespace Ended

variable {P : View → View → Prop}

/-- The handler of an event that can happen. -/
theorem handle (hP : Ended P) (e : Event) (ac : Connection) (he : e.enabled ac) :
    Call P ac.view (NgxAnytls.handle e ac).view := by
  by_cases hread : ∃ timedout, e = .clientRead timedout
  · obtain ⟨timedout, rfl⟩ := hread
    exact hP.clientRead timedout (unpostRead ac)
  · exact hP.toUnfed.handle e ac he fun timedout heq => hread ⟨timedout, heq⟩

theorem step (hP : Ended P) (ac : Connection) (e : Event × Env) :
    Call P ac.view (NgxAnytls.step ac e).view :=
  hP.event ac e fun ac' he => hP.handle e.1 ac' he

/-- What a run of a session adds up to. -/
theorem steps (hP : Ended P) (es : List (Event × Env)) (ac : Connection) :
    Call P ac.view (es.foldl NgxAnytls.step ac).view := by
  induction es generalizing ac with
  | nil => exact hP.callRefl _
  | cons e es ih => exact hP.callTrans (hP.step ac e) (ih _)

end Ended

/-- A new session is sane. -/
theorem init_sane (conf : Conf) : (Connection.init conf).view.Sane where
  stream h := by
    refine ⟨?_, ?_, ?_, ?_, ?_, ?_, ?_, ?_⟩ <;>
      simp [Connection.init, Connection.view, Stream.view, StreamView.IsOpen, ClientFin]
  fresh h _ := ⟨rfl, rfl, rfl, rfl⟩
  known o ho := absurd ho (by simp [Connection.init, Connection.view])
  table h hh := by
    have hmem : Slot.used h ∈ List.replicate (htSize conf) Slot.free := hh
    exact absurd (List.eq_of_mem_replicate hmem) (by simp)
  closingQueue h hh := absurd hh (by simp [Connection.init, Connection.view])
  finFrame f hf := absurd hf (by simp [View.flight, Connection.init, Connection.view])

/-- What a run of a session adds up to, from its start. -/
theorem Ended.run {P : View → View → Prop} (hP : Ended P) (conf : Conf)
    (es : List (Event × Env)) :
    (Connection.init conf).view.Keeps (run conf es).view ∧
      P (Connection.init conf).view (run conf es).view :=
  hP.steps es (Connection.init conf) (init_sane conf)

/-- Everything a session does is an effect of the abstract session. -/
theorem parsed_reaches : Parsed Reaches where
  toSteps := steps_reaches.toSteps
  act _ h := .single (.act h)
  input h ht := .single (.input h ht)
  inputLog o ho h ht := .single (.inputLog o ho h ht)
  frame conf f rest ac := by
    have hframe := Reached.frame conf f ac
    have hdrop : ∀ ac : Connection, Reached ac.view (dropInput rest ac).view := fun ac =>
      .input (.inputDropped rest) trivial
        ⟨rfl, rfl, rfl, rfl, rfl, rfl, rfl, rfl, rfl, rfl, rfl, rfl⟩ rfl
    unfold frameStep
    generalize processFrame (innerCallbacks conf) f ac = r at hframe ⊢
    dsimp only
    split_ifs
    · exact hframe.trans (hdrop r.2)
    · exact hframe

theorem ended_reaches : Ended Reaches where
  toFed := parsed_reaches.fed
  close h := .single (.close h)

/-- A run refines the abstract session. -/
theorem run_reaches (conf : Conf) (es : List (Event × Env)) :
    Reaches (Connection.init conf).view (run conf es).view :=
  (ended_reaches.run conf es).2

/-- An invariant that every effect keeps holds wherever effects lead. -/
theorem Reaches.invariant {I : View → Prop}
    (hact : ∀ {v v'}, v.Sane → SessionAct v v' → I v → I v') {v v' : View} (h : Reaches v v')
    (hs : v.Sane) (hi : I v) : I v' := by
  have hboth : v'.Sane ∧ I v' := by
    induction h with
    | refl => exact ⟨hs, hi⟩
    | tail _ hstep ih => exact ⟨hstep.sane ih.1, hact ih.1 hstep ih.2⟩
  exact hboth.2

/-- A relation that every effect respects holds between the two ends. -/
theorem Reaches.relation {R : View → View → Prop} (hrefl : ∀ v, R v v)
    (htail : ∀ {a b c}, a.Sane → b.Sane → R a b → SessionAct b c → R a c) {v v' : View}
    (h : Reaches v v') (hs : v.Sane) : R v v' := by
  have hboth : v'.Sane ∧ R v v' := by
    induction h with
    | refl => exact ⟨hs, hrefl v⟩
    | tail _ hstep ih => exact ⟨hstep.sane ih.1, htail hs ih.1 ih.2 hstep⟩
  exact hboth.2

theorem Reaches.trace_le {v v' : View} (h : Reaches v v') (hs : v.Sane) :
    v.trace <+: v'.trace :=
  h.relation (R := fun a b => a.trace <+: b.trace) (fun v => List.prefix_refl v.trace)
    (fun _ hb hab hstep => hab.trans (hstep.trace_le hb)) hs

theorem Reaches.nstreams_le {v v' : View} (h : Reaches v v') (hs : v.Sane) :
    v.nstreams ≤ v'.nstreams :=
  h.relation (R := fun a b => a.nstreams ≤ b.nstreams) (fun v => le_refl v.nstreams)
    (fun _ hb hab hstep => hab.trans (hstep.nstreams_le hb)) hs

theorem run_sane (conf : Conf) (es : List (Event × Env)) : (run conf es).view.Sane :=
  (ended_reaches.run conf es).1.sane

/-- An invariant of the abstract session holds after every run. -/
theorem run_invariant {I : View → Prop}
    (hact : ∀ {v v'}, v.Sane → SessionAct v v' → I v → I v') (conf : Conf)
    (hinit : I (Connection.init conf).view) (es : List (Event × Env)) : I (run conf es).view :=
  Reaches.invariant hact (run_reaches conf es) (init_sane conf) hinit

theorem run_append (conf : Conf) (es es' : List (Event × Env)) :
    run conf (es ++ es') = es'.foldl step (run conf es) := by
  rw [run, run, List.foldl_append]

/-- What the rest of a run adds up to. -/
theorem run_reaches_append (conf : Conf) (es es' : List (Event × Env)) :
    Reaches (run conf es).view (run conf (es ++ es')).view := by
  rw [run_append]
  exact (ended_reaches.steps es' (run conf es) (run_sane conf es)).2

end NgxAnytls
