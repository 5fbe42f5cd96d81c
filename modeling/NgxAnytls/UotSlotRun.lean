import NgxAnytls.UotSlotEvents
import NgxAnytls.DispatchRefinement

/-! The UoT slots over whole runs. -/

namespace NgxAnytls

namespace SlotsKept

variable {k : Callbacks} {ac : Connection} {h : Handle}

theorem finalizeRc (hk : SlotsKept k) (rc : Nat) (ac : Connection) :
    SlotStep ac (NgxAnytls.finalizeRc k rc ac) := by
  have hall : ∀ (hs : List Handle) (ac : Connection), SlotStep ac (closeStreams k hs ac) := by
    intro hs
    induction hs with
    | nil => exact fun ac => .refl ac
    | cons h hs ih =>
      intro ac
      exact (markClosedByProtocol_step h ac).1.trans ((hk.streamClose h _).trans (ih _))
  have hmark : SameSlots ac (markClosing ac) := rfl
  unfold NgxAnytls.finalizeRc
  split_ifs
  · exact .refl ac
  · exact hmark.step.trans (hall ac.streamList _)

theorem finalize (hk : SlotsKept k) (ac : Connection) : SlotStep ac (NgxAnytls.finalize k ac) :=
  hk.finalizeRc streamOk ac

theorem armOrFinalize (hk : SlotsKept k) (ac : Connection) :
    SlotStep ac (NgxAnytls.armOrFinalize k ac) := by
  have harm : SameSlots ac ac.arm.2 := rfl
  unfold NgxAnytls.armOrFinalize
  dsimp only
  split_ifs
  · exact harm.step.trans (hk.finalize _)
  · exact harm.step

theorem flushBuf_slots (dst : FbSide) (b : FbBuf) (ac : Connection) :
    SameSlots ac (flushBuf dst b ac).2.2 := by
  have hloop : ∀ (fuel sent : Nat) (b : FbBuf) (ac : Connection),
      SameSlots ac (flushBufLoop dst fuel sent b ac).2.2 := by
    intro fuel
    induction fuel with
    | zero => exact fun _ _ ac => .refl ac
    | succ fuel ih =>
      intro sent b ac
      unfold flushBufLoop
      by_cases hdone : b.data.length ≤ b.pos
      · rw [if_pos hdone]
        exact .refl ac
      rw [if_neg hdone]
      dsimp only
      cases ac.sendRes with
      | again => rfl
      | error => rfl
      | done n =>
        dsimp only
        split_ifs
        · rfl
        · rfl
        · rfl
        · have hlog : ∀ bs, SameSlots ac (logRelay dst bs ac.sendNext) := fun _ => rfl
          exact (hlog _).trans (ih _ _ _)
  exact hloop _ 0 b ac

theorem setFbBuf_slots (dst : FbSide) (b : Option FbBuf) (ac : Connection) :
    SameSlots ac (setFbBuf dst b ac) := by
  cases dst <;> rfl

theorem flushFbBuf_slots (dst : FbSide) (ac : Connection) :
    SameSlots ac (flushFbBuf dst ac).2 := by
  unfold flushFbBuf
  cases fbBuf dst ac with
  | none => exact .refl ac
  | some b =>
    have hflush := flushBuf_slots dst b ac
    dsimp only
    cases hres : flushBuf dst b ac with
    | mk rc r =>
      rw [hres] at hflush
      exact hflush.trans (setFbBuf_slots dst _ _)

theorem flushReplay_slots (ac : Connection) : SameSlots ac (flushReplay ac).2 := by
  unfold flushReplay
  cases ac.fb.replay with
  | none => exact .refl ac
  | some b =>
    have hflush := flushBuf_slots .upstream b ac
    dsimp only
    cases hres : flushBuf .upstream b ac with
    | mk rc r =>
      rw [hres] at hflush
      cases rc <;> exact hflush

theorem fallbackConnect (hk : SlotsKept k) (timedout : Bool) (ac : Connection) :
    SlotStep ac (NgxAnytls.fallbackConnect k timedout ac).2 := by
  have hnext : SlotStep ac ac.writableNext := SameSlots.step rfl
  have herr : SlotStep ac ac.writableNext.sockErrNext := SameSlots.step rfl
  unfold NgxAnytls.fallbackConnect
  dsimp only
  split_ifs
  · exact .refl ac
  · exact hk.finalizeRc _ ac
  · exact hnext.trans (hk.armOrFinalize _)
  · exact herr.trans (hk.finalizeRc _ _)
  · exact herr

theorem fallbackWrite (hk : SlotsKept k) (dst : FbSide) (timedout : Bool) (ac : Connection) :
    SlotStep ac (NgxAnytls.fallbackWrite k dst timedout ac) := by
  have hup : ∀ ac : Connection, SlotStep ac (fallbackWriteUpstream k ac) := by
    intro ac
    have hreplay := (flushReplay_slots ac).step
    have hflush := hreplay.trans (flushFbBuf_slots .upstream _).step
    unfold fallbackWriteUpstream
    dsimp only
    cases (flushReplay ac).1 with
    | error => exact hreplay.trans (hk.finalize _)
    | again => exact hreplay
    | ok =>
      dsimp only
      cases (flushFbBuf .upstream (flushReplay ac).2).1 with
      | error => exact hflush.trans (hk.finalize _)
      | again => exact hflush
      | ok =>
        have harm : SlotStep ac (flushFbBuf .upstream (flushReplay ac).2).2.arm.2 := hflush
        dsimp only
        split_ifs
        · exact harm.trans (hk.finalize _)
        · exact harm.trans (hk.armOrFinalize _)
  have hconnect : SlotStep ac (if dst = .upstream then NgxAnytls.fallbackConnect k timedout ac
      else (true, ac)).2 := by
    split_ifs
    · exact hk.fallbackConnect timedout ac
    · exact .refl ac
  unfold NgxAnytls.fallbackWrite
  dsimp only
  generalize (if dst = .upstream then NgxAnytls.fallbackConnect k timedout ac else (true, ac)) = r
    at hconnect ⊢
  have hnext : SlotStep ac r.2.writableNext := hconnect
  by_cases hstop : (!r.1) = true
  · rw [if_pos hstop]
    exact hconnect
  rw [if_neg hstop]
  split_ifs
  · exact hnext.trans (hk.armOrFinalize _)
  · exact hnext.trans (hup _)
  · have hflush := hnext.trans (flushFbBuf_slots .client _).step
    cases (flushFbBuf .client r.2.writableNext).1 with
    | error => exact hflush.trans (hk.finalize _)
    | again => exact hflush
    | ok => exact hflush.trans (hk.armOrFinalize _)

theorem relayRecv_slots (dst : FbSide) (size : Nat) (ac : Connection) :
    SameSlots ac (relayRecv dst size ac).2 := by
  unfold relayRecv
  cases dst with
  | upstream => cases ac.clientRecvRes <;> rfl
  | client => cases ac.recvRes <;> rfl

theorem fallbackRead (hk : SlotsKept k) (dst : FbSide) (ac : Connection) :
    SlotStep ac (NgxAnytls.fallbackRead k dst ac) := by
  have hset : ∀ (b : Option FbBuf) (ac : Connection), SlotStep ac (setFbBuf dst b ac) :=
    fun b ac => (setFbBuf_slots dst b ac).step
  have hloop : ∀ (loops bytes : Nat) (b : FbBuf) (ac : Connection),
      SlotStep ac (fallbackReadLoop k dst loops bytes b ac) := by
    intro loops
    induction loops with
    | zero => exact fun _ b ac => (hset _ ac).trans (hk.armOrFinalize _)
    | succ loops ih =>
      intro bytes b ac
      have hrecv := (relayRecv_slots dst (b.cap - b.data.length) ac).step
      unfold fallbackReadLoop
      by_cases hfull : b.cap ≤ b.data.length
      · rw [if_pos hfull]
        exact (hset _ ac).trans (hk.armOrFinalize _)
      rw [if_neg hfull]
      cases hres : relayRecv dst (b.cap - b.data.length) ac with
      | mk got ac₁ =>
        rw [hres] at hrecv
        cases got with
        | again => exact hrecv.trans ((hset _ ac₁).trans (hk.armOrFinalize _))
        | error => exact hrecv.trans ((hset _ ac₁).trans (hk.finalize _))
        | data bs =>
          dsimp only
          by_cases hend : bs = []
          · rw [if_pos hend]
            exact hrecv.trans ((hset _ ac₁).trans (hk.finalize _))
          rw [if_neg hend]
          have hflush := hrecv.trans (flushBuf_slots dst { b with data := b.data ++ bs } ac₁).step
          cases hout : flushBuf dst { b with data := b.data ++ bs } ac₁ with
          | mk rc r =>
            obtain ⟨b₂, ac₂⟩ := r
            rw [hout] at hflush
            cases rc with
            | error => exact hflush.trans ((hset _ ac₂).trans (hk.finalize _))
            | again => exact hflush.trans (hset _ ac₂)
            | ok =>
              dsimp only
              split_ifs
              · exact hflush.trans ((hset _ ac₂).trans (hk.armOrFinalize _))
              · exact hflush.trans (ih _ b₂ ac₂)
  have hflush := (flushFbBuf_slots dst ac).step
  unfold NgxAnytls.fallbackRead
  by_cases hreplay : dst = .upstream ∧ ac.fb.replay.isSome = true
  · rw [if_pos hreplay]
    exact hk.armOrFinalize ac
  rw [if_neg hreplay]
  cases fbBuf dst ac with
  | some b =>
    dsimp only
    split_ifs
    · exact hflush.trans (hk.finalize _)
    · exact hflush
    · exact hloop _ 0 b ac
  | none =>
    have halloc : SlotStep ac ac.allocNext := SameSlots.step rfl
    dsimp only
    split_ifs
    · exact halloc.trans (hk.finalize _)
    · exact halloc.trans (hloop _ 0 _ _)

/-- A new stream holds nothing. -/
theorem newStream_step (id : UInt32) (ac : Connection) : SlotStep ac (newStream id ac) := by
  intro hok
  have hfresh : (ac.slotSide.slots ac.nstreams).counted = false := by
    apply Bool.eq_false_iff.mpr
    intro hc
    exact absurd (hok.known ac.nstreams hc) (Nat.lt_irrefl _)
  have hset : (ac.slotSide.set ac.nstreams (Stream.slot { id := id })).Ok none := by
    refine hok.set hfresh.symm ?_
    exact ⟨nofun, nofun, nofun, nofun, nofun, fun _ => nofun, fun _ => nofun⟩
  have hslot : ∀ g, ((newStream id ac).slotSide.slots g) =
      (ac.slotSide.set ac.nstreams (Stream.slot { id := id })).slots g := by
    intro g
    have hside : (newStream id ac).slotSide.slots =
        (ac.slotSide.set ac.nstreams (Stream.slot { id := id })).slots := by
      unfold newStream
      rw [log_slotSide, upd_slotSide]
      rfl
    rw [hside]
  have hholders : (newStream id ac).slotSide.holders =
      (ac.slotSide.set ac.nstreams (Stream.slot { id := id })).holders := by
    ext g
    simp only [SlotSide.holders, Finset.mem_filter, Finset.mem_range, hslot]
    constructor
    · rintro ⟨-, hc⟩
      exact ⟨hset.known g hc, hc⟩
    · rintro ⟨hlt, hc⟩
      exact ⟨Nat.lt_succ_of_lt hlt, hc⟩
  refine ⟨⟨?_, hok.limit, ?_, ?_, ?_⟩, rfl, Nat.le_succ _, ?_⟩
  · rw [hholders]
    exact hset.taken
  · intro g hg
    rw [hslot] at hg
    exact Nat.lt_succ_of_lt (hset.known g hg)
  · intro g hg
    exact Nat.lt_succ_of_lt (hok.table g hg)
  · intro g
    rw [hslot]
    exact hset.slots g
  · intro g hknown hg
    have hne : ¬g = ac.nstreams := Nat.ne_of_lt hknown
    rw [hslot, SlotSide.set_slots, if_neg hne]
    exact ⟨hg, fun hc => hc⟩

theorem streamCreateIfAbsent_step (id : UInt32) (ac : Connection) :
    SlotStep ac (streamCreateIfAbsent id ac).2 := by
  have hnew : SlotStep ac (newStream id ac.allocNext) := newStream_step id ac.allocNext
  unfold streamCreateIfAbsent
  cases htFind ac id with
  | some h => exact .refl ac
  | none =>
    dsimp only
    split_ifs
    · exact .refl ac
    unfold streamAlloc
    dsimp only
    split_ifs
    · exact SameSlots.step rfl
    cases htInsertLoop (newStream id ac.allocNext) (newStream id ac.allocNext).ht.length
        (htIndex (newStream id ac.allocNext) id) with
    | none => exact hnew
    | some idx =>
      refine hnew.trans fun hok => ⟨⟨hok.taken, hok.limit, hok.known, ?_, hok.slots⟩, rfl, le_rfl,
        fun _ _ hs => ⟨hs, fun hc => hc⟩⟩
      intro g hg
      rcases List.mem_or_eq_of_mem_set hg with hin | heq
      · exact hok.table g hin
      · cases heq
        exact Nat.lt_succ_self ac.nstreams

/-- The stream found is known, and the client has not closed it. -/
theorem streamFind_spec {id : UInt32} (hfind : streamFind id ac = some h) :
    Slot.used h ∈ ac.ht ∧ (ac.streams h).closedByProtocol = false := by
  unfold streamFind at hfind
  cases hcell : htFind ac id with
  | none =>
    rw [hcell] at hfind
    cases hfind
  | some g =>
    rw [hcell] at hfind
    dsimp only at hfind
    split_ifs at hfind with hclosed
    cases hfind
    exact ⟨(htFindLoop_some hcell).1, Bool.eq_false_iff.mpr hclosed⟩

/-- The stream's first PSH, or a part of it. -/
theorem forwardFirstPsh (hk : SlotsKept k) (data : Bytes) (hknown : h < ac.nstreams)
    (hfirst : (ac.streams h).firstPshSeen = false) :
    SlotStep ac (NgxAnytls.forwardFirstPsh k h data ac).2 := by
  have hempty : SameSlots ac (emptyFirstPsh h ac.allocNext) := sameSlots_upd fun _ => rfl
  have hseen : ((emptyFirstPsh h ac.allocNext).allocNext.streams h).firstPshSeen = false := by
    show ((emptyFirstPsh h ac.allocNext).streams h).firstPshSeen = false
    rw [emptyFirstPsh, Connection.upd_self]
    exact hfirst
  have hnext : SameSlots ac (emptyFirstPsh h ac.allocNext).allocNext := hempty
  unfold NgxAnytls.forwardFirstPsh
  dsimp only
  split_ifs
  · exact SameSlots.step rfl
  · exact SameSlots.step rfl
  generalize firstPshBytes (((ac.allocNext.streams h).firstPshAcc).getD []) data = pdata
  cases parseSocksaddr pdata (emptyFirstPsh h ac.allocNext).allocOk with
  | again =>
    have hstore : ∀ ac : Connection, SameSlots ac (storeFirstPsh h pdata ac) :=
      fun ac => sameSlots_upd fun _ => rfl
    dsimp only
    unfold keepFirstPsh
    split_ifs
    · exact hnext.step
    · exact hnext.step
    · exact (hnext.trans (hstore _)).step
    · exact (hnext.trans (hstore _)).step
  | error => exact hnext.step
  | ok addr consumed => exact hnext.step.trans (hk.handleFirstPsh addr _ hknown hseen)

theorem forwardClientPayload (hk : SlotsKept k) (id : UInt32) (data : Bytes) (ac : Connection) :
    SlotStep ac (NgxAnytls.forwardClientPayload k id data ac).2 := by
  unfold NgxAnytls.forwardClientPayload
  cases hfind : streamFind id ac with
  | none => exact .refl ac
  | some h =>
    obtain ⟨hcell, hopen⟩ := streamFind_spec hfind
    have hlog : SameSlots ac (ac.log (.psh h data)) := rfl
    dsimp only
    split_ifs with haccept hfirst
    · exact .refl ac
    · intro hok
      have hknown : h < ac.nstreams := hok.table h hcell
      have hunseen : ((ac.log (.psh h data)).streams h).firstPshSeen = false := by
        simpa using hfirst
      exact (hlog.step.trans (hk.forwardFirstPsh data hknown hunseen)) hok
    · exact hlog.step.trans (hk.handleClientPayload h data hopen)

theorem endSession (hk : SlotsKept k) (ac : Connection) :
    SlotStep ac (NgxAnytls.endSession k ac) := by
  have hlog : SameSlots ac (ac.log .ending) := rfl
  exact hlog.step.trans ((hk.clientMuxDrain 0 false _).trans (hk.finalize _))

theorem runAction (hk : SlotsKept k) (a : Action) (ac : Connection) :
    SlotStep ac (NgxAnytls.runAction k a ac).2.2 := by
  cases a with
  | queueControl cmd id data => exact (queueDataFrame_slots false none cmd id data ac).step
  | openStream id => exact streamCreateIfAbsent_step id ac
  | forwardClientPayload id data => exact hk.forwardClientPayload id data ac
  | clientFin id =>
    simp only [NgxAnytls.runAction]
    cases streamFind id ac with
    | none => exact .refl ac
    | some h =>
      have hlog : SameSlots ac (ac.log (.clientFin h (ac.streams h).state)) := rfl
      exact hlog.step.trans (hk.handleClientFin h _)
  | clientAlert data => exact hk.endSession ac
  | protocolError data =>
    have herror : SlotStep ac (if data ≠ [] then (queueError data ac).2 else ac) := by
      split_ifs
      · exact (queueDataFrame_slots false none .alert 0 data ac).step
      · exact .refl ac
    exact herror.trans (hk.endSession _)

theorem processFrame (hk : SlotsKept k) (f : Frame) (ac : Connection) :
    SlotStep ac (NgxAnytls.processFrame k f ac).2 := by
  have hall : ∀ (as : List Action) (rc : Rc) (ac : Connection),
      SlotStep ac (sessionActionsRun k as rc ac).2.2 := by
    intro as
    induction as with
    | nil => exact fun _ ac => .refl ac
    | cons a as ih =>
      intro rc ac
      have hone := hk.runAction a ac
      unfold sessionActionsRun
      dsimp only
      by_cases hdone : (NgxAnytls.runAction k a ac).2.1 = true
      · rw [if_pos hdone]
        exact hone
      rw [if_neg hdone]
      exact hone.trans (ih _ _)
  have hcore : SameSlots ac (setCore (handleFrame (ac.log (.frame f)).core f
      (ac.log (.frame f)).allocOk).core (ac.log (.frame f)).allocNext) := rfl
  unfold NgxAnytls.processFrame
  dsimp only
  split_ifs
  · exact hcore.step.trans (hall _ _ _)
  · exact hcore.step.trans (hall _ _ _)

theorem processFrames (hk : SlotsKept k) (fuel : Nat) (pos : Bytes) (ac : Connection) :
    SlotStep ac (NgxAnytls.processFrames k fuel pos ac).2 := by
  have hdrop : ∀ (bs : Bytes) (ac : Connection), SlotStep ac (dropInput bs ac) :=
    fun _ _ => SameSlots.step rfl
  induction fuel generalizing pos ac with
  | zero => exact SameSlots.step rfl
  | succ fuel ih =>
    unfold NgxAnytls.processFrames
    cases parseFrame pos with
    | again => exact SameSlots.step rfl
    | error => exact hdrop pos ac
    | ok f consumed =>
      have hframe := hk.processFrame f ac
      have hrest : SlotStep (NgxAnytls.processFrame k f ac).2
          (keepRemnant (pos.drop consumed) (NgxAnytls.processFrame k f ac).2).2 :=
        SameSlots.step rfl
      dsimp only
      split_ifs
      · exact hframe.trans (hdrop _ _)
      · exact hframe.trans hrest
      · exact hframe.trans (ih _ _)

theorem authProcess_slots (data : Bytes) (ac : Connection) :
    SameSlots ac (authProcess data ac).2.2 := by
  have htake : ∀ (limit : Nat) (data : Bytes) (ac : Connection),
      SameSlots ac (authTake limit data ac).2 := fun _ _ _ => rfl
  have hpad : ∀ (n : Nat) (data : Bytes) (ac : Connection),
    SameSlots ac (authPad n data ac).2.2 := by
    intro n data ac
    unfold authPad
    dsimp only
    split_ifs <;> rfl
  have hfirst : SameSlots ac (if ac.auth.length < authPrefixLen then
      authTake authPrefixLen data ac else (0, ac)).2 := by
    split_ifs
    · exact htake _ data ac
    · exact .refl ac
  unfold authProcess
  dsimp only
  generalize (if ac.auth.length < authPrefixLen then authTake authPrefixLen data ac
    else (0, ac)) = t at hfirst ⊢
  split_ifs
  · exact hfirst
  · exact hfirst.trans (hpad _ _ _)
  · cases matchUser t.2 with
    | none => exact hfirst.trans (htake _ _ _)
    | some u => exact SameSlots.trans (show SameSlots ac (setUser u t.2) from hfirst) (hpad _ _ _)

theorem takeProxyHeader_slots (ac : Connection) : SameSlots ac (takeProxyHeader ac).2 := by
  unfold takeProxyHeader
  split_ifs <;> rfl

theorem startReplay_slots (header raw : Bytes) (ac : Connection) :
    SameSlots ac (startReplay header raw ac) := rfl

theorem openFallback_slots (connected : Bool) (ac : Connection) :
    SameSlots ac (openFallback connected ac) := rfl

theorem fallbackStart_slots (raw : Bytes) (ac : Connection) :
    SameSlots ac (fallbackStart raw ac).2 := by
  have halloc : ∀ ac : Connection, SameSlots ac ac.allocNext := fun _ => rfl
  have hconnect : SameSlots ac ac.allocNext.connectNext := rfl
  have hrelay : ∀ (connected : Bool) (ac : Connection), SameSlots ac
      (startReplay (takeProxyHeader (openFallback connected ac).allocNext).1 raw
        (takeProxyHeader (openFallback connected ac).allocNext).2) := by
    intro connected ac
    have hopen := (openFallback_slots connected ac).trans (halloc _)
    exact (hopen.trans (takeProxyHeader_slots _)).trans (startReplay_slots _ raw _)
  unfold fallbackStart
  dsimp only
  by_cases hconf : (!ac.conf.fallback) = true
  · rw [if_pos hconf]
    exact .refl ac
  rw [if_neg hconf]
  by_cases hmem : (!ac.allocOk) = true
  · rw [if_pos hmem]
    exact halloc ac
  rw [if_neg hmem]
  have hafter : ∀ rc : Rc, SameSlots ac (if (!(openFallback (decide (rc = Rc.ok))
      ac.allocNext.connectNext).allocOk) = true then
        (Rc.error, (openFallback (decide (rc = Rc.ok)) ac.allocNext.connectNext).allocNext)
      else (Rc.ok, startReplay
        (takeProxyHeader (openFallback (decide (rc = Rc.ok)) ac.allocNext.connectNext).allocNext).1
        raw
        (takeProxyHeader (openFallback (decide (rc = Rc.ok))
          ac.allocNext.connectNext).allocNext).2)).2 := by
    intro rc
    split_ifs
    · exact hconnect.trans ((openFallback_slots _ _).trans (halloc _))
    · exact hconnect.trans (hrelay _ _)
  cases ac.allocNext.connectRes with
  | error => exact hconnect
  | ok => exact hafter .ok
  | again => exact hafter .again

theorem processClientBytes (hk : SlotsKept k) (data : Bytes) (ac : Connection) :
    SlotStep ac (NgxAnytls.processClientBytes k data ac).2 := by
  have hauth := (authProcess_slots data ac).step
  unfold NgxAnytls.processClientBytes
  split_ifs
  · exact .refl ac
  · exact hk.processFrames _ data ac
  cases hres : authProcess data ac with
  | mk result r =>
    obtain ⟨consumed, ac'⟩ := r
    rw [hres] at hauth
    cases result with
    | more => exact hauth
    | fallback =>
      dsimp only
      split_ifs
      · exact hauth
      · exact hauth.trans (fallbackStart_slots _ _).step
    | ok =>
      dsimp only
      split_ifs
      · exact hauth
      · exact hauth.trans (hk.processFrames _ _ _)

end SlotsKept

private theorem inputResume_step {process : Bytes → Connection → Rc × Connection}
    (hp : ∀ data ac, SlotStep ac (process data ac).2) (ac : Connection) :
    SlotStep ac (inputResume process ac).2 := by
  have hpause : SameSlots ac (setInputPaused false ac) := rfl
  have htaken : SlotStep ac (setRemnant [] (setInputPaused false ac)) := SameSlots.step rfl
  have hparse := htaken.trans (hp (setInputPaused false ac).remnant _)
  unfold inputResume
  dsimp only
  split_ifs
  · exact .refl ac
  · exact .refl ac
  · exact .refl ac
  · exact hparse
  · exact hparse
  · exact hparse.trans (enableClientRead_slots _).step
  · exact (hpause.trans (enableClientRead_slots _)).step

private theorem callbacks_kept {process : Bytes → Connection → Rc × Connection}
    (hp : ∀ data ac, SlotStep ac (process data ac).2) (depth : Nat) :
    SlotsKept (callbacks process depth) := by
  induction depth with
  | zero => exact ⟨inputResume_step hp, fun _ _ ac => .refl ac, fun h _ ac _ _ => .refl h ac⟩
  | succ depth ih =>
    exact ⟨inputResume_step hp, fun h a ac => ih.resolveHandler h a ac,
      fun h a ac hctx hlook => ih.resolveHandler_uot a hctx hlook⟩

private theorem innerCallbacks_kept (conf : Conf) : SlotsKept (innerCallbacks conf) :=
  callbacks_kept (fun _ ac => .refl ac) _

theorem outerCallbacks_kept (conf : Conf) : SlotsKept (outerCallbacks conf) :=
  callbacks_kept (fun data ac => (innerCallbacks_kept conf).processClientBytes data ac) _

private theorem clientReadDone_slots (exhausted : Bool) (ac : Connection) :
    SameSlots ac (clientReadDone exhausted ac) := by
  have harm : SameSlots ac ac.arm.2 := rfl
  have hpost : ∀ ac : Connection, SameSlots ac (postClientRead ac) := fun _ => rfl
  unfold clientReadDone
  dsimp only
  split_ifs
  · exact .refl ac
  · exact harm.trans (hpost _)
  · exact harm

private theorem clientReadOnce_step (ac : Connection) : SlotStep ac (clientReadOnce ac).2 := by
  have hk := outerCallbacks_kept ac.conf
  have hnext : SlotStep ac ac.clientRecvNext := SameSlots.step rfl
  have heof : SlotStep ac (setClientEof ac.clientRecvNext) := SameSlots.step rfl
  unfold clientReadOnce
  dsimp only
  cases ac.clientRecvRes with
  | again => exact hnext.trans (clientReadDone_slots false _).step
  | error => exact hnext.trans (hk.finalize _)
  | data bs =>
    have hparse := (innerCallbacks_kept ac.conf).processClientBytes
      (ac.clientRecvNext.remnant ++ bs.take (readBufSize ac.conf))
      ((setRemnant [] ac.clientRecvNext).log (.clientRecv (bs.take (readBufSize ac.conf))))
    have htaken : SlotStep ac ((setRemnant [] ac.clientRecvNext).log
        (.clientRecv (bs.take (readBufSize ac.conf)))) := SameSlots.step rfl
    have hbytes := htaken.trans hparse
    dsimp only
    split_ifs
    · exact heof.trans (hk.finalize _)
    · exact hbytes.trans (hk.finalize _)
    · exact hbytes
    · exact hbytes
    · exact hbytes

private theorem clientReadLoop_step (loops bytes : Nat) (ac : Connection) :
    SlotStep ac (clientReadLoop loops bytes ac) := by
  induction loops generalizing bytes ac with
  | zero => exact (clientReadDone_slots true ac).step
  | succ loops ih =>
    have honce := clientReadOnce_step ac
    unfold clientReadLoop
    cases hres : clientReadOnce ac with
    | mk n ac' =>
      rw [hres] at honce
      cases n with
      | none => exact honce
      | some n =>
        dsimp only
        split_ifs
        · exact honce.trans (clientReadDone_slots true _).step
        · exact honce.trans (ih _ ac')

private theorem clientReadHandler_step (timedout : Bool) (ac : Connection) :
    SlotStep ac (clientReadHandler timedout ac) := by
  have hk := outerCallbacks_kept ac.conf
  unfold clientReadHandler
  dsimp only
  split_ifs
  · exact hk.finalize ac
  · exact hk.fallbackRead .upstream ac
  · exact (hk.resume ac).trans (hk.finalize _)
  · exact hk.resume ac
  · exact .refl ac
  · exact clientReadLoop_step _ 0 ac

private theorem clientWriteHandler_step (ac : Connection) :
    SlotStep ac (clientWriteHandler ac) := by
  have hk := outerCallbacks_kept ac.conf
  have hclear : SlotStep ac (clearWritePending ac) := SameSlots.step rfl
  have hdrain := hclear.trans (hk.clientMuxDrain 0 true (clearWritePending ac))
  unfold clientWriteHandler
  dsimp only
  split_ifs
  · exact hclear.trans (hk.fallbackWrite .client false _)
  · exact hdrain.trans (hk.finalize _)
  · exact hdrain

/-- The idle timer of a stream that holds a slot fired. -/
theorem expireUotTimer_step (h : Handle) (ac : Connection) : SlotStep ac (expireUotTimer h ac) := by
  intro hok
  have hslot := hok.slots h
  unfold expireUotTimer
  rw [upd_slotSide]
  refine ⟨hok.set rfl ?_, .set id fun _ => id⟩
  exact ⟨hslot.uot, hslot.seen, hslot.socket, nofun, hslot.lookup, hslot.held, hslot.live⟩

private theorem handle_step (e : Event) (ac : Connection) : SlotStep ac (handle e ac) := by
  have hk := outerCallbacks_kept ac.conf
  unfold handle
  cases e with
  | clientRead timedout =>
    have hunpost : SameSlots ac (unpostRead ac) := rfl
    exact hunpost.step.trans (clientReadHandler_step timedout _)
  | clientWrite =>
    have hunpost : SameSlots ac (unpostWrite ac) := rfl
    exact hunpost.step.trans (clientWriteHandler_step _)
  | upstreamRead h => exact hk.onReadReady h ac
  | upstreamWrite h timedout ready =>
    have hready : SlotStep ac (if ready = true then reportWritable h ac else ac) := by
      split_ifs
      · exact (sameSlots_upd fun _ => rfl : SameSlots ac (reportWritable h ac)).step
      · exact .refl ac
    exact hready.trans (hk.upstreamWriteHandler h timedout _)
  | udpRead h => exact hk.udpReadHandler h ac
  | uotIdle h => exact (expireUotTimer_step h ac).trans (hk.uotIdleTimeoutHandler h _)
  | resolved h a => exact hk.resolveHandler h a ac
  | writeTimeout =>
    have hstop : SameSlots ac (stopWriteTimer ac) := rfl
    exact hstop.step.trans (hk.finalize _)
  | fallbackRead => exact hk.fallbackRead .client ac
  | fallbackWrite timedout => exact hk.fallbackWrite .upstream timedout ac

private theorem step_slots (ac : Connection) (e : Event × Env) : SlotStep ac (step ac e) := by
  have henv : SameSlots ac ((setEnv e.2 ac).log (.event e.1)) := rfl
  unfold step
  split_ifs
  · exact .refl ac
  · exact henv.step.trans (handle_step e.1 _)

theorem steps_slots (es : List (Event × Env)) (ac : Connection) :
    SlotStep ac (es.foldl step ac) := by
  induction es generalizing ac with
  | nil => exact .refl ac
  | cons e es ih => exact (step_slots ac e).trans (ih _)

theorem init_slots (conf : Conf) : (Connection.init conf).slotSide.Ok none := by
  refine ⟨rfl, Nat.zero_le _, nofun, ?_, ?_⟩
  · intro h hin
    exact absurd (List.eq_of_mem_replicate hin) nofun
  · intro h
    exact ⟨nofun, nofun, nofun, nofun, nofun, fun _ => nofun, fun _ => nofun⟩

theorem run_slots (conf : Conf) (es : List (Event × Env)) : (run conf es).slotSide.Ok none :=
  (steps_slots es _ (init_slots conf)).1

theorem run_later (conf : Conf) (es es' : List (Event × Env)) :
    (run conf es).slotSide.Later (run conf (es ++ es')).slotSide := by
  have hrun : run conf (es ++ es') = es'.foldl step (run conf es) := List.foldl_append
  rw [hrun]
  exact (steps_slots es' _ (run_slots conf es)).2

theorem run_slotLimit (conf : Conf) (es : List (Event × Env)) :
    (run conf es).slotSide.limit = conf.maxUotStreams := by
  have hlater := run_later conf [] es
  rw [List.nil_append] at hlater
  exact hlater.limit

/-- Without a stream that is open, no slot is taken. -/
theorem SlotSide.Ok.none_taken {s : SlotSide} (hok : s.Ok none)
    (hclosed : ∀ h < s.nstreams, (s.slots h).live = false) :
    s.taken = 0 ∧ ∀ h, (s.slots h).counted = false := by
  have hnone : ∀ h, (s.slots h).counted = false := by
    intro h
    apply Bool.eq_false_iff.mpr
    intro hc
    have hlive := (hok.slots h).live nofun hc
    rw [hclosed h (hok.known h hc)] at hlive
    cases hlive
  refine ⟨?_, hnone⟩
  have hempty : s.holders = ∅ := by
    apply Finset.filter_eq_empty_iff.mpr
    intro h _
    rw [hnone]
    exact nofun
  rw [hok.taken, hempty, Finset.card_empty]

/-- The count of the UoT slots is that of the streams that hold one, and within the limit. A stream
with a slot is open and of the packet type, and only such a stream has a socket or an armed idle
timer. A slot given back is not taken or given back again. When all streams are closed none is
taken, and no socket or timer is left. -/
theorem run_uotSlots (conf : Conf) (es : List (Event × Env)) :
    (run conf es).uotStreams = ((Finset.range (run conf es).nstreams).filter
        fun h => ((run conf es).streams h).uotCounted = true).card ∧
      (run conf es).uotStreams ≤ conf.maxUotStreams ∧
      (∀ h, ((run conf es).streams h).uotCounted = true →
        h < (run conf es).nstreams ∧ ((run conf es).streams h).upstreamType = .uot ∧
          ((run conf es).streams h).state ≠ .closing ∧
          ((run conf es).streams h).state ≠ .closed) ∧
      (∀ h, ((run conf es).streams h).udp.isSome = true ∨
        ((run conf es).streams h).uotTimer = true →
          ((run conf es).streams h).uotCounted = true) ∧
      (∀ es₁ es₂ h, ((run conf es).streams h).uotCounted = true →
        ((run conf (es ++ es₁)).streams h).uotCounted = false →
          ((run conf (es ++ es₁ ++ es₂)).streams h).uotCounted = false) ∧
      ((∀ h < (run conf es).nstreams, ((run conf es).streams h).state = .closing ∨
          ((run conf es).streams h).state = .closed) →
        (run conf es).uotStreams = 0 ∧ ∀ h, ((run conf es).streams h).udp = none ∧
          ((run conf es).streams h).uotTimer = false) := by
  have hok := run_slots conf es
  refine ⟨hok.taken, ?_, ?_, ?_, ?_, ?_⟩
  · rw [← run_slotLimit conf es]
    exact hok.limit
  · intro h hc
    have hslot := hok.slots h
    have hlive : ((run conf es).streams h).live = true := hslot.live nofun hc
    have hopen : ¬(((run conf es).streams h).state = .closing ∨
        ((run conf es).streams h).state = .closed) := by
      simpa [Stream.live] using hlive
    have huot : ((run conf es).streams h).upstreamType = .uot := of_decide_eq_true (hslot.uot hc)
    exact ⟨hok.known h hc, huot, fun hs => hopen (.inl hs), fun hs => hopen (.inr hs)⟩
  · rintro h (hsocket | htimer)
    · exact (hok.slots h).socket hsocket
    · exact (hok.slots h).timer htimer
  · intro es₁ es₂ h hc hreleased
    have hl := run_later conf es es₁
    have hl' := run_later conf (es ++ es₁) es₂
    have hknown := hok.known h hc
    obtain ⟨hseen, -⟩ := hl.seen h hknown ((hok.slots h).seen hc)
    obtain ⟨-, hback⟩ := hl'.seen h (hknown.trans_le hl.nstreams) hseen
    apply Bool.eq_false_iff.mpr
    intro hagain
    have hheld : ((run conf (es ++ es₁)).streams h).uotCounted = true := hback hagain
    rw [hreleased] at hheld
    cases hheld
  · intro hclosed
    have hdead : ∀ h < (run conf es).slotSide.nstreams,
        ((run conf es).slotSide.slots h).live = false := by
      intro h hlt
      show ((run conf es).streams h).live = false
      rcases hclosed h hlt with hs | hs
      · rw [Stream.live, hs]
        rfl
      · rw [Stream.live, hs]
        rfl
    obtain ⟨hzero, hnone⟩ := hok.none_taken hdead
    refine ⟨hzero, fun h => ⟨?_, ?_⟩⟩
    · apply Option.not_isSome_iff_eq_none.mp
      intro hsocket
      have hc := (hok.slots h).socket hsocket
      rw [hnone h] at hc
      cases hc
    · apply Bool.eq_false_iff.mpr
      intro htimer
      have hc := (hok.slots h).timer htimer
      rw [hnone h] at hc
      cases hc

end NgxAnytls
