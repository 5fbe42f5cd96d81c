import NgxAnytls.UotSlotFrames

/-! Closing streams, writing to the client and sending to upstreams keep the UoT slots right. -/

namespace NgxAnytls

section Stream

variable {ac : Connection} {h : Handle}

theorem log_slotSide (ac : Connection) (o : Obs) : (ac.log o).slotSide = ac.slotSide := rfl

theorem markClosedByProtocol_step (h : Handle) (ac : Connection) :
    SlotStep ac (markClosedByProtocol h ac) ∧
      ((markClosedByProtocol h ac).slotSide.slots h).protocol = true := by
  unfold markClosedByProtocol
  split_ifs with hp
  · exact ⟨.refl ac, hp⟩
  · refine ⟨fun hok => ?_, ?_⟩
    · have hslot := hok.slots h
      rw [upd_slotSide]
      refine ⟨hok.set rfl ?_, .set id fun _ => id⟩
      exact ⟨hslot.uot, hslot.seen, hslot.socket, hslot.timer, hslot.lookup, fun _ _ => nofun,
        hslot.live⟩
    · rw [upd_slotSide, SlotSide.set_slots, if_pos rfl]
      rfl

/-- The client is told of a stream that has lost its slot already. -/
theorem markClosedByProtocol_closing (h : Handle) (ac : Connection) :
    ClosingStep h ac (markClosedByProtocol h ac) := by
  unfold markClosedByProtocol
  split_ifs with hp
  · exact SameSlots.closing (.refl ac)
  · intro hok
    have hslot := hok.slots h
    rw [upd_slotSide]
    refine ⟨hok.set rfl ?_, .set id fun _ => id, fun _ => ?_⟩
    · exact ⟨hslot.uot, hslot.seen, hslot.socket, hslot.timer, hslot.lookup, fun _ _ => nofun,
        hslot.live⟩
    · rw [SlotSide.set_slots, if_pos rfl]
      rfl

private theorem resolverCancel_closing (h : Handle) (ac : Connection) :
    ClosingStep h ac (resolverCancel h ac) := by
  intro hok
  have hslot := hok.slots h
  unfold resolverCancel
  rw [upd_slotSide]
  refine ⟨hok.set rfl ?_, .set id fun _ => id, fun hp => ?_⟩
  · exact ⟨hslot.uot, hslot.seen, hslot.socket, hslot.timer, nofun, hslot.held, hslot.live⟩
  · rw [SlotSide.set_slots, if_pos rfl]
    exact hp

theorem uotClose_closing (h : Handle) (ac : Connection) : ClosingStep h ac (uotClose h ac) := by
  intro hok
  rw [uotClose_slotSide]
  refine ⟨hok.release (.inr rfl), .release h _, fun hp => ?_⟩
  show ((ac.slotSide.set h (ac.slotSide.slots h).released).slots h).protocol = true
  rw [SlotSide.set_slots, if_pos rfl]
  exact hp

private theorem uotCloseIfCounted_closing (h : Handle) (ac : Connection) :
    ClosingStep h ac (uotCloseIfCounted h ac) ∧
      ((uotCloseIfCounted h ac).slotSide.slots h).counted = false := by
  unfold uotCloseIfCounted
  split_ifs with hc
  · refine ⟨uotClose_closing h ac, ?_⟩
    rw [uotClose_slotSide]
    show ((ac.slotSide.set h (ac.slotSide.slots h).released).slots h).counted = false
    rw [SlotSide.set_slots, if_pos rfl]
    rfl
  · exact ⟨SameSlots.closing (.refl ac), Bool.eq_false_iff.mpr hc⟩

/-- A state that ends the stream. -/
theorem dead_closing {ac' : Connection}
    (hset : ac'.slotSide = ac.slotSide.set h { (ac.slotSide.slots h) with live := false }) :
    ClosingStep h ac ac' := by
  intro hok
  have hslot := hok.slots h
  rw [hset]
  refine ⟨hok.set rfl ?_, .set id fun _ => id, fun hp => ?_⟩
  · exact ⟨hslot.uot, hslot.seen, hslot.socket, hslot.timer, hslot.lookup, hslot.held,
      fun hne => absurd rfl hne⟩
  · rw [SlotSide.set_slots, if_pos rfl]
    exact hp

private theorem enterClosing_closing (h : Handle) (ac : Connection) :
    ClosingStep h ac (enterClosing h ac) := by
  apply dead_closing
  unfold enterClosing
  dsimp only
  rw [log_slotSide, upd_slotSide]
  rfl

private theorem enterClosed_closing (h : Handle) (ac : Connection) :
    ClosingStep h ac (enterClosed h ac) := by
  apply dead_closing
  unfold enterClosed
  dsimp only
  rw [log_slotSide, upd_slotSide]
  rfl

/-- A stream is opened, connected or half closed. -/
theorem setState_step (h : Handle) (state : StreamState)
    (hlive : state ≠ .closing ∧ state ≠ .closed) (ac : Connection) :
      SlotStep ac (setState h state ac) := by
  intro hok
  have hslot := hok.slots h
  have hset : (setState h state ac).slotSide =
      ac.slotSide.set h { (ac.slotSide.slots h) with live := true } := by
    unfold setState
    rw [upd_slotSide]
    have hst : Stream.live { (logState h state ac).streams h with state := state } = true := by
      simp [Stream.live, hlive.1, hlive.2]
    show SlotSide.set h (Stream.slot { (logState h state ac).streams h with state := state })
      (logState h state ac).slotSide = _
    unfold Stream.slot
    rw [hst]
    rfl
  rw [hset]
  refine ⟨hok.set rfl ?_, .set id fun _ => id⟩
  exact ⟨hslot.uot, hslot.seen, hslot.socket, hslot.timer, hslot.lookup, hslot.held, fun _ _ => rfl⟩

private theorem openUpstream_step (h : Handle) (ready : Bool) (ac : Connection) :
    SlotStep ac (openUpstream h ready ac) := by
  intro hok
  have hslot := hok.slots h
  have hset : (openUpstream h ready ac).slotSide =
      ac.slotSide.set h { (ac.slotSide.slots h) with live := true } := by
    unfold openUpstream
    rw [log_slotSide, upd_slotSide]
    rfl
  rw [hset]
  refine ⟨hok.set rfl ?_, .set id fun _ => id⟩
  exact ⟨hslot.uot, hslot.seen, hslot.socket, hslot.timer, hslot.lookup, hslot.held, fun _ _ => rfl⟩

/-- The table forgets a stream. -/
theorem forgetStream_slots (b : Bool) (h : Handle) (ac : Connection) :
    SlotStep ac (forgetStream b h ac) := by
  have hlists : SameSlots ac (unlinkStream h (if b then unlinkClosing h ac else ac)) := by
    split_ifs <;> rfl
  have htable : ∀ ac : Connection, SlotStep ac (htRemove h ac) := by
    intro ac hok
    unfold htRemove
    cases htRemoveLoop ac h ac.ht.length (htIndex ac (ac.streams h).id) with
    | none => exact ⟨hok, .refl _⟩
    | some idx =>
      refine ⟨⟨hok.taken, hok.limit, hok.known, fun g hg => ?_, hok.slots⟩, rfl, le_rfl,
        fun _ _ hs => ⟨hs, fun hc => hc⟩⟩
      rcases List.mem_or_eq_of_mem_set hg with hin | heq
      · exact hok.table g hin
      · cases heq
  exact hlists.step.trans (htable _)

end Stream

/-- From a stream with a slot: the slots stay right, and the stream keeps its own and its mode. -/
def UotStep (h : Handle) (ac ac' : Connection) : Prop :=
  ac.slotSide.Ok none → (ac.streams h).uotCounted = true →
    ac'.slotSide.Ok none ∧ ac.slotSide.Later ac'.slotSide ∧
      (ac'.streams h).uotCounted = true ∧ (ac'.streams h).uotMode = (ac.streams h).uotMode

/-- From a stream with a slot: the slots stay right. -/
def HeldStep (h : Handle) (ac ac' : Connection) : Prop :=
  ac.slotSide.Ok none → (ac.streams h).uotCounted = true →
    ac'.slotSide.Ok none ∧ ac.slotSide.Later ac'.slotSide

/-- The calls that lead back keep the slots right, and a stream whose packet was looked up keeps
its own. -/
structure SlotsKept (k : Callbacks) : Prop where
  resume : ∀ ac, SlotStep ac (k.resume ac).2
  resolved : ∀ h a ac, SlotStep ac (k.resolved h a ac)
  packet : ∀ h a ac, (ac.streams h).resolverCtx = true →
    (ac.streams h).resolverTarget = .uotPacket → UotStep h ac (k.resolved h a ac)

namespace SlotsKept

variable {k : Callbacks} {ac : Connection} {h : Handle}

theorem discardPending (hk : SlotsKept k) (h : Handle) (ac : Connection) :
    SlotStep ac (NgxAnytls.discardPending k h ac) := by
  have hdrop := (dropPending_slots h ac).trans (unblockInput_slots h _)
  exact hdrop.step.trans (hk.resume _)

theorem updateInputState (hk : SlotsKept k) (h : Handle) (ac : Connection) :
    SlotStep ac (NgxAnytls.updateInputState k h ac).2 := by
  unfold NgxAnytls.updateInputState
  split_ifs
  · exact .refl ac
  · exact .refl ac
  · exact (unblockInput_slots h ac).step.trans (hk.resume _)

/-- A stream that is closed for the client gives its slot back before input is resumed. -/
theorem close_released {ac' : Connection} (hs : ClosingStep h ac ac')
    (hp : (ac.slotSide.slots h).protocol = true) :
    SlotStep ac (uotCloseIfCounted h ac') := by
  intro hok
  obtain ⟨hstep, hcount⟩ := uotCloseIfCounted_closing h ac'
  obtain ⟨hok', hl, hp'⟩ := (hs.trans hstep) (hok.closing h)
  exact ⟨hok'.closed hcount (hp' hp), hl⟩

theorem streamClose (hk : SlotsKept k) (h : Handle) (ac : Connection) :
    SlotStep ac (NgxAnytls.streamClose k h ac) := by
  unfold NgxAnytls.streamClose
  split_ifs with hclosed
  · exact .refl ac
  obtain ⟨hmark, hp⟩ := markClosedByProtocol_step h ac
  have hmux := muxStreamClosing_slots h (markClosedByProtocol h ac)
  have hbegin := hmark.trans hmux.step
  have hp' :
      ((muxStreamClosing h (markClosedByProtocol h ac)).slotSide.slots h).protocol = true := by
    rw [hmux]
    exact hp
  dsimp only
  split_ifs
  · refine hbegin.trans ?_
    unfold delayClose
    have henter := enterClosing_closing h (muxStreamClosing h (markClosedByProtocol h ac))
    have hdead := henter.trans ((resolverCancel_closing h _).trans
      (dropUpstream_slots h _).closing)
    have hreleased := close_released hdead hp'
    exact hreleased.trans ((hk.discardPending h _).trans
      ((unblockRead_slots h _).trans (cancelConnect_slots h _)).step)
  · refine hbegin.trans ?_
    unfold fullClose
    have henter := enterClosed_closing h (muxStreamClosing h (markClosedByProtocol h ac))
    have hcancel := henter.trans
      ((removeReady_slots h _).closing.trans (resolverCancel_closing h _))
    have hdead := hcancel.trans ((dropOut_slots h _).trans (dropUpstream_slots h _)).closing
    have hreleased := close_released hdead hp'
    have hclear := hreleased.trans (clearUotPending_slots h _).step
    have hdiscard := hclear.trans (hk.discardPending h _)
    exact hdiscard.trans ((cancelConnect_slots h _).step.trans (forgetStream_slots _ h _))

theorem closeFailed (hk : SlotsKept k) {cause : CloseCause} (h : Handle) (ac : Connection) :
    SlotStep ac (NgxAnytls.closeFailed k cause h ac) := hk.streamClose h (logClose cause h ac)

theorem synackAndClose (hk : SlotsKept k) {cause : CloseCause} (h : Handle) (text : Bytes)
    (ac : Connection) : SlotStep ac (NgxAnytls.synackAndClose k cause h text ac) := by
  have hsynack : SlotStep ac (sendSynack h text (logClose cause h ac)).2 :=
    (sendSynack_slots h text (logClose cause h ac)).step
  exact hsynack.trans (hk.streamClose h _)

theorem closeOutput_slots (h : Handle) (ac : Connection) : SameSlots ac (closeOutput h ac) :=
  sameSlots_upd fun _ => rfl

/-- A FIN for the client, then the close; without the FIN the stream stays, closed for it. -/
theorem finThenClose (hk : SlotsKept k) (h : Handle) (ac : Connection) :
    SlotStep (markClosedByProtocol h ac) (NgxAnytls.sendFinAndClose k h ac).2 := by
  have hout := closeOutput_slots h (markClosedByProtocol h ac)
  have hqueue := hout.trans (queueDataFrame_slots true (some h) .fin
    ((closeOutput h (markClosedByProtocol h ac)).streams h).id [] _)
  unfold NgxAnytls.sendFinAndClose
  dsimp only
  split_ifs
  · exact hqueue.step
  · exact hqueue.step.trans (hk.streamClose h _)
  · exact hout.step.trans (hk.streamClose h _)

theorem sendFinAndClose (hk : SlotsKept k) (h : Handle) (ac : Connection) :
    SlotStep ac (NgxAnytls.sendFinAndClose k h ac).2 :=
  (markClosedByProtocol_step h ac).1.trans (hk.finThenClose h ac)

theorem processBlocked (hk : SlotsKept k) (ac : Connection) :
    SlotStep ac (NgxAnytls.processBlocked k ac) := by
  have hloop : ∀ (hs : List Handle) (ac : Connection),
      SlotStep ac (processBlockedLoop k hs ac) := by
    intro hs
    induction hs with
    | nil => exact fun ac => .refl ac
    | cons h hs ih =>
      intro ac
      have hunblock := unblockRead_slots h ac
      have harm : SameSlots ac (unblockRead h ac).arm.2 := hunblock
      have hcount : SameSlots ac (setResumed ((unblockRead h ac).arm.2.resumedStreams + 1)
          (unblockRead h ac).arm.2) := hunblock
      unfold processBlockedLoop
      dsimp only
      split_ifs
      · exact hunblock.step.trans (ih _)
      · exact .refl ac
      · exact .refl ac
      · exact harm.step.trans (hk.closeFailed h _)
      · exact hcount.step.trans (ih _)
  exact hloop ac.blockedUpstreamReads ac

theorem onClientMuxResult (hk : SlotsKept k) (released : Bool) (ac : Connection) :
    SlotStep ac (NgxAnytls.onClientMuxResult k released ac) := by
  unfold NgxAnytls.onClientMuxResult
  split_ifs
  · have hpressure : SameSlots ac (setPressure false ac) := rfl
    exact hpressure.step.trans ((hk.processBlocked _).trans (hk.processBlocked _))
  · exact hk.processBlocked ac

theorem defaultFrameHandler (hk : SlotsKept k) (f : OutFrame) (ac : Connection) :
    SlotStep ac (NgxAnytls.defaultFrameHandler k f ac) := by
  have hretire := (retireFrame_slots f ac).step
  unfold NgxAnytls.defaultFrameHandler
  cases f.stream with
  | none => exact hretire
  | some h =>
    dsimp only
    split_ifs
    · exact hretire.trans (hk.streamClose h _)
    · exact hretire

theorem recycleSentFrames (hk : SlotsKept k) (fuel : Nat) (ac : Connection) :
    SlotStep ac (NgxAnytls.recycleSentFrames k fuel ac) := by
  induction fuel generalizing ac with
  | zero => exact .refl ac
  | succ fuel ih =>
    unfold NgxAnytls.recycleSentFrames
    cases ac.sending with
    | nil => exact .refl ac
    | cons f fs =>
      dsimp only
      split_ifs
      · exact .refl ac
      · have hset : SameSlots ac (setSending fs ac) := rfl
        exact hset.step.trans ((hk.defaultFrameHandler f _).trans (ih _))

theorem drainClosingStreams (hk : SlotsKept k) (ac : Connection) :
    SlotStep ac (NgxAnytls.drainClosingStreams k ac) := by
  have hloop : ∀ (fuel : Nat) (cur : Option Handle) (ac : Connection),
      SlotStep ac (drainClosingLoop k fuel cur ac) := by
    intro fuel
    induction fuel with
    | zero =>
      intro cur ac
      cases cur with
      | none => exact .refl ac
      | some h => exact SameSlots.step rfl
    | succ fuel ih =>
      intro cur ac
      cases cur with
      | none => exact .refl ac
      | some h =>
        unfold drainClosingLoop
        dsimp only
        split_ifs
        · exact (takeClosing_slots h ac).step.trans ((hk.streamClose h _).trans (ih _ _))
        · exact ih _ _
  exact hloop _ _ ac

theorem flush (hk : SlotsKept k) (budget : Nat) (ac : Connection) :
    SlotStep ac (NgxAnytls.flush k budget ac).2 := by
  have hlink : SameSlots ac (linkFrames (scheduleStreamFrames budget ac.clientErrNext)) :=
    SameSlots.trans (scheduleStreamFrames_slots budget ac.clientErrNext) (linkFrames_slots _)
  unfold NgxAnytls.flush
  dsimp only
  split_ifs
  · exact SameSlots.step rfl
  · exact SameSlots.step hlink
  generalize linkFrames (scheduleStreamFrames budget ac.clientErrNext) = ac₁ at hlink ⊢
  have hwrite : ∀ ac₂, clientWriteChain ac₁ = some ac₂ → SameSlots ac₁ ac₂ := by
    intro ac₂ hres
    unfold clientWriteChain at hres
    cases hio : ac₁.clientRes with
    | error =>
      rw [hio] at hres
      cases hres
    | again =>
      rw [hio] at hres
      cases hres
      rfl
    | done n =>
      rw [hio] at hres
      cases hres
      rfl
  cases hres : clientWriteChain ac₁ with
  | none => exact hlink.step
  | some ac₂ =>
    have hsent : SlotStep ac (NgxAnytls.recycleSentFrames k ac₂.sending.length ac₂) :=
      (hlink.trans (hwrite ac₂ hres)).step.trans (hk.recycleSentFrames _ ac₂)
    dsimp only
    generalize NgxAnytls.recycleSentFrames k ac₂.sending.length ac₂ = ac₃ at hsent ⊢
    have hresult : SlotStep ac (if ac₃.outputPressure = true then ac₃
        else NgxAnytls.onClientMuxResult k false ac₃) := by
      split_ifs
      · exact hsent
      · exact hsent.trans (hk.onClientMuxResult false ac₃)
    generalize (if ac₃.outputPressure = true then ac₃
      else NgxAnytls.onClientMuxResult k false ac₃) = ac₄ at hresult ⊢
    split_ifs
    · exact hresult.trans (flushBlocked_slots ac₄).step
    · have hdrain := hk.drainClosingStreams (setWriteArmed false ac₄).arm.2
      have hstart : SameSlots ac₄ (setWriteArmed false ac₄).arm.2 := rfl
      unfold flushDone
      dsimp only
      split_ifs
      · exact hresult
      · exact hresult.trans (hstart.step.trans (hdrain.trans (postWrite_slots _).step))
      · have hstop : SameSlots (NgxAnytls.drainClosingStreams k (setWriteArmed false ac₄).arm.2)
            (stopWriteTimer (NgxAnytls.drainClosingStreams k (setWriteArmed false ac₄).arm.2)) :=
          rfl
        exact hresult.trans (hstart.step.trans (hdrain.trans hstop.step))

theorem clientMuxDrain (hk : SlotsKept k) (budget : Nat) (report : Bool) (ac : Connection) :
    SlotStep ac (NgxAnytls.clientMuxDrain k budget report ac).2.2 := by
  have hstart : SameSlots ac (setResumed 0 ac) := rfl
  have hdrain := hstart.step.trans (hk.drainClosingStreams (setResumed 0 ac))
  unfold NgxAnytls.clientMuxDrain
  dsimp only
  generalize (if budget = 0 then clientDrainFrames else budget) = b
  have hflush := hdrain.trans (hk.flush b _)
  have hpressure := hflush.trans (drainPressure_slots (NgxAnytls.flush k b
    (NgxAnytls.drainClosingStreams k (setResumed 0 ac))).1 _).step
  cases report with
  | true => exact hpressure.trans (hk.onClientMuxResult _ _)
  | false => exact hpressure

theorem accountLoop (hk : SlotsKept k) (h : Handle) (fuel sent : Nat) (ac : Connection) :
    SlotStep ac (NgxAnytls.accountLoop k h fuel sent ac).2 := by
  induction fuel generalizing sent ac with
  | zero => exact .refl ac
  | succ fuel ih =>
    unfold NgxAnytls.accountLoop
    cases (ac.streams h).pendingIn with
    | nil => exact .refl ac
    | cons p ps =>
      have hsent := accountSent_slots h (min p.rest.length sent) ac
      have hpop := (hsent.trans (popPending_slots h _)).step.trans (hk.updateInputState h _)
      dsimp only
      split_ifs
      · exact .refl ac
      · exact hsent.step
      · exact hpop
      · exact hpop.trans (ih _ _)

theorem sendPendingTail (hk : SlotsKept k) (h : Handle) (ac : Connection) :
    SlotStep ac (NgxAnytls.sendPendingTail k h ac).2 := by
  have hshutdown : SameSlots ac (shutdownDeferred h ac).arm.2 := shutdownDeferred_slots h ac
  unfold NgxAnytls.sendPendingTail
  dsimp only
  split_ifs
  · exact SameSlots.step rfl
  · exact hshutdown.step
  · exact hshutdown.step.trans (hk.resume _)

theorem sendBatch (hk : SlotsKept k) (h : Handle) (batch : Bytes) (ac : Connection) :
    SlotStep ac (NgxAnytls.sendBatch k h batch ac).2.2 := by
  have hwrite := upstreamWriteChain_slots h batch ac
  unfold NgxAnytls.sendBatch
  cases hres : upstreamWriteChain h batch ac with
  | mk taken ac' =>
    rw [hres] at hwrite
    cases taken with
    | none => exact hwrite.step
    | some sent =>
      dsimp only
      split_ifs
      · exact hwrite.step
      · exact hwrite.step.trans (hk.accountLoop h _ sent ac')

theorem sendLoop (hk : SlotsKept k) (h : Handle) (fuel maxBytes total : Nat) (ac : Connection) :
    SlotStep ac (NgxAnytls.sendLoop k h fuel maxBytes total ac).2.2 := by
  induction fuel generalizing maxBytes total ac with
  | zero => exact hk.sendPendingTail h ac
  | succ fuel ih =>
    have hbatch := hk.sendBatch h
      (batchLoop (ac.streams h).pendingIn maxBytes pendingWriteChainLimit).flatten ac
    unfold NgxAnytls.sendLoop
    by_cases hnil : (ac.streams h).pendingIn = []
    · rw [if_pos hnil]
      exact hk.sendPendingTail h ac
    rw [if_neg hnil]
    by_cases hzero : maxBytes = 0
    · rw [if_pos hzero]
      exact .refl ac
    rw [if_neg hzero]
    dsimp only
    by_cases hempty : (batchLoop (ac.streams h).pendingIn maxBytes
        pendingWriteChainLimit).flatten = []
    · rw [if_pos hempty]
      exact hk.sendPendingTail h ac
    rw [if_neg hempty]
    cases hres : NgxAnytls.sendBatch k h
        (batchLoop (ac.streams h).pendingIn maxBytes pendingWriteChainLimit).flatten ac with
    | mk sent r =>
      obtain ⟨rc, ac'⟩ := r
      rw [hres] at hbatch
      cases rc with
      | some rc => exact hbatch
      | none =>
        dsimp only
        split_ifs
        all_goals first
          | exact hbatch.trans (hk.sendPendingTail h ac')
          | exact hbatch.trans (ih _ _ ac')

theorem sendPending (hk : SlotsKept k) (h : Handle) (maxBytes : Nat) (ac : Connection) :
    SlotStep ac (NgxAnytls.sendPending k h maxBytes ac).2.2 := by
  unfold NgxAnytls.sendPending
  split_ifs
  · exact .refl ac
  · exact hk.sendLoop h _ maxBytes 0 ac

theorem upstreamQueue (hk : SlotsKept k) (h : Handle) (data : Bytes) (ac : Connection) :
    SlotStep ac (NgxAnytls.upstreamQueue k h data ac).2 := by
  have hsend := hk.sendPending h sendUnlimited ac
  unfold NgxAnytls.upstreamQueue
  dsimp only
  split_ifs
  · exact .refl ac
  · exact hsend
  · exact hsend.trans (upstreamDirect_slots h data _).step
  · exact (upstreamDirect_slots h data ac).step
  · exact (upstreamAppend_slots h data ac).step

theorem onConnectReady (hk : SlotsKept k) (h : Handle) (ac : Connection) :
    SlotStep ac (NgxAnytls.onConnectReady k h ac).2 := by
  have hcancel := (cancelConnect_slots h ac).step
  have hstate := hcancel.trans (setState_step h .connected (by decide) _)
  have hsynack := hstate.trans (sendSynack_slots h [] _).step
  unfold NgxAnytls.onConnectReady
  dsimp only
  generalize (sendSynack h [] (setState h .connected (cancelConnect h ac))).2 = ac₁
    at hsynack ⊢
  have harm : SlotStep ac ac₁.arm.2 := hsynack
  split_ifs
  · exact harm.trans (hk.closeFailed h _)
  · exact harm

theorem openResolved (hk : SlotsKept k) (h : Handle) (ac : Connection) :
    SlotStep ac (NgxAnytls.openResolved k h ac).2 := by
  unfold NgxAnytls.openResolved
  by_cases hnone : (ac.streams h).target.sockaddr.isNone = true
  · rw [if_pos hnone]
    exact .refl ac
  rw [if_neg hnone]
  by_cases hmem : (!ac.allocOk) = true
  · rw [if_pos hmem]
    exact SameSlots.step rfl
  rw [if_neg hmem]
  dsimp only
  by_cases hstate : (!(ac.allocNext.streams h).upstreamStateOpened) = true ∧
      (!ac.allocNext.allocOk) = true
  · rw [if_pos hstate]
    exact SameSlots.step rfl
  rw [if_neg hstate]
  have hmark : SlotStep ac (markStateOpened h ac.allocNext.allocNext) :=
    (markStateOpened_slots h ac.allocNext.allocNext).step
  generalize markStateOpened h ac.allocNext.allocNext = ac₁ at hmark ⊢
  have hstart : SlotStep ac ac₁.connectNext := hmark
  cases ac₁.connectRes with
  | error => exact hstart
  | ok =>
    have hopen := hstart.trans (openUpstream_step h true _)
    have hready := hopen.trans (hk.onConnectReady h _)
    dsimp only
    split_ifs
    · exact hready
    · exact hready.trans (hk.sendPending h sendUnlimited _)
  | again =>
    have hopen := hstart.trans (openUpstream_step h false _)
    have hpending := hopen.trans (onConnectPending_slots h _).step
    exact hpending.trans (setConnectTimer_slots h true _).step

end SlotsKept

end NgxAnytls
