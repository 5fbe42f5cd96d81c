import NgxAnytls.UotSlotMux

/-! The events of upstreams keep the UoT slots right. -/

namespace NgxAnytls

namespace SlotsKept

variable {k : Callbacks} {ac : Connection} {h : Handle}

/-- A stream the client closed gives its slot back, and may be closed after that. -/
theorem uotClose_step (h : Handle) (hp : (ac.slotSide.slots h).protocol = true) :
    SlotStep ac (uotClose h ac) := by
  intro hok
  obtain ⟨hok', hl, hp'⟩ := uotClose_closing h ac (hok.closing h)
  have hcount : ((uotClose h ac).slotSide.slots h).counted = false := by
    rw [uotClose_slotSide]
    show ((ac.slotSide.set h (ac.slotSide.slots h).released).slots h).counted = false
    rw [SlotSide.set_slots, if_pos rfl]
    rfl
  exact ⟨hok'.closed hcount (hp' hp), hl⟩

theorem handleClientFin (hk : SlotsKept k) (h : Handle) (ac : Connection) :
    SlotStep ac (NgxAnytls.handleClientFin k h ac) := by
  obtain ⟨hmark, hp⟩ := markClosedByProtocol_step h ac
  have hsend := hmark.trans (hk.sendPending h sendUnlimited _)
  unfold NgxAnytls.handleClientFin
  dsimp only
  split_ifs
  · exact hmark.trans ((uotClose_step h hp).trans (hk.streamClose h _))
  · exact hsend.trans (hk.streamClose h _)
  · refine hsend.trans ?_
    generalize (NgxAnytls.sendPending k h sendUnlimited (markClosedByProtocol h ac)).2.2 = ac₁
    unfold halfClose
    split_ifs
    · have hlog : SameSlots ac₁ (ac₁.log (.upShutdown h)) := rfl
      exact hlog.step.trans (setState_step h .halfClosed (by decide) _)
    · have hdefer : SameSlots (setState h .halfClosed ac₁)
          (deferShutdown h (setState h .halfClosed ac₁)) := sameSlots_upd fun _ => rfl
      exact (setState_step h .halfClosed (by decide) ac₁).trans hdefer.step
  · exact hmark.trans (hk.streamClose h _)

/-- The payload of a stream the client has not closed. -/
theorem handleClientPayload (hk : SlotsKept k) (h : Handle) (data : Bytes)
    (hopen : (ac.streams h).closedByProtocol = false) :
    SlotStep ac (NgxAnytls.handleClientPayload k h data ac).2 := by
  unfold NgxAnytls.handleClientPayload
  split_ifs with huot
  · intro hok
    have htype : (ac.slotSide.slots h).uot = true := decide_eq_true huot
    have hc := (hok.slots h).held nofun htype hopen
    exact hk.uotClientPayload h data ac hok hc
  · exact hk.upstreamQueue h data ac

theorem upstreamOpen (hk : SlotsKept k) (h : Handle) (addr : Addr) (ac : Connection) :
    SlotStep ac (NgxAnytls.upstreamOpen k h addr ac).2 := by
  have hlook := (setTarget_slots addr h ac).step.trans (hk.resolveAddr_tcp h _)
  unfold NgxAnytls.upstreamOpen
  dsimp only
  cases (resolveAddr k h .tcp (setTarget h addr ac)).1 with
  | again =>
    have hlog : SlotStep ac ((resolveAddr k h .tcp (setTarget h addr ac)).2.log
        (.opening h ((resolveAddr k h .tcp (setTarget h addr ac)).2.streams h).state)) := hlook
    exact hlog.trans (setState_step h .connecting (by decide) _)
  | error => exact hlook
  | ok => exact hlook.trans (hk.openResolved h _)

/-- The stream at its first PSH, whose target was just stored. -/
theorem takeUotSlot_step (mode : AddrMode) (hknown : h < ac.nstreams)
    (hfirst : (ac.streams h).firstPshSeen = false) (addr : Addr)
    (hlimit : ac.uotStreams < ac.conf.maxUotStreams) :
    SlotStep ac (takeUotSlot h mode (setFirstPsh h addr ac)) ∧
      ((takeUotSlot h mode (setFirstPsh h addr ac)).streams h).uotCounted = true := by
  refine ⟨fun hok => ?_, ?_⟩
  · have hslot := hok.slots h
    have hfree : (ac.slotSide.slots h).counted = false := by
      apply Bool.eq_false_iff.mpr
      intro hc
      have hseen : (ac.streams h).firstPshSeen = true := hslot.seen hc
      rw [hfirst] at hseen
      cases hseen
    have hside : (takeUotSlot h mode (setFirstPsh h addr ac)).slotSide =
        ac.slotSide.take h { (ac.slotSide.slots h) with
          counted := true, uot := true, seen := true, live := true } := by
      unfold takeUotSlot setFirstPsh
      rw [upd_slotSide]
      have hbase : ∀ ac : Connection, ({ logState h .connected ac with
          uotStreams := ac.uotStreams + 1 } : Connection).slotSide =
            { ac.slotSide with taken := ac.uotStreams + 1 } := fun _ => rfl
      rw [hbase, upd_slotSide]
      simp only [SlotSide.take, SlotSide.set, logState, Connection.log_streams,
        Connection.upd_self, Function.update_idem]
      rfl
    rw [hside]
    refine ⟨hok.take hknown hfree hlimit ?_ rfl, ?_⟩
    · exact ⟨fun _ => rfl, fun _ => rfl, fun _ => rfl, fun _ => rfl, fun _ => rfl,
        fun _ _ _ => rfl, fun _ _ => rfl⟩
    · refine ⟨rfl, le_rfl, fun g _ hg => ?_⟩
      have htake : (ac.slotSide.take h { (ac.slotSide.slots h) with
          counted := true, uot := true, seen := true, live := true }).slots g =
          if g = h then { (ac.slotSide.slots h) with
            counted := true, uot := true, seen := true, live := true }
          else ac.slotSide.slots g := SlotSide.set_slots h g _ ac.slotSide
      rw [htake]
      split_ifs with hgh
      · subst hgh
        have hseen : (ac.streams g).firstPshSeen = true := hg
        rw [hfirst] at hseen
        cases hseen
      · exact ⟨hg, id⟩
  · unfold takeUotSlot
    rw [Connection.upd_self]

theorem setFirstPsh_step (h : Handle) (addr : Addr) (ac : Connection) :
    SlotStep ac (setFirstPsh h addr ac) := by
  intro hok
  have hslot := hok.slots h
  unfold setFirstPsh
  rw [upd_slotSide]
  refine ⟨hok.set rfl ?_, .set (fun _ => rfl) fun _ => id⟩
  exact ⟨hslot.uot, fun _ => rfl, hslot.socket, hslot.timer, hslot.lookup, hslot.held, hslot.live⟩

theorem handleFirstPsh (hk : SlotsKept k) (addr : Addr) (payload : Bytes)
    (hknown : h < ac.nstreams) (hfirst : (ac.streams h).firstPshSeen = false) :
    SlotStep ac (NgxAnytls.handleFirstPsh k h addr payload (setFirstPsh h addr ac)).2 := by
  have hset := setFirstPsh_step h addr ac
  have hqueue := hset.trans (hk.upstreamQueue h payload _)
  unfold NgxAnytls.handleFirstPsh
  dsimp only
  split_ifs with htcp hnone herr hclosing hopen hempty
  · exact hset.trans (hk.upstreamOpen h addr _)
  · exact hqueue
  · exact hqueue
  · exact hqueue.trans (hk.upstreamOpen h addr _)
  · by_cases hfull : (setFirstPsh h addr ac).conf.maxUotStreams ≤ (setFirstPsh h addr ac).uotStreams
    · rw [uotOpen, if_pos hfull]
      exact hset.trans (hk.synackAndClose h uotLimitText _)
    · have hlimit : ac.uotStreams < ac.conf.maxUotStreams := not_le.mp hfull
      obtain ⟨htake, -⟩ := takeUotSlot_step addr.mode hknown hfirst addr hlimit
      rw [uotOpen, if_neg hfull]
      have hsynack := htake.trans (sendSynack_slots h [] _).step
      exact hsynack.trans (hk.synackAndClose h uotLimitText _)
  all_goals
    have hfull : ¬(setFirstPsh h addr ac).conf.maxUotStreams ≤
      (setFirstPsh h addr ac).uotStreams := by
      intro hfull
      rw [uotOpen, if_pos hfull] at hopen
      exact hopen nofun
    have hlimit : ac.uotStreams < ac.conf.maxUotStreams := not_le.mp hfull
    obtain ⟨htake, hcount⟩ := takeUotSlot_step addr.mode hknown hfirst addr hlimit
    have hsame := sendSynack_slots h [] (takeUotSlot h addr.mode (setFirstPsh h addr ac))
    have hsynack := htake.trans hsame.step
    rw [uotOpen, if_neg hfull]
  · exact hsynack
  · intro hok
    obtain ⟨hok', hl⟩ := hsynack hok
    obtain ⟨hok'', hl'⟩ := hk.uotClientPayload h payload _ hok' ((hsame.counted h).trans hcount)
    exact ⟨hok'', hl.trans hl'⟩

theorem requeueReadReady_slots (h : Handle) (ac : Connection) :
    SameSlots ac (requeueReadReady h ac) := by
  unfold requeueReadReady
  split_ifs
  · exact sameSlots_upd fun _ => rfl
  · exact .refl ac

theorem requeueRead_slots (ac : Connection) : SameSlots ac (requeueRead ac).2 := by
  unfold requeueRead
  dsimp only
  split_ifs <;> rfl

theorem blockReadOrClose (hk : SlotsKept k) (h : Handle) (ac : Connection) :
    SlotStep ac (NgxAnytls.blockReadOrClose k h ac) := by
  have hblock := (blockRead_slots h ac).step
  unfold NgxAnytls.blockReadOrClose
  dsimp only
  split_ifs
  · exact hblock.trans (hk.closeFailed h _)
  · exact hblock

theorem queueRead (hk : SlotsKept k) (h : Handle) (buf : ReadBuf) (len : Nat) (ac : Connection) :
    SlotStep ac (NgxAnytls.queueRead k h buf len ac).2 := by
  have hqueue := (queueChainFrame_slots (some h) .psh (ac.streams h).id buf len true ac).step
  unfold NgxAnytls.queueRead
  dsimp only
  cases (queueChainFrame (some h) .psh (ac.streams h).id buf len true ac).1 with
  | again => exact hqueue.trans (hk.blockReadOrClose h _)
  | error => exact hqueue.trans (hk.closeFailed h _)
  | ok => exact hqueue

theorem readConnectedUot (hk : SlotsKept k) (h : Handle) (size : Nat) (ac : Connection) :
    SlotStep ac (NgxAnytls.readConnectedUot k h size ac).2 := by
  have hnext : SlotStep ac ac.recvNext := SameSlots.step rfl
  unfold NgxAnytls.readConnectedUot
  split_ifs
  · exact hk.closeFailed h ac
  cases ac.recvRes with
  | again => exact hnext
  | error => exact hnext.trans (hk.closeFailed h _)
  | data bs =>
    have hlog : SlotStep ac (ac.recvNext.log (.udpRecv h (bs.take (size - 2)))) :=
      SameSlots.step rfl
    dsimp only
    split_ifs
    · exact hlog.trans (hk.queueRead h _ _ _)
    · exact hlog.trans (hk.queueRead h _ _ _)

theorem readTcp (hk : SlotsKept k) (h : Handle) (size : Nat) (ac : Connection) :
    SlotStep ac (NgxAnytls.readTcp k h size ac).2 := by
  have hnext : SlotStep ac ac.recvNext := SameSlots.step rfl
  unfold NgxAnytls.readTcp
  cases ac.recvRes with
  | again => exact hnext
  | error => exact hnext.trans (hk.closeFailed h _)
  | data bs =>
    dsimp only
    split_ifs
    · exact hnext.trans ((dropUpstream_slots h _).step.trans (hk.sendFinAndClose h _))
    · exact hnext.trans (hk.queueRead h _ _ _)

theorem readOnce (hk : SlotsKept k) (h : Handle) (size : Nat) (ac : Connection) :
    SlotStep ac (NgxAnytls.readOnce k h size ac).2 := by
  have halloc : SlotStep ac ac.allocNext := SameSlots.step rfl
  unfold NgxAnytls.readOnce
  split_ifs
  · exact hk.blockReadOrClose h ac
  · exact halloc.trans (hk.closeFailed h _)
  · exact halloc.trans (hk.readConnectedUot h size _)
  · exact halloc.trans (hk.readTcp h size _)

theorem readStream (hk : SlotsKept k) (h : Handle) (left : Nat) (ac : Connection) :
    SlotStep ac (NgxAnytls.readStream k h left ac).2 := by
  have hloop : ∀ (size left : Nat) (ac : Connection),
      SlotStep ac (NgxAnytls.readLoop k h size left ac).2.2 := by
    intro size left
    induction left with
    | zero =>
      intro ac
      have hrequeue := ((requeueReadReady_slots h ac).trans (requeueRead_slots _)).step
      unfold NgxAnytls.readLoop
      dsimp only
      split_ifs
      · exact hrequeue.trans (hk.closeFailed h _)
      · exact hrequeue
    | succ left ih =>
      intro ac
      have honce := hk.readOnce h size ac
      unfold NgxAnytls.readLoop
      cases hres : NgxAnytls.readOnce k h size ac with
      | mk stop ac' =>
        rw [hres] at honce
        cases stop with
        | some stop => exact honce
        | none => exact honce.trans (ih ac')
  have hread := hloop (readSize h ac) left ac
  unfold NgxAnytls.readStream
  cases hres : NgxAnytls.readLoop k h (readSize h ac) left ac with
  | mk left' r =>
    obtain ⟨stop, ac'⟩ := r
    rw [hres] at hread
    cases stop with
    | more => exact hread
    | next => exact hread

theorem onReadReady (hk : SlotsKept k) (h : Handle) (ac : Connection) :
    SlotStep ac (NgxAnytls.onReadReady k h ac) := by
  have hloop : ∀ (fuel : Nat) (cur : Option Handle) (visits left : Nat) (ac : Connection),
      SlotStep ac (drainReadsLoop k fuel cur visits left ac) := by
    intro fuel
    induction fuel with
    | zero =>
      intro cur visits left ac
      cases cur with
      | none => exact .refl ac
      | some g => exact SameSlots.step rfl
    | succ fuel ih =>
      intro cur visits left ac
      cases cur with
      | none => exact .refl ac
      | some g =>
        have htake := (takeReadReady_slots g ac).step
        unfold drainReadsLoop
        dsimp only
        split_ifs
        · exact .refl ac
        · exact htake.trans (ih _ _ _ _)
        · exact htake.trans ((hk.readStream g left _).trans (ih _ _ _ _))
  unfold NgxAnytls.onReadReady
  split_ifs
  · exact .refl ac
  · exact (requeueReadReady_slots h ac).step.trans (hloop _ _ _ _ _)

theorem markWriteReady_slots (h : Handle) (ac : Connection) :
    SameSlots ac (markWriteReady h ac) := by
  unfold markWriteReady
  split_ifs
  · exact .refl ac
  · exact sameSlots_upd fun _ => rfl

theorem onWriteReady (hk : SlotsKept k) (h : Handle) (ac : Connection) :
    SlotStep ac (NgxAnytls.onWriteReady k h ac) := by
  have hloop : ∀ (fuel : Nat) (cur : Option Handle) (visits bytes : Nat) (ac : Connection),
      SlotStep ac (drainWritesLoop k fuel cur visits bytes ac) := by
    intro fuel
    induction fuel with
    | zero => exact fun _ _ _ ac => .refl ac
    | succ fuel ih =>
      intro cur visits bytes ac
      cases cur with
      | none => exact .refl ac
      | some g =>
        have htake : SameSlots ac (takeWriteReady g ac) := sameSlots_upd fun _ => rfl
        have hsend := htake.step.trans (hk.sendPending g (scheduleByteBudget - bytes) _)
        unfold drainWritesLoop
        by_cases hbudget : visits = 0 ∨ scheduleByteBudget ≤ bytes
        · rw [if_pos hbudget]
          exact .refl ac
        rw [if_neg hbudget]
        dsimp only
        generalize NgxAnytls.sendPending k g (scheduleByteBudget - bytes) (takeWriteReady g ac) = r
          at hsend ⊢
        by_cases herr : r.1 = .error
        · rw [if_pos herr]
          exact hsend.trans ((hk.closeFailed g _).trans (ih _ _ _ _))
        rw [if_neg herr]
        refine hsend.trans (SlotStep.trans ?_ (ih _ _ _ _))
        split_ifs
        · exact (markWriteReady_slots g _).step
        · exact .refl _
  unfold NgxAnytls.onWriteReady
  split_ifs
  · exact .refl ac
  · exact (markWriteReady_slots h ac).step.trans (hloop _ _ _ _ _)

theorem upstreamWriteHandler (hk : SlotsKept k) (h : Handle) (timedout : Bool) (ac : Connection) :
    SlotStep ac (NgxAnytls.upstreamWriteHandler k h timedout ac) := by
  unfold NgxAnytls.upstreamWriteHandler
  dsimp only
  split_ifs
  · exact hk.onWriteReady h ac
  · exact hk.synackAndClose h _ ac
  · have hnext : SameSlots ac ac.sockErrNext := rfl
    exact hnext.step.trans (hk.synackAndClose h _ _)
  all_goals
    have hnext : SameSlots ac ac.sockErrNext := rfl
    have hready := hnext.step.trans ((setConnectTimer_slots h false _).step.trans
      (hk.onConnectReady h _))
  · exact hready
  · exact hready.trans (hk.onWriteReady h _)

theorem resolveHandler (hk : SlotsKept k) (h : Handle) (a : Answer) (ac : Connection) :
    SlotStep ac (NgxAnytls.resolveHandler k h a ac) := by
  by_cases hctx : (ac.streams h).resolverCtx = true
  · intro hok
    cases htarget : (ac.streams h).resolverTarget with
    | uotPacket =>
      have hlookup : (ac.streams h).uotLookup = true := by
        rw [Stream.uotLookup, hctx, htarget]
        rfl
      exact (hk.resolveHandler_uot a hctx htarget).held hok ((hok.slots h).lookup hlookup)
    | uotConnect =>
      have hlookup : (ac.streams h).uotLookup = true := by
        rw [Stream.uotLookup, hctx, htarget]
        rfl
      have hc := (hok.slots h).lookup hlookup
      have hend : ((endLookup h ac).streams h).resolverTarget = .uotConnect := by
        rw [endLookup, Connection.upd_self]
        exact htarget
      suffices hheld : HeldStep h ac (NgxAnytls.resolveHandler k h a ac) from hheld hok hc
      unfold NgxAnytls.resolveHandler
      rw [hctx, Bool.not_true, if_neg Bool.false_ne_true]
      cases usableAddr a with
      | none =>
        simp only [muxResolveError, hend]
        have hclear := (endLookup_uot h ac).trans (clearResolverTarget_uot h _)
        exact hclear.held.step (hk.closeFailed h _)
      | some sa =>
        have hcopy : ((copyAddr h sa (endLookup h ac)).streams h).resolverTarget = .uotConnect := by
          rw [copyAddr, Connection.upd_self]
          exact hend
        have hstart := (endLookup_uot h ac).trans ((copyAddr_uot sa h _).trans
          (clearResolverTarget_uot h _))
        simp only [muxResolveOk, hcopy, uotResolved]
        split_ifs
        · exact hstart.held.step (hk.closeFailed h _)
        · exact hstart.held
        · exact (hstart.then (hk.uotClientPayload h [] _)).step (hk.closeFailed h _)
        · exact hstart.then (hk.uotClientPayload h [] _)
    | tcp =>
      have hend : ((endLookup h ac).streams h).resolverTarget = .tcp := by
        rw [endLookup, Connection.upd_self]
        exact htarget
      suffices hstep : SlotStep ac (NgxAnytls.resolveHandler k h a ac) from hstep hok
      unfold NgxAnytls.resolveHandler
      rw [hctx, Bool.not_true, if_neg Bool.false_ne_true]
      cases usableAddr a with
      | none =>
        simp only [muxResolveError, hend]
        have hclear := (endLookup_step h ac).trans (clearResolverTarget_step h _)
        exact hclear.trans (hk.synackAndClose h _ _)
      | some sa =>
        have hcopy : ((copyAddr h sa (endLookup h ac)).streams h).resolverTarget = .tcp := by
          rw [copyAddr, Connection.upd_self]
          exact hend
        have hsame : SameSlots (endLookup h ac) (copyAddr h sa (endLookup h ac)) :=
          sameSlots_upd fun _ => rfl
        have hopen := (endLookup_step h ac).trans (hsame.step.trans
          ((clearResolverTarget_step h _).trans (hk.openResolved h _)))
        simp only [muxResolveOk, hcopy]
        split_ifs
        · exact hopen.trans (hk.closeFailed h _)
        · exact hopen
    | none =>
      have hend : ((endLookup h ac).streams h).resolverTarget = .none := by
        rw [endLookup, Connection.upd_self]
        exact htarget
      suffices hstep : SlotStep ac (NgxAnytls.resolveHandler k h a ac) from hstep hok
      unfold NgxAnytls.resolveHandler
      rw [hctx, Bool.not_true, if_neg Bool.false_ne_true]
      cases usableAddr a with
      | none =>
        simp only [muxResolveError, hend]
        exact (endLookup_step h ac).trans
          ((clearResolverTarget_step h _).trans (hk.closeFailed h _))
      | some sa =>
        have hcopy : ((copyAddr h sa (endLookup h ac)).streams h).resolverTarget = .none := by
          rw [copyAddr, Connection.upd_self]
          exact hend
        have hsame : SameSlots (endLookup h ac) (copyAddr h sa (endLookup h ac)) :=
          sameSlots_upd fun _ => rfl
        simp only [muxResolveOk, hcopy]
        exact (endLookup_step h ac).trans (hsame.step.trans (clearResolverTarget_step h _))
  · unfold NgxAnytls.resolveHandler
    rw [if_pos (by simpa using hctx)]
    exact .refl ac

theorem uotReadDgram_slots (h : Handle) (ac : Connection) : SameSlots ac (uotReadDgram h ac).2 := by
  unfold uotReadDgram
  split_ifs
  · rfl
  dsimp only
  cases ac.allocNext.recvFromRes with
  | again => rfl
  | error => rfl
  | dgram src bs =>
    dsimp only
    split_ifs
    · rfl
    · rfl
    all_goals
      exact SameSlots.trans (show SameSlots ac ac.allocNext.recvFromNext from rfl)
        (queueChainFrame_slots (some h) .psh _ _ _ false _)

theorem udpReadHandler (hk : SlotsKept k) (h : Handle) (ac : Connection) :
    SlotStep ac (NgxAnytls.udpReadHandler k h ac) := by
  have hloop : ∀ (fuel : Nat) (ac : Connection), SlotStep ac (udpReadLoop k h fuel ac) := by
    intro fuel
    induction fuel with
    | zero => exact fun ac => SameSlots.step rfl
    | succ fuel ih =>
      intro ac
      have hread := (uotReadDgram_slots h ac).step
      unfold udpReadLoop
      dsimp only
      cases (uotReadDgram h ac).1 with
      | again => exact hread
      | error => exact hread.trans (hk.closeFailed h _)
      | ok => exact hread.trans (ih _)
  have harm := uotArmIdleTimer_step h ac
  unfold NgxAnytls.udpReadHandler
  dsimp only
  split_ifs
  · exact harm.trans (hk.onReadReady h _)
  · exact harm.trans (blockRead_slots h _).step
  · exact harm.trans (hloop _ _)

/-- The slot is given back before the client is told, who then cannot use the stream any more. -/
theorem uotIdleTimeoutHandler (hk : SlotsKept k) (h : Handle) (ac : Connection) :
    SlotStep ac (NgxAnytls.uotIdleTimeoutHandler k h ac) := by
  unfold NgxAnytls.uotIdleTimeoutHandler
  split_ifs
  · exact .refl ac
  have hmark : SlotStep ac (markClosedByProtocol h (uotClose h ac)) := by
    intro hok
    obtain ⟨hok', hl, -⟩ := ((uotClose_closing h ac).trans (markClosedByProtocol_closing h _))
      (hok.closing h)
    obtain ⟨-, hp⟩ := markClosedByProtocol_step h (uotClose h ac)
    have hcount : ((markClosedByProtocol h (uotClose h ac)).slotSide.slots h).counted = false := by
      have hreleased : ((uotClose h ac).slotSide.slots h).counted = false := by
        rw [uotClose_slotSide]
        show ((ac.slotSide.set h (ac.slotSide.slots h).released).slots h).counted = false
        rw [SlotSide.set_slots, if_pos rfl]
        rfl
      unfold markClosedByProtocol
      split_ifs
      · exact hreleased
      · rw [upd_slotSide, SlotSide.set_slots, if_pos rfl]
        exact hreleased
    exact ⟨hok'.closed hcount hp, hl⟩
  exact hmark.trans (hk.finThenClose h _)

end SlotsKept

end NgxAnytls
