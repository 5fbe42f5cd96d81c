import NgxAnytls.UotSlots

/-! What leaves the UoT slots alone. -/

namespace NgxAnytls

variable {ac : Connection}

private theorem markReady_slots (h : Handle) (ac : Connection) : SameSlots ac (markReady h ac) := by
  unfold markReady
  dsimp only
  split_ifs
  · exact .refl ac
  · exact sameSlots_upd fun _ => rfl
  · exact sameSlots_upd fun _ => rfl

private theorem armWriteTimer_slots (ac : Connection) : SameSlots ac (armWriteTimer ac) := by
  unfold armWriteTimer
  split_ifs <;> rfl

theorem postWrite_slots (ac : Connection) : SameSlots ac (postWrite ac) := by
  unfold postWrite
  split_ifs
  · exact .refl ac
  · exact armWriteTimer_slots { ac with writePending := true }

private theorem countStreamFrame_slots (owner : Option Handle) (f : OutFrame) (ac : Connection) :
    SameSlots ac (countStreamFrame owner f ac) := by
  unfold countStreamFrame
  cases owner with
  | none => exact .refl ac
  | some h =>
    dsimp only
    split_ifs
    · exact sameSlots_upd fun _ => rfl
    · exact .refl ac

private theorem setDirectCount_slots (h : Handle) (n : Nat) (ac : Connection) :
    SameSlots ac (setDirectCount h n ac) := sameSlots_upd fun _ => rfl

private theorem appendOut_slots (h : Handle) (f : OutFrame) (ac : Connection) :
    SameSlots ac (appendOut h f ac) := sameSlots_upd fun _ => rfl

private theorem linkFrame_slots (owner : Option Handle) (f : OutFrame) (ac : Connection) :
    SameSlots ac (linkFrame owner f ac) := by
  unfold linkFrame
  cases owner with
  | none => rfl
  | some h =>
    dsimp only
    split_ifs
    · rfl
    · exact setDirectCount_slots h _ { ac with dataOut := ac.dataOut ++ [f] }
    · exact (appendOut_slots h f ac).trans
        ((markReady_slots h _).trans (setDirectCount_slots h 0 _))

private theorem queuePreparedFrame_slots (owner : Option Handle) (f : OutFrame) (ac : Connection) :
    SameSlots ac (queuePreparedFrame owner f ac).2 := by
  unfold queuePreparedFrame
  split_ifs
  · exact .refl ac
  · exact .refl ac
  · have hcount := countStreamFrame_slots owner (f.prepare owner) ac
    have hlink := hcount.trans (linkFrame_slots owner (f.prepare owner) _)
    exact hlink.trans (postWrite_slots _)

theorem queueDataFrame_slots (copy : Bool) (owner : Option Handle) (cmd : Cmd) (streamId : UInt32)
    (data : Bytes) (ac : Connection) :
    SameSlots ac (queueDataFrame copy owner cmd streamId data ac).2 := by
  unfold queueDataFrame
  dsimp only
  split_ifs
  · exact .refl ac
  · exact .refl ac
  · exact .refl ac
  · exact .refl ac
  · exact queuePreparedFrame_slots owner _ ac.allocNext.allocNext
  · exact queuePreparedFrame_slots owner _ ac.allocNext

theorem queueChainFrame_slots (owner : Option Handle) (cmd : Cmd) (streamId : UInt32)
    (buf : ReadBuf) (len : Nat) (checked : Bool) (ac : Connection) :
    SameSlots ac (queueChainFrame owner cmd streamId buf len checked ac).2 := by
  unfold queueChainFrame
  dsimp only
  split_ifs
  · exact .refl ac
  · exact .refl ac
  · exact .refl ac
  · exact queuePreparedFrame_slots owner _ ac.allocNext
  · exact queuePreparedFrame_slots owner _ ac.allocNext

theorem sendSynack_slots (h : Handle) (data : Bytes) (ac : Connection) :
    SameSlots ac (sendSynack h data ac).2 := by
  have hmark : SameSlots ac (markSynackSent h ac) := sameSlots_upd fun _ => rfl
  have hqueue := hmark.trans (queueDataFrame_slots false (some h) .synack
    ((markSynackSent h ac).streams h).id data (markSynackSent h ac))
  unfold sendSynack
  dsimp only
  split_ifs
  · exact .refl ac
  · exact hmark
  · exact hqueue
  · exact hqueue

private theorem clientInputPause_slots (ac : Connection) :
    SameSlots ac (clientInputPause ac).2 := by
  unfold clientInputPause
  dsimp only
  split_ifs <;> rfl

theorem enableClientRead_slots (ac : Connection) : SameSlots ac (enableClientRead ac).2 := by
  unfold enableClientRead
  dsimp only
  split_ifs <;> rfl

private theorem blockInput_slots (h : Handle) (ac : Connection) :
    SameSlots ac (blockInput h ac).2 := by
  have hmark : SameSlots ac (markInputBlocked h ac) := by
    unfold markInputBlocked
    split_ifs
    · exact .refl ac
    · exact sameSlots_upd fun _ => rfl
  exact hmark.trans (clientInputPause_slots _)

theorem unblockInput_slots (h : Handle) (ac : Connection) : SameSlots ac (unblockInput h ac) := by
  unfold unblockInput
  split_ifs
  · exact sameSlots_upd fun _ => rfl
  · exact .refl ac

theorem dropPending_slots (h : Handle) (ac : Connection) : SameSlots ac (dropPending h ac) := by
  have hdrop : SameSlots ac ({ ac with pendingInput := ac.pendingInput -
      (ac.streams h).pendingInBytes }.upd h fun st =>
        { st with pendingIn := [], pendingInBytes := 0 }) := sameSlots_upd fun _ => rfl
  exact hdrop

theorem removeReady_slots (h : Handle) (ac : Connection) : SameSlots ac (removeReady h ac) := by
  unfold removeReady
  split_ifs
  · exact sameSlots_upd fun _ => rfl
  · exact .refl ac

theorem unblockRead_slots (h : Handle) (ac : Connection) : SameSlots ac (unblockRead h ac) := by
  unfold unblockRead
  split_ifs
  · exact sameSlots_upd fun _ => rfl
  · exact .refl ac

theorem cancelConnect_slots (h : Handle) (ac : Connection) :
    SameSlots ac (cancelConnect h ac) := by
  unfold cancelConnect
  split_ifs
  · exact sameSlots_upd fun _ => rfl
  · exact .refl ac

theorem muxStreamClosing_slots (h : Handle) (ac : Connection) :
    SameSlots ac (muxStreamClosing h ac) := by
  have hread : SameSlots ac (unlinkReadReady h ac) := by
    unfold unlinkReadReady
    split_ifs
    · exact sameSlots_upd fun _ => rfl
    · exact .refl ac
  have hwrite : ∀ ac, SameSlots ac (unlinkWriteReady h ac) := by
    intro ac
    unfold unlinkWriteReady
    split_ifs
    · exact sameSlots_upd fun _ => rfl
    · exact .refl ac
  exact hread.trans ((hwrite _).trans ((unblockRead_slots h _).trans (cancelConnect_slots h _)))

theorem dropUpstream_slots (h : Handle) (ac : Connection) : SameSlots ac (dropUpstream h ac) :=
  sameSlots_upd fun _ => rfl

theorem clearUotPending_slots (h : Handle) (ac : Connection) :
    SameSlots ac (clearUotPending h ac) := sameSlots_upd fun _ => rfl

private theorem noteClamped_slots (b : Bool) (ac : Connection) :
    SameSlots ac (noteClamped b ac) := by
  unfold noteClamped
  split_ifs <;> rfl

theorem dropOut_slots (h : Handle) (ac : Connection) : SameSlots ac (dropOut h ac) := by
  have hnote := noteClamped_slots (dropClamps h ac) ac
  exact hnote.trans (sameSlots_upd fun _ => rfl)

theorem blockRead_slots (h : Handle) (ac : Connection) : SameSlots ac (blockRead h ac).2 := by
  unfold blockRead
  split_ifs
  · exact .refl ac
  · have hmark : SameSlots ac (markReadBlocked h ac) := sameSlots_upd fun _ => rfl
    exact hmark

theorem takeReadReady_slots (h : Handle) (ac : Connection) :
    SameSlots ac (takeReadReady h ac) := sameSlots_upd fun _ => rfl

private theorem suspendReads_slots (ac : Connection) : SameSlots ac (suspendReads ac) := by
  have hone : ∀ (ac : Connection) (h : Handle), SameSlots ac (suspendRead ac h) := by
    intro ac h
    unfold suspendRead
    dsimp only
    split_ifs
    · exact takeReadReady_slots h ac
    · exact (takeReadReady_slots h ac).trans (blockRead_slots h _)
  have hall : ∀ (hs : List Handle) (ac : Connection), SameSlots ac (hs.foldl suspendRead ac) := by
    intro hs
    induction hs with
    | nil => exact fun ac => .refl ac
    | cons h hs ih => exact fun ac => (hone ac h).trans (ih _)
  exact hall ac.readReady (setPressure true ac)

theorem retireFrame_slots (f : OutFrame) (ac : Connection) : SameSlots ac (retireFrame f ac) := by
  have hnote := noteClamped_slots (retireClamps f ac) ac
  unfold retireFrame
  cases f.stream with
  | none => exact hnote
  | some h => exact hnote.trans (sameSlots_upd fun _ => rfl)

private theorem scheduleFrame_slots (h : Handle) (f : OutFrame) (fs : List OutFrame)
    (ac : Connection) :
    SameSlots ac (scheduleFrame h f fs ac) := by
  have hmove : SameSlots ac (moveToData h f fs ac) := sameSlots_upd fun _ => rfl
  unfold scheduleFrame
  dsimp only
  split_ifs
  · exact hmove.trans (markReady_slots h _)
  · exact hmove

private theorem scheduleLoop_slots (go : Nat → Nat → Bool) (fuel frames bytes : Nat)
    (ac : Connection) :
    SameSlots ac (scheduleLoop go fuel frames bytes ac) := by
  induction fuel generalizing frames bytes ac with
  | zero => exact .refl ac
  | succ fuel ih =>
    unfold scheduleLoop
    cases ac.readyStreams with
    | nil => exact .refl ac
    | cons h _ =>
      dsimp only
      split_ifs
      · exact .refl ac
      have hremove := removeReady_slots h ac
      cases ((removeReady h ac).streams h).out with
      | nil => exact hremove.trans (ih _ _ _)
      | cons f fs => exact hremove.trans ((scheduleFrame_slots h f fs _).trans (ih _ _ _))

theorem scheduleStreamFrames_slots (n : Nat) (ac : Connection) :
    SameSlots ac (scheduleStreamFrames n ac) := by
  unfold scheduleStreamFrames
  dsimp only
  split_ifs <;> exact scheduleLoop_slots _ _ _ _ ac

theorem linkFrames_slots (ac : Connection) : SameSlots ac (linkFrames ac) := by
  unfold linkFrames
  split_ifs <;> rfl

theorem takeClosing_slots (h : Handle) (ac : Connection) : SameSlots ac (takeClosing h ac) :=
  sameSlots_upd fun _ => rfl

theorem flushBlocked_slots (ac : Connection) : SameSlots ac (flushBlocked ac).2 := by
  unfold flushBlocked
  dsimp only
  split_ifs
  · rfl
  · exact armWriteTimer_slots (setWriteArmed true ac.arm.2)

theorem drainPressure_slots (rc : Rc) (ac : Connection) : SameSlots ac (drainPressure rc ac) := by
  unfold drainPressure
  cases rc with
  | ok => rfl
  | error => exact .refl ac
  | again =>
    dsimp only
    split_ifs
    · exact .refl ac
    · exact suspendReads_slots ac

private theorem setWriteReady_slots (h : Handle) (n total : Nat) (ac : Connection) :
    SameSlots ac (setWriteReady h n total ac) := by
  unfold setWriteReady
  split_ifs
  · exact sameSlots_upd fun _ => rfl
  · exact .refl ac

theorem upstreamWriteChain_slots (h : Handle) (batch : Bytes) (ac : Connection) :
    SameSlots ac (upstreamWriteChain h batch ac).2 := by
  unfold upstreamWriteChain
  cases ac.chainRes with
  | error => rfl
  | again => exact setWriteReady_slots h 0 _ ac.chainNext
  | done n => exact setWriteReady_slots h _ _ (ac.chainNext.log (.upChain h _))

theorem accountSent_slots (h : Handle) (n : Nat) (ac : Connection) :
    SameSlots ac (accountSent h n ac) := by
  have hsent : SameSlots ac (ac.upd h fun st =>
      { st with pendingIn := accountHead n st.pendingIn }) := sameSlots_upd fun _ => rfl
  exact hsent

theorem popPending_slots (h : Handle) (ac : Connection) : SameSlots ac (popPending h ac) :=
  sameSlots_upd fun _ => rfl

theorem shutdownDeferred_slots (h : Handle) (ac : Connection) :
    SameSlots ac (shutdownDeferred h ac) := by
  unfold shutdownDeferred
  split_ifs
  · have hclear : SameSlots ac (ac.upd h fun st => { st with pendingShutdown := false }) :=
      sameSlots_upd fun _ => rfl
    exact hclear
  · exact .refl ac

private theorem directLoop_slots (h : Handle) (fuel : Nat) (data : Bytes) (ac : Connection) :
    SameSlots ac (directLoop h fuel data ac).2 := by
  induction fuel generalizing data ac with
  | zero => exact .refl ac
  | succ fuel ih =>
    unfold directLoop
    split_ifs
    · exact .refl ac
    cases ac.sendRes with
    | error => rfl
    | again => exact setWriteReady_slots h 0 _ ac.sendNext
    | done n =>
      dsimp only
      split_ifs
      · rfl
      · have hready := setWriteReady_slots h (min n data.length) data.length
          (upDirect h (data.take (min n data.length)) ac.sendNext)
        exact SameSlots.trans hready (ih _ _)

theorem upstreamAppend_slots (h : Handle) (data : Bytes) (ac : Connection) :
    SameSlots ac (upstreamAppend h data ac).2 := by
  have happend : SameSlots ac (appendPending h data ac.allocNext.allocNext) := by
    have hupd : SameSlots ac ({ ac.allocNext.allocNext with
        pendingInput := ac.allocNext.allocNext.pendingInput + data.length }.upd h fun st =>
          { st with
            pendingIn := st.pendingIn ++ [Pending.mk data 0]
            pendingInBytes := st.pendingInBytes + data.length }) := sameSlots_upd fun _ => rfl
    exact hupd
  unfold upstreamAppend
  dsimp only
  split_ifs
  · rfl
  · rfl
  · exact happend.trans (blockInput_slots h _)
  · exact happend.trans (clientInputPause_slots _)
  · exact happend

theorem upstreamDirect_slots (h : Handle) (data : Bytes) (ac : Connection) :
    SameSlots ac (upstreamDirect h data ac).2 := by
  have hloop := directLoop_slots h data.length data ac
  unfold upstreamDirect
  split_ifs
  · exact upstreamAppend_slots h data ac
  · cases hres : directLoop h data.length data ac with
    | mk rest ac' =>
      rw [hres] at hloop
      cases rest with
      | none => exact hloop
      | some rest =>
        dsimp only
        split_ifs
        · exact hloop
        · exact hloop
        · exact hloop.trans (upstreamAppend_slots h rest ac'.arm.2)

theorem onConnectPending_slots (h : Handle) (ac : Connection) :
    SameSlots ac (onConnectPending h ac) := by
  unfold onConnectPending
  split_ifs
  · exact .refl ac
  · exact sameSlots_upd fun _ => rfl

theorem setConnectTimer_slots (h : Handle) (b : Bool) (ac : Connection) :
    SameSlots ac (setConnectTimer h b ac) := sameSlots_upd fun _ => rfl

theorem markStateOpened_slots (h : Handle) (ac : Connection) :
    SameSlots ac (markStateOpened h ac) := sameSlots_upd fun _ => rfl

end NgxAnytls
