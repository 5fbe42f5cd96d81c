import NgxAnytls.UotSlotSteps

/-! UoT streams, lookups and upstream sockets keep the UoT slots right. -/

namespace NgxAnytls

section Held

variable {ac ac' ac'' : Connection} {h : Handle}

theorem UotStep.refl (h : Handle) (ac : Connection) : UotStep h ac ac :=
  fun hok hc => ⟨hok, .refl _, hc, rfl⟩

theorem UotStep.trans (hs : UotStep h ac ac') (hs' : UotStep h ac' ac'') : UotStep h ac ac'' := by
  intro hok hc
  obtain ⟨hok', hl, hc', hm⟩ := hs hok hc
  obtain ⟨hok'', hl', hc'', hm'⟩ := hs' hok' hc'
  exact ⟨hok'', hl.trans hl', hc'', hm'.trans hm⟩

theorem UotStep.held (hs : UotStep h ac ac') : HeldStep h ac ac' := by
  intro hok hc
  obtain ⟨hok', hl, -, -⟩ := hs hok hc
  exact ⟨hok', hl⟩

theorem UotStep.then (hs : UotStep h ac ac') (hs' : HeldStep h ac' ac'') : HeldStep h ac ac'' := by
  intro hok hc
  obtain ⟨hok', hl, hc', -⟩ := hs hok hc
  obtain ⟨hok'', hl'⟩ := hs' hok' hc'
  exact ⟨hok'', hl.trans hl'⟩

theorem HeldStep.step (hs : HeldStep h ac ac') (hs' : SlotStep ac' ac'') : HeldStep h ac ac'' := by
  intro hok hc
  obtain ⟨hok', hl⟩ := hs hok hc
  obtain ⟨hok'', hl'⟩ := hs' hok'
  exact ⟨hok'', hl.trans hl'⟩

theorem SlotStep.held (hs : SlotStep ac ac') : HeldStep h ac ac' := fun hok _ => hs hok

theorem SameSlots.counted (hs : SameSlots ac ac') (h : Handle) :
    (ac'.streams h).uotCounted = (ac.streams h).uotCounted := by
  have hslot : (ac'.slotSide.slots h).counted = (ac.slotSide.slots h).counted := by rw [hs]
  exact hslot

/-- The slots are as they were, and the stream's mode. -/
theorem SameSlots.uot (hs : SameSlots ac ac')
    (hm : (ac'.streams h).uotMode = (ac.streams h).uotMode) : UotStep h ac ac' := by
  intro hok hc
  obtain ⟨hok', hl⟩ := hs.step hok
  exact ⟨hok', hl, (hs.counted h).trans hc, hm⟩

/-- A change of the stream that has nothing to do with its slot. -/
theorem upd_uot {f : Stream → Stream} (hf : ∀ st, (f st).slot = st.slot)
    (hm : ∀ st, (f st).uotMode = st.uotMode) : UotStep h ac (ac.upd h f) := by
  apply SameSlots.uot (sameSlots_upd hf)
  rw [Connection.upd_self]
  exact hm _

/-- A stream with a slot may open a socket, arm its timer and start a lookup. -/
theorem upd_held {f : Stream → Stream}
    (hf : ∀ st, (f st).uotCounted = st.uotCounted ∧ (f st).upstreamType = st.upstreamType ∧
      (f st).firstPshSeen = st.firstPshSeen ∧ (f st).state = st.state ∧
      (f st).uotMode = st.uotMode) : UotStep h ac (ac.upd h f) := by
  intro hok hc
  have hslot := hok.slots h
  obtain ⟨hcounted, htype, hseen, hstate, hmode⟩ := hf (ac.streams h)
  have hcount : (f (ac.streams h)).uotCounted = true := hcounted.trans hc
  have hok' : (f (ac.streams h)).slot.Ok (none = some h) := by
    constructor
    · intro _
      show decide ((f (ac.streams h)).upstreamType = .uot) = true
      rw [htype]
      exact hslot.uot hc
    · intro _
      exact hseen.trans (hslot.seen hc)
    · exact fun _ => hcount
    · exact fun _ => hcount
    · exact fun _ => hcount
    · exact fun _ _ _ => hcount
    · intro hne _
      show (f (ac.streams h)).live = true
      rw [Stream.live, hstate]
      exact hslot.live hne hc
  rw [upd_slotSide]
  refine ⟨hok.set hcounted hok', .set (fun hs => hseen.trans hs) (fun _ _ => hc), ?_, ?_⟩
  · rw [Connection.upd_self]
    exact hcount
  · rw [Connection.upd_self]
    exact hmode

private theorem setUdp_uot (udp : Option Family) (h : Handle) (ac : Connection) :
    UotStep h ac (setUdp h udp ac) := upd_held fun _ => ⟨rfl, rfl, rfl, rfl, rfl⟩

private theorem uotArmIdleTimer_uot (h : Handle) (ac : Connection) :
    UotStep h ac (uotArmIdleTimer h ac) := by
  unfold uotArmIdleTimer
  split_ifs
  · exact .refl h ac
  · exact upd_held fun _ => ⟨rfl, rfl, rfl, rfl, rfl⟩

/-- The timer is armed for a socket only. -/
theorem uotArmIdleTimer_step (h : Handle) (ac : Connection) :
    SlotStep ac (uotArmIdleTimer h ac) := by
  intro hok
  by_cases hnone : (ac.streams h).udp.isNone = true ∨ ac.conf.uotIdleTimeout = 0
  · rw [uotArmIdleTimer, if_pos hnone]
    exact ⟨hok, .refl _⟩
  · have hsocket : (ac.streams h).udp.isSome = true := by
      have hudp := (not_or.mp hnone).1
      cases hu : (ac.streams h).udp with
      | none => exact absurd (by rw [hu]; rfl) hudp
      | some _ => rfl
    exact (uotArmIdleTimer_uot h ac).held hok ((hok.slots h).socket hsocket)

private theorem udpSocket_uot (family : Family) (h : Handle) (ac : Connection) :
    UotStep h ac (udpSocket h family ac).2 := by
  have hclose := setUdp_uot none h ac
  have hfail : UotStep h ac (setUdp h none ac).udpOpenNext := hclose
  have hopen := hfail.trans (setUdp_uot (some family) h _)
  unfold udpSocket
  dsimp only
  split_ifs
  · exact .refl h ac
  · exact hfail
  · exact hopen.trans (uotArmIdleTimer_uot h _)

private theorem uotUpstreamStateOpen_uot (h : Handle) (ac : Connection) :
    UotStep h ac (uotUpstreamStateOpen h ac).2 := by
  have hopen : UotStep h ac.allocNext (markStateOpened h ac.allocNext) :=
    upd_uot (fun _ => rfl) fun _ => rfl
  unfold uotUpstreamStateOpen
  split_ifs
  · exact .refl h ac
  · exact SameSlots.uot rfl rfl
  · exact hopen

theorem uotSendResolved_uot (dst : Option SockAddr) (payload : Bytes) (h : Handle)
    (ac : Connection) : UotStep h ac (uotSendResolved h dst payload ac).2 := by
  unfold uotSendResolved
  split_ifs
  · exact .refl h ac
  cases dst with
  | none => exact .refl h ac
  | some sa =>
    have hsocket := udpSocket_uot sa.family h ac
    have hstate := hsocket.trans (uotUpstreamStateOpen_uot h _)
    dsimp only
    split_ifs
    · exact hsocket
    · exact hstate
    · exact hstate

private theorem uotRemovePending_uot (p : UotPending) (h : Handle) (ac : Connection) :
    UotStep h ac (uotRemovePending h p ac) := upd_uot (fun _ => rfl) fun _ => rfl

theorem uotDropPendingDomain_uot (domain : Bytes) (port : Nat) (h : Handle) (ac : Connection) :
    UotStep h ac (uotDropPendingDomain h domain port ac) := by
  have hall : ∀ (ps : List UotPending) (ac : Connection),
      UotStep h ac (ps.foldl (fun ac p => uotRemovePending h p ac) ac) := by
    intro ps
    induction ps with
    | nil => exact fun ac => .refl h ac
    | cons p ps ih => exact fun ac => (uotRemovePending_uot p h ac).trans (ih _)
  exact hall _ ac

theorem uotFlushPendingDomain_uot (domain : Bytes) (port : Nat) (h : Handle) (ac : Connection) :
    UotStep h ac (uotFlushPendingDomain h domain port ac) := by
  have hloop : ∀ (dst : Option SockAddr) (ps : List UotPending) (ac : Connection),
      UotStep h ac (uotFlushLoop h domain port dst ps ac) := by
    intro dst ps
    induction ps with
    | nil => exact fun ac => .refl h ac
    | cons p ps ih =>
      intro ac
      have hsent := uotSendResolved_uot dst p.payload h ac
      unfold uotFlushLoop
      dsimp only
      split_ifs
      · exact ih ac
      · exact hsent.trans (uotDropPendingDomain_uot domain port h _)
      · exact hsent.trans ((uotRemovePending_uot p h _).trans (ih _))
  exact hloop _ _ ac

theorem uotEnqueuePending_uot (addr : Addr) (payload : Bytes) (h : Handle) (ac : Connection) :
    UotStep h ac (uotEnqueuePending h addr payload ac).2 := by
  have hadd : UotStep h ac.allocNext.allocNext
      (uotAddPending h ⟨addr.host, addr.port, payload⟩ ac.allocNext.allocNext) :=
    upd_uot (fun _ => rfl) fun _ => rfl
  unfold uotEnqueuePending
  dsimp only
  split_ifs
  · exact .refl h ac
  · exact .refl h ac
  · exact SameSlots.uot rfl rfl
  · exact SameSlots.uot rfl rfl
  · exact hadd

/-- The reassembly buffer is no part of the slot. -/
theorem slot_recv (st : Stream) (buf : Option Bytes) (pos len size : Nat) :
    ({ st with uotRecvBuf := buf, uotRecvPos := pos, uotRecvLen := len, uotRecvSize := size } :
      Stream).slot = st.slot := rfl

private theorem uotStore_uot (data : Bytes) (h : Handle) (ac : Connection) :
    UotStep h ac (uotStore h data ac) := by
  unfold uotStore
  exact upd_uot (fun st => slot_recv st _ st.uotRecvPos _ st.uotRecvSize) fun _ => rfl

theorem uotConsume_uot (left : Nat) (h : Handle) (ac : Connection) :
    UotStep h ac (uotConsume h left ac) := by
  unfold uotConsume
  exact upd_uot (fun st => slot_recv st st.uotRecvBuf _ _ st.uotRecvSize) fun _ => rfl

private theorem uotBufferMakeRoom_uot (len : Nat) (h : Handle) (ac : Connection) :
    UotStep h ac (uotBufferMakeRoom h len ac).2 := by
  have hcompact : UotStep h ac
      (if (ac.streams h).uotRecvPos ≠ 0 then uotCompact h ac else ac) := by
    split_ifs
    · unfold uotCompact
      exact upd_uot (fun st => slot_recv st _ _ st.uotRecvLen st.uotRecvSize) fun _ => rfl
    · exact .refl h ac
  unfold uotBufferMakeRoom
  by_cases hroom : (!(ac.streams h).uotLacks len) = true
  · rw [if_pos hroom]
    exact .refl h ac
  rw [if_neg hroom]
  dsimp only
  generalize (if (ac.streams h).uotRecvPos ≠ 0 then uotCompact h ac else ac) = ac₁ at hcompact ⊢
  have hgrow : ∀ n, UotStep h ac₁.allocNext (uotGrow h n ac₁.allocNext) := by
    intro n
    unfold uotGrow
    exact upd_uot (fun st => slot_recv st _ _ st.uotRecvLen n) fun _ => rfl
  split_ifs
  · exact hcompact
  · exact hcompact
  · exact hcompact.trans (hgrow _)
  · exact hcompact

theorem uotBufferAppend_uot (data : Bytes) (h : Handle) (ac : Connection) :
    UotStep h ac (uotBufferAppend h data ac).2 := by
  have hsize : UotStep h ac (uotSetRecvSize h ac) := by
    unfold uotSetRecvSize
    exact upd_uot (fun st => slot_recv st st.uotRecvBuf st.uotRecvPos st.uotRecvLen uotRecvSize)
      fun _ => rfl
  have hfail : UotStep h ac (uotSetRecvSize h ac).allocNext := hsize
  have hnew : UotStep h ac (uotNewBuffer h (uotSetRecvSize h ac).allocNext) := by
    refine hfail.trans ?_
    unfold uotNewBuffer
    exact upd_uot (fun st => slot_recv st (some []) st.uotRecvPos st.uotRecvLen st.uotRecvSize)
      fun _ => rfl
  have hroom := uotBufferMakeRoom_uot data.length h ac
  have hnewRoom := hnew.trans (uotBufferMakeRoom_uot data.length h _)
  unfold uotBufferAppend
  dsimp only
  split_ifs
  · exact .refl h ac
  · exact hfail
  · exact hnewRoom
  · exact hnewRoom.trans (uotStore_uot data h _)
  · exact hroom
  · exact hroom.trans (uotStore_uot data h _)

theorem setTarget_uot (addr : Addr) (h : Handle) (ac : Connection) :
    UotStep h ac (setTarget h addr ac) := upd_uot (fun _ => rfl) fun _ => rfl

theorem setTarget_slots (addr : Addr) (h : Handle) (ac : Connection) :
    SameSlots ac (setTarget h addr ac) := sameSlots_upd fun _ => rfl

theorem resolveSync_uot (h : Handle) (ac : Connection) : UotStep h ac (resolveSync h ac).2 := by
  unfold resolveSync
  split
  · exact SameSlots.uot rfl rfl
  · exact setTarget_uot _ h ac.hostNext

theorem resolveSync_slots (h : Handle) (ac : Connection) : SameSlots ac (resolveSync h ac).2 := by
  unfold resolveSync
  split
  · rfl
  · exact setTarget_slots _ h ac.hostNext

theorem startLookup_uot (target : ResolveTarget) (h : Handle) (ac : Connection) :
    UotStep h ac (startLookup h target ac) := upd_held fun _ => ⟨rfl, rfl, rfl, rfl, rfl⟩

theorem resolverCancel_uot (h : Handle) (ac : Connection) : UotStep h ac (resolverCancel h ac) :=
  upd_held fun _ => ⟨rfl, rfl, rfl, rfl, rfl⟩

theorem clearResolverTarget_uot (h : Handle) (ac : Connection) :
    UotStep h ac (clearResolverTarget h ac) := upd_held fun _ => ⟨rfl, rfl, rfl, rfl, rfl⟩

theorem endLookup_uot (h : Handle) (ac : Connection) : UotStep h ac (endLookup h ac) :=
  upd_held fun _ => ⟨rfl, rfl, rfl, rfl, rfl⟩

theorem copyAddr_uot (sa : SockAddr) (h : Handle) (ac : Connection) :
    UotStep h ac (copyAddr h sa ac) := upd_uot (fun _ => rfl) fun _ => rfl

/-- The stream's lookup is over, or one for a TCP target begins. -/
theorem upd_noLookup {f : Stream → Stream} (hlookup : ∀ st, (f st).uotLookup = false)
    (hf : ∀ st, { (f st).slot with lookup := false } = { st.slot with lookup := false }) :
    SlotStep ac (ac.upd h f) := by
  intro hok
  have hslot := hok.slots h
  have hset : (f (ac.streams h)).slot = { (ac.streams h).slot with lookup := false } := by
    rw [← hf]
    unfold Stream.slot
    rw [hlookup]
  rw [upd_slotSide, hset]
  refine ⟨hok.set rfl ?_, .set id fun _ => id⟩
  exact ⟨hslot.uot, hslot.seen, hslot.socket, hslot.timer, nofun, hslot.held, hslot.live⟩

theorem startLookup_tcp (h : Handle) (ac : Connection) : SlotStep ac (startLookup h .tcp ac) :=
  upd_noLookup (fun _ => by simp [Stream.uotLookup]) fun _ => rfl

theorem resolverCancel_step (h : Handle) (ac : Connection) : SlotStep ac (resolverCancel h ac) :=
  upd_noLookup (fun _ => by simp [Stream.uotLookup]) fun _ => rfl

theorem endLookup_step (h : Handle) (ac : Connection) : SlotStep ac (endLookup h ac) :=
  upd_noLookup (fun _ => by simp [Stream.uotLookup]) fun _ => rfl

theorem clearResolverTarget_step (h : Handle) (ac : Connection) :
    SlotStep ac (clearResolverTarget h ac) :=
  upd_noLookup (fun _ => by simp [Stream.uotLookup]) fun _ => rfl

end Held

end NgxAnytls
