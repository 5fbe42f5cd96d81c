import NgxAnytls.UotSlotCalls

/-! UoT payload, resolver answers and upstream events keep the UoT slots right. -/

namespace NgxAnytls

namespace SlotsKept

variable {k : Callbacks} {ac : Connection} {h : Handle}

theorem resolveAddr_packet (hk : SlotsKept k) (h : Handle) (ac : Connection) :
    UotStep h ac (resolveAddr k h .uotPacket ac).2 := by
  unfold resolveAddr
  dsimp only
  split_ifs
  · exact .refl h ac
  · exact .refl h ac
  · exact resolveSync_uot h ac
  · exact .refl h ac
  · cases ac.lookupRes with
    | noResolver => exact resolveSync_uot h ac.lookupNext
    | startFailed | nameFailed | pending | done => exact SameSlots.uot rfl rfl
  · have hstart : UotStep h ac (startLookup h .uotPacket ac.lookupNext.allocNext) :=
      startLookup_uot .uotPacket h ac.lookupNext.allocNext
    cases ac.lookupRes with
    | startFailed => exact SameSlots.uot rfl rfl
    | noResolver => exact resolveSync_uot h ac.lookupNext
    | nameFailed => exact hstart.trans (resolverCancel_uot h _)
    | pending => exact hstart
    | done a =>
      obtain ⟨hctx, hlook, -, -⟩ := startLookup_ctx .uotPacket h ac.lookupNext.allocNext
      exact hstart.trans (hk.packet h a _ hctx hlook)

/-- The lookup of a connect-mode target; one that is known or found at once leaves the stream
with its slot. -/
theorem resolveAddr_connect (hk : SlotsKept k) (h : Handle) (ac : Connection) :
    HeldStep h ac (resolveAddr k h .uotConnect ac).2 ∧
      ((resolveAddr k h .uotConnect ac).1 = .ok →
        UotStep h ac (resolveAddr k h .uotConnect ac).2 ∧
          ((resolveAddr k h .uotConnect ac).2.streams h).target.sockaddr.isSome = true) := by
  have hsync : ∀ ac : Connection, (resolveSync h ac).1 = .ok →
      ((resolveSync h ac).2.streams h).target.sockaddr.isSome = true := by
    intro ac hok
    unfold resolveSync at hok ⊢
    split at hok
    · cases hok
    · rw [setTarget, Connection.upd_self]
      rfl
  unfold resolveAddr
  dsimp only
  split_ifs with hknown
  · exact ⟨(UotStep.refl h ac).held, fun _ => ⟨.refl h ac, hknown⟩⟩
  · exact ⟨(UotStep.refl h ac).held, (by rintro ⟨⟩)⟩
  · exact ⟨(resolveSync_uot h ac).held, fun hok => ⟨resolveSync_uot h ac, hsync ac hok⟩⟩
  · exact ⟨(UotStep.refl h ac).held, (by rintro ⟨⟩)⟩
  · have hsame : UotStep h ac ac.lookupNext.allocNext := SameSlots.uot rfl rfl
    have hnext := resolveSync_uot h ac.lookupNext
    cases ac.lookupRes with
    | noResolver => exact ⟨hnext.held, fun hok => ⟨hnext, hsync _ hok⟩⟩
    | startFailed | nameFailed | pending | done => exact ⟨hsame.held, (by rintro ⟨⟩)⟩
  · have hstart : UotStep h ac (startLookup h .uotConnect ac.lookupNext.allocNext) :=
      startLookup_uot .uotConnect h ac.lookupNext.allocNext
    have hnext := resolveSync_uot h ac.lookupNext
    have hsame : UotStep h ac ac.lookupNext := SameSlots.uot rfl rfl
    cases ac.lookupRes with
    | startFailed => exact ⟨hsame.held, (by rintro ⟨⟩)⟩
    | noResolver => exact ⟨hnext.held, fun hok => ⟨hnext, hsync _ hok⟩⟩
    | nameFailed => exact ⟨(hstart.trans (resolverCancel_uot h _)).held, (by rintro ⟨⟩)⟩
    | pending => exact ⟨hstart.held, (by rintro ⟨⟩)⟩
    | done a => exact ⟨hstart.held.step (hk.resolved h a _), (by rintro ⟨⟩)⟩

theorem resolveAddr_tcp (hk : SlotsKept k) (h : Handle) (ac : Connection) :
    SlotStep ac (resolveAddr k h .tcp ac).2 := by
  unfold resolveAddr
  dsimp only
  split_ifs
  · exact .refl ac
  · exact .refl ac
  · exact (resolveSync_slots h ac).step
  · exact .refl ac
  · cases ac.lookupRes with
    | noResolver => exact (resolveSync_slots h ac.lookupNext).step
    | startFailed | nameFailed | pending | done => exact SameSlots.step rfl
  · have hstart : SlotStep ac (startLookup h .tcp ac.lookupNext.allocNext) :=
      startLookup_tcp h ac.lookupNext.allocNext
    cases ac.lookupRes with
    | startFailed => exact SameSlots.step rfl
    | noResolver => exact (resolveSync_slots h ac.lookupNext).step
    | nameFailed => exact hstart.trans (resolverCancel_step h _)
    | pending => exact hstart
    | done a => exact hstart.trans (hk.resolved h a _)

theorem uotProcessPending (hk : SlotsKept k) (h : Handle) (ac : Connection) :
    UotStep h ac (NgxAnytls.uotProcessPending k h ac) := by
  have hloop : ∀ (fuel : Nat) (ac : Connection), UotStep h ac (uotProcessLoop k h fuel ac) := by
    intro fuel
    induction fuel with
    | zero => exact fun ac => .refl h ac
    | succ fuel ih =>
      intro ac
      unfold uotProcessLoop
      cases (ac.streams h).uotPending with
      | nil => exact .refl h ac
      | cons p ps =>
        dsimp only
        split_ifs
        · exact .refl h ac
        have hlook := (setTarget_uot { host := p.domain, port := p.port } h ac).trans
          (hk.resolveAddr_packet h _)
        cases (resolveAddr k h .uotPacket
            (setTarget h { host := p.domain, port := p.port } ac)).1 with
        | again => exact hlook
        | error => exact hlook.trans ((uotDropPendingDomain_uot _ _ h _).trans (ih _))
        | ok => exact hlook.trans ((uotFlushPendingDomain_uot _ _ h _).trans (ih _))
  exact hloop _ ac

theorem uotAnswered_uot (a : Answer) (h : Handle) (ac : Connection) :
    UotStep h ac (uotAnswered h a ac) := by
  unfold uotAnswered
  cases usableAddr a with
  | none =>
    have hclear := (endLookup_uot h ac).trans (clearResolverTarget_uot h _)
    dsimp only
    split_ifs
    · exact hclear.trans (uotDropPendingDomain_uot _ _ h _)
    · exact hclear
  | some sa =>
    have hcopy := (endLookup_uot h ac).trans (copyAddr_uot sa h _)
    exact hcopy.trans ((clearResolverTarget_uot h _).trans (uotFlushPendingDomain_uot _ _ h _))

/-- The answer to a packet's lookup leaves the stream with its slot. -/
theorem resolveHandler_uot (hk : SlotsKept k) (a : Answer)
    (hctx : (ac.streams h).resolverCtx = true)
    (hlook : (ac.streams h).resolverTarget = .uotPacket) :
    UotStep h ac (resolveHandler k h a ac) := by
  rw [resolveHandler_packet hctx hlook]
  exact (uotAnswered_uot a h ac).trans (hk.uotProcessPending h _)

theorem uotSendPayload_packet (hk : SlotsKept k) (addr : Addr) (payload : Bytes)
    (hmode : (ac.streams h).uotMode ≠ .uotV2Connect) :
    UotStep h ac (NgxAnytls.uotSendPayload k h addr payload ac).2 := by
  have henqueue := uotEnqueuePending_uot addr payload h ac
  unfold NgxAnytls.uotSendPayload
  split_ifs
  · exact uotSendResolved_uot _ payload h ac
  · unfold uotSendDomainPacket
    dsimp only
    split_ifs
    · exact henqueue
    · exact henqueue.trans (hk.uotProcessPending h _)
    · exact henqueue

theorem uotPacketLoop (hk : SlotsKept k) (h : Handle) (fuel : Nat) (p : Bytes) (ac : Connection)
    (hmode : (ac.streams h).uotMode ≠ .uotV2Connect) :
    UotStep h ac (NgxAnytls.uotPacketLoop k h fuel p ac).2 := by
  induction fuel generalizing p ac with
  | zero => exact .refl h ac
  | succ fuel ih =>
    have hsame : UotStep h ac ac.allocNext.allocNext := SameSlots.uot rfl rfl
    unfold NgxAnytls.uotPacketLoop
    dsimp only
    split_ifs
    · exact .refl h ac
    · exact SameSlots.uot rfl rfl
    cases parseUotPacket p ac.allocNext.allocOk with
    | again => exact hsame
    | error => exact hsame
    | ok v consumed =>
      have hsend : UotStep h ac.allocNext.allocNext _ := hk.uotSendPayload_packet v.1 v.2 hmode
      dsimp only
      split_ifs
      · exact hsame.trans hsend
      · intro hok hc
        obtain ⟨hok', hl, hc', hm⟩ := hsame.trans hsend hok hc
        have hrest := ih (p.drop consumed) _ (by rw [hm]; exact hmode)
        obtain ⟨hok'', hl', hc'', hm'⟩ := hrest hok' hc'
        exact ⟨hok'', hl.trans hl', hc'', hm'.trans hm⟩

/-- A send changes no target. -/
theorem uotSendResolved_target (dst : Option SockAddr) (payload : Bytes) (h : Handle)
    (ac : Connection) :
    ((uotSendResolved h dst payload ac).2.streams h).target = (ac.streams h).target := by
  have harm : ∀ ac : Connection, ((uotArmIdleTimer h ac).streams h).target =
      (ac.streams h).target := by
    intro ac
    unfold uotArmIdleTimer
    split_ifs
    · rfl
    · rw [Connection.upd_self]
  have hset : ∀ (udp : Option Family) (ac : Connection),
      ((setUdp h udp ac).streams h).target = (ac.streams h).target := by
    intro udp ac
    rw [setUdp, Connection.upd_self]
  have hsocket : ∀ (family : Family) (ac : Connection),
      ((udpSocket h family ac).2.streams h).target = (ac.streams h).target := by
    intro family ac
    unfold udpSocket
    dsimp only
    split_ifs
    · rfl
    · exact hset none ac
    · rw [harm, hset]
      exact hset none ac
  have hopen : ∀ ac : Connection, ((uotUpstreamStateOpen h ac).2.streams h).target =
      (ac.streams h).target := by
    intro ac
    unfold uotUpstreamStateOpen
    split_ifs
    · rfl
    · rfl
    · rw [markStateOpened, Connection.upd_self]
      rfl
  unfold uotSendResolved
  split_ifs
  · rfl
  cases dst with
  | none => rfl
  | some sa =>
    dsimp only
    split_ifs
    · exact hsocket sa.family ac
    · rw [hopen]
      exact hsocket sa.family ac
    · show ((uotUpstreamStateOpen h (udpSocket h sa.family ac).2).2.streams h).target = _
      rw [hopen]
      exact hsocket sa.family ac

theorem uotConnectLoop (h : Handle) (fuel : Nat) (p : Bytes) (ac : Connection)
    (htarget : (ac.streams h).target.sockaddr.isSome = true) :
    UotStep h ac (NgxAnytls.uotConnectLoop k h fuel p ac).2 := by
  induction fuel generalizing p ac with
  | zero => exact .refl h ac
  | succ fuel ih =>
    unfold NgxAnytls.uotConnectLoop
    split
    · rename_i l1 l0 q
      split_ifs
      · exact .refl h ac
      have hpay : NgxAnytls.uotSendPayload k h (ac.streams h).target (q.take (be16 l1 l0)) ac =
          uotSendResolved h (ac.streams h).target.sockaddr (q.take (be16 l1 l0)) ac := by
        rw [NgxAnytls.uotSendPayload, if_pos htarget]
      have hsend := uotSendResolved_uot (ac.streams h).target.sockaddr (q.take (be16 l1 l0)) h ac
      have hkept := uotSendResolved_target (ac.streams h).target.sockaddr (q.take (be16 l1 l0)) h ac
      rw [hpay]
      dsimp only
      split_ifs
      · exact hsend
      · exact hsend.trans (ih _ _ (by rw [hkept]; exact htarget))
    · exact .refl h ac

theorem uotResolveAddr (hk : SlotsKept k) (h : Handle) (ac : Connection) :
    HeldStep h ac (NgxAnytls.uotResolveAddr k h ac).2 ∧
      ((NgxAnytls.uotResolveAddr k h ac).1 = .ok →
        UotStep h ac (NgxAnytls.uotResolveAddr k h ac).2 ∧
          ((NgxAnytls.uotResolveAddr k h ac).2.streams h).target.sockaddr.isSome = true) := by
  unfold NgxAnytls.uotResolveAddr
  split_ifs with hknown
  · exact ⟨(UotStep.refl h ac).held, fun _ => ⟨.refl h ac, hknown⟩⟩
  · exact hk.resolveAddr_connect h ac

theorem uotConsume_slots (left : Nat) (h : Handle) (ac : Connection) :
    SameSlots ac (uotConsume h left ac) := by
  unfold uotConsume
  exact sameSlots_upd fun st => slot_recv st st.uotRecvBuf _ _ st.uotRecvSize

theorem uotDatagrams (hk : SlotsKept k) (h : Handle) (p : Bytes) (ac : Connection) :
    HeldStep h ac (NgxAnytls.uotDatagrams k h p ac).2 := by
  unfold NgxAnytls.uotDatagrams
  split_ifs with hmode
  · obtain ⟨hlook, hfound⟩ := hk.uotResolveAddr h ac
    dsimp only
    cases hrc : (NgxAnytls.uotResolveAddr k h ac).1 with
    | again => exact hlook.step (uotConsume_slots _ h _).step
    | error => exact hlook
    | ok =>
      obtain ⟨hkept, htarget⟩ := hfound hrc
      have hloop := uotConnectLoop (k := k) h p.length p _ htarget
      dsimp only
      cases hres : NgxAnytls.uotConnectLoop k h p.length p (NgxAnytls.uotResolveAddr k h ac).2 with
      | mk left ac' =>
        rw [hres] at hloop
        cases left with
        | none => exact (hkept.trans hloop).held
        | some left => exact (hkept.trans (hloop.trans (uotConsume_uot _ h _))).held
  · have hloop := hk.uotPacketLoop h p.length p ac hmode
    cases hres : NgxAnytls.uotPacketLoop k h p.length p ac with
    | mk left ac' =>
      rw [hres] at hloop
      cases left with
      | none => exact hloop.held
      | some left => exact (hloop.trans (uotConsume_uot _ h _)).held

theorem uotRequest (hk : SlotsKept k) (h : Handle) (p : Bytes) (ac : Connection) :
    HeldStep h ac (NgxAnytls.uotRequest k h p ac).2 := by
  unfold NgxAnytls.uotRequest
  cases p with
  | nil => exact (UotStep.refl h ac).held
  | cons isConnect q =>
    have hsame : SameSlots ac ac.allocNext.allocNext := rfl
    dsimp only
    split_ifs
    · exact (SlotStep.held (SameSlots.step rfl))
    cases parseSocksaddr q ac.allocNext.allocOk with
    | again => exact hsame.step.held
    | error => exact hsame.step.held
    | ok addr consumed =>
      have hset : SameSlots ac.allocNext.allocNext
          (uotSetRequest h isConnect addr ac.allocNext.allocNext) := sameSlots_upd fun _ => rfl
      have hstart := hsame.trans hset
      intro hok hc
      obtain ⟨hok', hl⟩ := hstart.step hok
      obtain ⟨hok'', hl'⟩ := hk.uotDatagrams h (q.drop consumed) _ hok'
        ((hstart.counted h).trans hc)
      exact ⟨hok'', hl.trans hl'⟩

theorem uotClientPayload (hk : SlotsKept k) (h : Handle) (data : Bytes) (ac : Connection) :
    HeldStep h ac (NgxAnytls.uotClientPayload k h data ac).2 := by
  have happend := uotBufferAppend_uot data h ac
  unfold NgxAnytls.uotClientPayload
  dsimp only
  split_ifs
  · exact happend.held
  · exact happend.held
  · exact happend.then (hk.uotRequest h _ _)
  · exact happend.then (hk.uotDatagrams h _ _)

end SlotsKept

end NgxAnytls
