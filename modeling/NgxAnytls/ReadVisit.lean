import NgxAnytls.SessionAccounts
import NgxAnytls.SessionQueues
import NgxAnytls.UpstreamSend

/-! What a visit of one stream by `ngx_anytls_upstream_mux_drain_reads` leaves alone, as long as a
close on the way parses no frame. -/

namespace NgxAnytls

/-- A call for one stream keeps the others, their places in `read_ready`, what is held back and the
backlogs. -/
structure Connection.Aside (h : Handle) (a b : Connection) : Prop where
  conf : b.conf = a.conf
  nstreams : b.nstreams = a.nstreams
  authenticated : b.authenticated = a.authenticated
  remnant : b.remnant = a.remnant
  pendingInput : b.pendingInput = a.pendingInput
  bytes : (b.streams h).pendingInBytes = (a.streams h).pendingInBytes
  others : ∀ g, g ≠ h → b.streams g = a.streams g
  queue : b.readReady.filter (· ≠ h) = a.readReady.filter (· ≠ h)

namespace Connection.Aside

variable {a b c : Connection} {h : Handle}

theorem refl (h : Handle) (a : Connection) : a.Aside h a :=
  ⟨rfl, rfl, rfl, rfl, rfl, rfl, fun _ _ => rfl, rfl⟩

theorem trans (hab : a.Aside h b) (hbc : b.Aside h c) : a.Aside h c where
  conf := hbc.conf.trans hab.conf
  nstreams := hbc.nstreams.trans hab.nstreams
  authenticated := hbc.authenticated.trans hab.authenticated
  remnant := hbc.remnant.trans hab.remnant
  pendingInput := hbc.pendingInput.trans hab.pendingInput
  bytes := hbc.bytes.trans hab.bytes
  others g hg := (hbc.others g hg).trans (hab.others g hg)
  queue := hbc.queue.trans hab.queue

/-- Changes outside of the streams and of `read_ready`. -/
theorem quiet (hstreams : b.streams = a.streams) (hqueue : b.readReady = a.readReady)
    (hconf : b.conf = a.conf) (hn : b.nstreams = a.nstreams)
    (hauth : b.authenticated = a.authenticated) (hrem : b.remnant = a.remnant)
    (hinput : b.pendingInput = a.pendingInput) : a.Aside h b where
  conf := hconf
  nstreams := hn
  authenticated := hauth
  remnant := hrem
  pendingInput := hinput
  bytes := by rw [hstreams]
  others g _ := by rw [hstreams]
  queue := by rw [hqueue]

/-- An update of the stream that keeps the count of its backlog. -/
theorem upd (a : Connection) {f : Stream → Stream}
    (hf : (f (a.streams h)).pendingInBytes = (a.streams h).pendingInBytes) :
    a.Aside h (a.upd h f) where
  conf := rfl
  nstreams := rfl
  authenticated := rfl
  remnant := rfl
  pendingInput := rfl
  bytes := by
    rw [Connection.upd_streams, if_pos rfl]
    exact hf
  others g hg := by rw [Connection.upd_streams, if_neg hg]
  queue := rfl

theorem thenUpd (hab : a.Aside h b) {f : Stream → Stream}
    (hf : (f (b.streams h)).pendingInBytes = (b.streams h).pendingInBytes) :
    a.Aside h (b.upd h f) := hab.trans (.upd b hf)

/-- Both at once. -/
theorem quietUpd {f : Stream → Stream}
    (hf : (f (b.streams h)).pendingInBytes = (b.streams h).pendingInBytes)
    (hstreams : b.streams = a.streams) (hqueue : b.readReady = a.readReady)
    (hconf : b.conf = a.conf) (hn : b.nstreams = a.nstreams)
    (hauth : b.authenticated = a.authenticated) (hrem : b.remnant = a.remnant)
    (hinput : b.pendingInput = a.pendingInput) : a.Aside h (b.upd h f) :=
  (quiet hstreams hqueue hconf hn hauth hrem hinput).thenUpd hf

theorem ite {p : Prop} [Decidable p] (hb : p → a.Aside h b) (hc : ¬p → a.Aside h c) :
    a.Aside h (if p then b else c) := by
  split_ifs with hp
  · exact hb hp
  · exact hc hp

theorem log (o : Obs) (a : Connection) : a.Aside h (a.log o) := .quiet rfl rfl rfl rfl rfl rfl rfl

theorem allocNext (a : Connection) : a.Aside h a.allocNext := .quiet rfl rfl rfl rfl rfl rfl rfl

theorem recvNext (a : Connection) : a.Aside h a.recvNext := .quiet rfl rfl rfl rfl rfl rfl rfl

theorem arm (a : Connection) : a.Aside h a.arm.2 := .quiet rfl rfl rfl rfl rfl rfl rfl

theorem filter_erase_self (q : List Handle) : (q.erase h).filter (· ≠ h) = q.filter (· ≠ h) := by
  rw [← List.erase_filter, List.erase_of_not_mem (by simp)]

/-- The stream leaves `read_ready`. -/
theorem leaveReads (a : Connection) {f : Stream → Stream}
    (hf : (f (a.streams h)).pendingInBytes = (a.streams h).pendingInBytes) :
    a.Aside h ({ a with readReady := a.readReady.erase h }.upd h f) := by
  have hleft : a.Aside h { a with readReady := a.readReady.erase h } :=
    ⟨rfl, rfl, rfl, rfl, rfl, rfl, fun _ _ => rfl, filter_erase_self _⟩
  exact hleft.thenUpd hf

theorem takeReadReady (a : Connection) : a.Aside h (NgxAnytls.takeReadReady h a) :=
  .leaveReads a rfl

theorem requeueReadReady (a : Connection) : a.Aside h (NgxAnytls.requeueReadReady h a) := by
  refine .ite (fun _ => ?_) fun _ => .refl h a
  have hback : a.Aside h { a with readReady := a.readReady ++ [h] } := by
    refine ⟨rfl, rfl, rfl, rfl, rfl, rfl, fun _ _ => rfl, ?_⟩
    simp
  exact hback.thenUpd rfl

theorem blockRead (a : Connection) : a.Aside h (NgxAnytls.blockRead h a).2 := by
  have hmark : a.Aside h (markReadBlocked h a) :=
    .quietUpd rfl rfl rfl rfl rfl rfl rfl rfl
  unfold NgxAnytls.blockRead
  split_ifs
  · exact .refl h a
  · exact hmark.trans (.arm _)

theorem requeueRead (a : Connection) : a.Aside h (NgxAnytls.requeueRead a).2 := by
  unfold NgxAnytls.requeueRead
  dsimp only
  split_ifs
  · exact .arm a
  · exact (Aside.arm a).trans (.arm _)

theorem uotArmIdleTimer (a : Connection) : a.Aside h (NgxAnytls.uotArmIdleTimer h a) :=
  .ite (fun _ => .refl h a) fun _ => .upd a rfl

theorem markReady (a : Connection) : a.Aside h (NgxAnytls.markReady h a) := by
  refine .ite (fun _ => .refl h a) fun _ => ?_
  exact .quietUpd rfl rfl rfl rfl rfl rfl rfl rfl

theorem linkFrame (f : OutFrame) (a : Connection) :
    a.Aside h (NgxAnytls.linkFrame (some h) f a) := by
  have hown : a.Aside h (NgxAnytls.markReady h (appendOut h f a)) :=
    (Aside.upd a rfl).trans (.markReady _)
  unfold NgxAnytls.linkFrame
  dsimp only
  split_ifs
  · exact .quiet rfl rfl rfl rfl rfl rfl rfl
  · exact .quietUpd rfl rfl rfl rfl rfl rfl rfl rfl
  · exact hown.thenUpd rfl

theorem postWrite (a : Connection) : a.Aside h (NgxAnytls.postWrite a) := by
  unfold NgxAnytls.postWrite armWriteTimer
  split_ifs
  · exact .refl h a
  · exact .quiet rfl rfl rfl rfl rfl rfl rfl
  · exact .quiet rfl rfl rfl rfl rfl rfl rfl

theorem queuePreparedFrame (f : OutFrame) (a : Connection) :
    a.Aside h (NgxAnytls.queuePreparedFrame (some h) f a).2 := by
  have hcount : a.Aside h (countStreamFrame (some h) (f.prepare (some h)) a) :=
    .ite (fun _ => .upd a rfl) fun _ => .refl h a
  have hlink := hcount.trans (.linkFrame (f.prepare (some h)) _)
  unfold NgxAnytls.queuePreparedFrame
  split_ifs
  · exact .refl h a
  · exact .refl h a
  · refine (hlink.trans ?_).trans (.postWrite _)
    exact .quiet rfl rfl rfl rfl rfl rfl rfl

theorem queueFrame (cmd : Cmd) (id : UInt32) (data : Bytes) (a : Connection) :
    a.Aside h (NgxAnytls.queueFrame (some h) cmd id data a).2 := by
  unfold NgxAnytls.queueFrame queueDataFrame
  dsimp only
  split_ifs
  · exact .refl h a
  · exact .refl h a
  · exact .allocNext a
  · exact (Aside.allocNext a).trans (.allocNext _)
  · exact ((Aside.allocNext a).trans (.allocNext _)).trans (.queuePreparedFrame _ _)
  · exact (Aside.allocNext a).trans (.queuePreparedFrame _ _)

theorem queueChainFrame (cmd : Cmd) (id : UInt32) (buf : ReadBuf) (len : Nat) (checked : Bool)
    (a : Connection) :
    a.Aside h (NgxAnytls.queueChainFrame (some h) cmd id buf len checked a).2 := by
  unfold NgxAnytls.queueChainFrame
  dsimp only
  split_ifs
  · exact .refl h a
  · exact .refl h a
  · exact .allocNext a
  · exact (Aside.allocNext a).trans (.queuePreparedFrame _ _)
  · exact (Aside.allocNext a).trans (.queuePreparedFrame _ _)

theorem removeReady (a : Connection) : a.Aside h (NgxAnytls.removeReady h a) :=
  .ite (fun _ => .quietUpd rfl rfl rfl rfl rfl rfl rfl rfl) fun _ => .refl h a

theorem unblockRead (a : Connection) : a.Aside h (NgxAnytls.unblockRead h a) :=
  .ite (fun _ => .quietUpd rfl rfl rfl rfl rfl rfl rfl rfl) fun _ => .refl h a

theorem cancelConnect (a : Connection) : a.Aside h (NgxAnytls.cancelConnect h a) :=
  .ite (fun _ => .quietUpd rfl rfl rfl rfl rfl rfl rfl rfl) fun _ => .refl h a

theorem muxStreamClosing (a : Connection) : a.Aside h (NgxAnytls.muxStreamClosing h a) := by
  have hread : a.Aside h (unlinkReadReady h a) :=
    .ite (fun _ => .leaveReads a rfl) fun _ => .refl h a
  have hwrite : (unlinkReadReady h a).Aside h (unlinkWriteReady h (unlinkReadReady h a)) :=
    .ite (fun _ => .quietUpd rfl rfl rfl rfl rfl rfl rfl rfl) fun _ => .refl h _
  exact ((hread.trans hwrite).trans (.unblockRead _)).trans (.cancelConnect _)

theorem markClosedByProtocol (a : Connection) : a.Aside h (NgxAnytls.markClosedByProtocol h a) :=
  .ite (fun _ => .refl h a) fun _ => .upd a rfl

theorem uotCloseIfCounted (a : Connection) : a.Aside h (NgxAnytls.uotCloseIfCounted h a) := by
  refine .ite (fun _ => ?_) fun _ => .refl h a
  have hslot : a.Aside h (releaseUotSlot h a) :=
    .ite (fun _ => .quietUpd rfl rfl rfl rfl rfl rfl rfl rfl) fun _ => .refl h a
  have hresolver : a.Aside h (resolverCancel h (releaseUotSlot h a)) := hslot.trans (.upd _ rfl)
  have hpending : a.Aside h (clearUotPending h (resolverCancel h (releaseUotSlot h a))) :=
    hresolver.trans (.upd _ rfl)
  have hudp : (clearUotPending h (resolverCancel h (releaseUotSlot h a))).Aside h
      (closeUdp h (clearUotPending h (resolverCancel h (releaseUotSlot h a)))) := .upd _ rfl
  exact hpending.trans hudp

theorem noteClamped (clamped : Bool) (a : Connection) :
    a.Aside h (NgxAnytls.noteClamped clamped a) :=
  .ite (fun _ => .log .clamped a) fun _ => .refl h a

theorem dropOut (a : Connection) : a.Aside h (NgxAnytls.dropOut h a) := by
  have hnote : a.Aside h (NgxAnytls.noteClamped (dropClamps h a) a) := .noteClamped _ a
  unfold NgxAnytls.dropOut
  dsimp only
  exact hnote.trans (.quietUpd rfl rfl rfl rfl rfl rfl rfl rfl)

theorem htRemove (a : Connection) : a.Aside h (NgxAnytls.htRemove h a) := by
  unfold NgxAnytls.htRemove
  split
  · exact .refl h a
  · exact .quiet rfl rfl rfl rfl rfl rfl rfl

theorem forgetStream (wasClosing : Bool) (a : Connection) :
    a.Aside h (NgxAnytls.forgetStream wasClosing h a) := by
  have hleave : a.Aside h (if wasClosing then unlinkClosing h a else a) :=
    .ite (fun _ => .quiet rfl rfl rfl rfl rfl rfl rfl) fun _ => .refl h a
  have hlist : a.Aside h (unlinkStream h (if wasClosing then unlinkClosing h a else a)) :=
    hleave.trans (.quiet rfl rfl rfl rfl rfl rfl rfl)
  exact hlist.trans (.htRemove _)

end Connection.Aside

/-- A close of the stream lets no frame in: none is held back, or `w` bytes of backlog that are not
the stream's keep the client's input shut. -/
def Connection.KeepsShut (w : Nat) (h : Handle) (ac : Connection) : Prop :=
  HoldsNoFrame ac ∨
    (ac.conf.maxPendingInput / 2 < w ∧ w + (ac.streams h).pendingInBytes ≤ ac.pendingInput)

/-- What a visit leaves alone. -/
structure Connection.Visited (w : Nat) (h : Handle) (a b : Connection) : Prop where
  shut : b.KeepsShut w h
  conf : b.conf = a.conf
  nstreams : b.nstreams = a.nstreams
  others : ∀ g, g ≠ h → b.streams g = a.streams g
  queue : b.readReady.filter (· ≠ h) = a.readReady.filter (· ≠ h)

namespace Connection

variable {a b c : Connection} {w : Nat} {h : Handle}

theorem KeepsShut.aside (hs : a.KeepsShut w h) (hab : a.Aside h b) : b.KeepsShut w h := by
  unfold KeepsShut HoldsNoFrame at hs ⊢
  rw [hab.remnant, hab.authenticated, hab.conf, hab.bytes, hab.pendingInput]
  exact hs

theorem Aside.visited (hab : a.Aside h b) (hs : a.KeepsShut w h) : a.Visited w h b :=
  ⟨hs.aside hab, hab.conf, hab.nstreams, hab.others, hab.queue⟩

end Connection

/-- A call keeps what a visit has to leave alone. -/
def Connection.Visits (w : Nat) (h : Handle) (a b : Connection) : Prop :=
  a.KeepsShut w h → a.Visited w h b

namespace Connection.Visits

variable {a b c : Connection} {w : Nat} {h : Handle} {conf : Conf}

theorem of (hab : a.Aside h b) : a.Visits w h b := hab.visited

theorem refl (a : Connection) : a.Visits w h a := .of (.refl h a)

theorem trans (hab : a.Visits w h b) (hbc : b.Visits w h c) : a.Visits w h c := fun hs =>
  have hb := hab hs
  have hc := hbc hb.shut
  ⟨hc.shut, hc.conf.trans hb.conf, hc.nstreams.trans hb.nstreams,
    fun g hg => (hc.others g hg).trans (hb.others g hg), hc.queue.trans hb.queue⟩

theorem aside (hab : a.Visits w h b) (hbc : b.Aside h c) : a.Visits w h c := hab.trans (.of hbc)

/-- The client's reads are enabled again, with nothing else changed. -/
theorem enableClientRead (a : Connection) : a.Aside h (NgxAnytls.enableClientRead a).2 := by
  unfold NgxAnytls.enableClientRead
  dsimp only
  split_ifs
  · exact .quiet rfl rfl rfl rfl rfl rfl rfl
  · exact .quiet rfl rfl rfl rfl rfl rfl rfl
  · exact .quiet rfl rfl rfl rfl rfl rfl rfl

/-- A resume that finds no whole frame puts what it found back. -/
theorem resume_noFrame (conf : Conf) (a : Connection) (hheld : HoldsNoFrame a) :
    a.Aside h (inputResume (processClientBytes (innerCallbacks conf)) a).2 := by
  have hkept : a.remnant ≠ [] → a.Aside h (processClientBytes (innerCallbacks conf) a.remnant
      (setRemnant [] (setInputPaused false a))).2 := by
    intro hne
    obtain ⟨hauth, hagain⟩ := hheld.resolve_left hne
    rw [processClientBytes, if_pos (show (setRemnant [] (setInputPaused false a)).authenticated from
      hauth), if_neg hne, processFrames, hagain]
    exact .quiet rfl rfl rfl rfl rfl rfl rfl
  unfold inputResume
  split_ifs with hclosing hbytes hblocked
  · exact .refl h a
  · exact .refl h a
  · exact .refl h a
  · dsimp only
    by_cases hrem : (setInputPaused false a).remnant ≠ []
    · rw [if_pos hrem]
      have hparsed := hkept hrem
      split_ifs
      · exact hparsed
      · exact hparsed
      · exact hparsed.trans (enableClientRead _)
    · rw [if_neg hrem]
      have hunpaused : a.Aside h (setInputPaused false a) := .quiet rfl rfl rfl rfl rfl rfl rfl
      exact hunpaused.trans (enableClientRead _)

/-- A resume while too much is pending does nothing. -/
theorem resume_full (process : Bytes → Connection → Rc × Connection) (a : Connection)
    (hfull : a.conf.maxPendingInput / 2 < a.pendingInput) : (inputResume process a).2 = a := by
  unfold inputResume
  split_ifs
  · rfl
  · rfl

/-- The backlog of the stream is given up. -/
theorem dropBacklog (a : Connection) : a.Visits w h (unblockInput h (dropPending h a)) := by
  intro hs
  have hstreams : ∀ g, g ≠ h → (unblockInput h (dropPending h a)).streams g = a.streams g := by
    intro g hg
    unfold unblockInput dropPending
    split_ifs <;> simp [hg]
  have hbytes : ((unblockInput h (dropPending h a)).streams h).pendingInBytes = 0 := by
    unfold unblockInput dropPending
    split_ifs <;> simp
  have hinput : (unblockInput h (dropPending h a)).pendingInput =
      a.pendingInput - (a.streams h).pendingInBytes := by
    unfold unblockInput
    split_ifs <;> rfl
  have hrem : (unblockInput h (dropPending h a)).remnant = a.remnant := by
    unfold unblockInput
    split_ifs <;> rfl
  have hauth : (unblockInput h (dropPending h a)).authenticated = a.authenticated := by
    unfold unblockInput
    split_ifs <;> rfl
  have hconf : (unblockInput h (dropPending h a)).conf = a.conf := by
    unfold unblockInput
    split_ifs <;> rfl
  have hn : (unblockInput h (dropPending h a)).nstreams = a.nstreams := by
    unfold unblockInput
    split_ifs <;> rfl
  have hqueue : (unblockInput h (dropPending h a)).readReady = a.readReady := by
    unfold unblockInput
    split_ifs <;> rfl
  refine ⟨?_, hconf, hn, hstreams, by rw [hqueue]⟩
  unfold KeepsShut HoldsNoFrame at hs ⊢
  rw [hrem, hauth, hconf, hbytes, hinput]
  refine hs.imp_right fun ⟨hlimit, hroom⟩ => ⟨hlimit, ?_⟩
  omega

theorem discardPending (a : Connection) :
    a.Visits w h (NgxAnytls.discardPending (outerCallbacks conf) h a) := by
  refine (dropBacklog a).trans fun hs => ?_
  rcases hs with hheld | ⟨hlimit, hroom⟩
  · exact (resume_noFrame conf _ hheld).visited (.inl hheld)
  · have hsame := resume_full (processClientBytes (innerCallbacks conf))
      (unblockInput h (dropPending h a)) (hlimit.trans_le (Nat.le_of_add_right_le hroom))
    show (unblockInput h (dropPending h a)).Visited w h
      (inputResume (processClientBytes (innerCallbacks conf)) (unblockInput h (dropPending h a))).2
    rw [hsame]
    exact refl _ (.inr ⟨hlimit, hroom⟩)

theorem delayClose (a : Connection) :
    a.Visits w h (NgxAnytls.delayClose (outerCallbacks conf) h a) := by
  have hlist : (logState h .closing a).Aside h (enterClosing h a) := by
    refine Aside.trans ?_ (.log (.streamClosing h) _)
    exact .quietUpd rfl rfl rfl rfl rfl rfl rfl rfl
  have henter : a.Aside h (enterClosing h a) := (Aside.log _ a).trans hlist
  have hcancel : a.Aside h (resolverCancel h (enterClosing h a)) := henter.trans (.upd _ rfl)
  have hdrop : a.Aside h (dropUpstream h (resolverCancel h (enterClosing h a))) :=
    hcancel.trans (.upd _ rfl)
  have hdiscard : a.Visits w h (NgxAnytls.discardPending (outerCallbacks conf) h
      (NgxAnytls.uotCloseIfCounted h (dropUpstream h (resolverCancel h (enterClosing h a))))) :=
    (Visits.of (hdrop.trans (.uotCloseIfCounted _))).trans (discardPending _)
  exact (hdiscard.aside (.unblockRead _)).aside (.cancelConnect _)

theorem fullClose (a : Connection) :
    a.Visits w h (NgxAnytls.fullClose (outerCallbacks conf) h a) := by
  have hstate : (logState h .closed a).Aside h (enterClosed h a) :=
    Aside.trans (.upd _ rfl) (.log (.streamClosed h) _)
  have henter : a.Aside h (enterClosed h a) := (Aside.log _ a).trans hstate
  have hready := henter.trans (.removeReady _)
  have hcancel : a.Aside h (resolverCancel h (NgxAnytls.removeReady h (enterClosed h a))) :=
    hready.trans (.upd _ rfl)
  have hout := hcancel.trans (.dropOut _)
  have hdrop : a.Aside h (dropUpstream h (NgxAnytls.dropOut h
      (resolverCancel h (NgxAnytls.removeReady h (enterClosed h a))))) := hout.trans (.upd _ rfl)
  have hslot := hdrop.trans (.uotCloseIfCounted _)
  have hpending : a.Aside h (clearUotPending h (NgxAnytls.uotCloseIfCounted h (dropUpstream h
      (NgxAnytls.dropOut h (resolverCancel h (NgxAnytls.removeReady h (enterClosed h a))))))) :=
    hslot.trans (.upd _ rfl)
  have hdiscard := (Visits.of hpending).trans (@discardPending w h conf _)
  exact (hdiscard.aside (.cancelConnect _)).aside (.forgetStream _ _)

theorem streamClose (a : Connection) :
    a.Visits w h (NgxAnytls.streamClose (outerCallbacks conf) h a) := by
  have hmark : a.Aside h (NgxAnytls.muxStreamClosing h (NgxAnytls.markClosedByProtocol h a)) :=
    (Aside.markClosedByProtocol a).trans (.muxStreamClosing _)
  unfold NgxAnytls.streamClose
  dsimp only
  split_ifs
  · exact refl a
  · exact (Visits.of hmark).trans (delayClose _)
  · exact (Visits.of hmark).trans (fullClose _)

theorem closeFailed (cause : CloseCause) (a : Connection) :
    a.Visits w h (NgxAnytls.closeFailed (outerCallbacks conf) cause h a) :=
  (Visits.of (.log _ a)).trans (streamClose _)

theorem sendFinAndClose (a : Connection) :
    a.Visits w h (NgxAnytls.sendFinAndClose (outerCallbacks conf) h a).2 := by
  have hmark : a.Aside h (closeOutput h (NgxAnytls.markClosedByProtocol h a)) :=
    (Aside.markClosedByProtocol a).trans (.upd _ rfl)
  unfold NgxAnytls.sendFinAndClose
  dsimp only
  split_ifs
  · exact .of (hmark.trans (.queueFrame _ _ _ _))
  · exact (Visits.of (hmark.trans (.queueFrame _ _ _ _))).trans (streamClose _)
  · exact (Visits.of hmark).trans (streamClose _)

theorem blockReadOrClose (a : Connection) :
    a.Visits w h (NgxAnytls.blockReadOrClose (outerCallbacks conf) h a) := by
  unfold NgxAnytls.blockReadOrClose
  dsimp only
  split_ifs
  · exact (Visits.of (.blockRead a)).trans (closeFailed _ _)
  · exact .of (.blockRead a)

theorem queueRead (buf : ReadBuf) (len : Nat) (a : Connection) :
    a.Visits w h (NgxAnytls.queueRead (outerCallbacks conf) h buf len a).2 := by
  have hqueue : a.Visits w h
      (NgxAnytls.queueChainFrame (some h) .psh (a.streams h).id buf len true a).2 :=
    .of (.queueChainFrame _ _ _ _ _ a)
  unfold NgxAnytls.queueRead
  dsimp only
  split
  · exact hqueue.trans (blockReadOrClose _)
  · exact hqueue.trans (closeFailed _ _)
  · exact hqueue

theorem readConnectedUot (size : Nat) (a : Connection) :
    a.Visits w h (NgxAnytls.readConnectedUot (outerCallbacks conf) h size a).2 := by
  have hnext : a.Aside h a.recvNext := .recvNext a
  unfold NgxAnytls.readConnectedUot
  split_ifs
  · exact closeFailed _ _
  cases a.recvRes with
  | again => exact .of hnext
  | error => exact (Visits.of hnext).trans (closeFailed _ _)
  | data bs =>
    have hlog : a.Visits w h (a.recvNext.log (.udpRecv h (bs.take (size - 2)))) :=
      .of (hnext.trans (.log _ _))
    dsimp only
    split_ifs
    · exact hlog.trans (queueRead _ _ _)
    · exact hlog.trans (queueRead _ _ _)

theorem readTcp (size : Nat) (a : Connection) :
    a.Visits w h (NgxAnytls.readTcp (outerCallbacks conf) h size a).2 := by
  have hnext : a.Aside h a.recvNext := .recvNext a
  unfold NgxAnytls.readTcp
  cases a.recvRes with
  | again => exact .of hnext
  | error => exact (Visits.of hnext).trans (closeFailed _ _)
  | data bs =>
    have hdrop : a.Aside h (dropUpstream h a.recvNext) := hnext.trans (.upd _ rfl)
    dsimp only
    split_ifs
    · exact (Visits.of hdrop).trans (sendFinAndClose _)
    · exact (Visits.of hnext).trans (queueRead _ _ _)

theorem readOnce (size : Nat) (a : Connection) :
    a.Visits w h (NgxAnytls.readOnce (outerCallbacks conf) h size a).2 := by
  have halloc : a.Visits w h a.allocNext := .of (.allocNext a)
  unfold NgxAnytls.readOnce
  split_ifs
  · exact blockReadOrClose a
  · exact halloc.trans (closeFailed _ _)
  · exact halloc.trans (readConnectedUot _ _)
  · exact halloc.trans (readTcp _ _)

theorem readLoop (size left : Nat) (a : Connection) :
    a.Visits w h (NgxAnytls.readLoop (outerCallbacks conf) h size left a).2.2 := by
  induction left generalizing a with
  | zero =>
    have hback : a.Visits w h (NgxAnytls.requeueRead (NgxAnytls.requeueReadReady h a)).2 :=
      .of ((Aside.requeueReadReady a).trans (.requeueRead _))
    unfold NgxAnytls.readLoop
    dsimp only
    split_ifs
    · exact hback.trans (closeFailed _ _)
    · exact hback
  | succ left ih =>
    have honce : a.Visits w h (NgxAnytls.readOnce (outerCallbacks conf) h size a).2 :=
      readOnce size a
    unfold NgxAnytls.readLoop
    generalize NgxAnytls.readOnce (outerCallbacks conf) h size a = r at honce ⊢
    obtain ⟨_ | stop, a'⟩ := r
    · exact honce.trans (ih a')
    · exact honce

/-- A visit leaves the other streams and their places in `read_ready` alone. -/
theorem readStream (left : Nat) (a : Connection) :
    a.Visits w h (NgxAnytls.readStream (outerCallbacks conf) h left a).2 := by
  have hread :
      a.Visits w h (NgxAnytls.readLoop (outerCallbacks conf) h (readSize h a) left a).2.2 :=
    readLoop _ left a
  unfold NgxAnytls.readStream
  generalize NgxAnytls.readLoop (outerCallbacks conf) h (readSize h a) left a = r at hread ⊢
  obtain ⟨left', _ | _, a'⟩ := r
  · exact hread.aside (.arm a')
  · exact hread

end Connection.Visits

end NgxAnytls
