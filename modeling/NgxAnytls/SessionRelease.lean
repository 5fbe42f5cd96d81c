import NgxAnytls.StreamTable
import NgxAnytls.UotSlotRun

/-! The end of a session gives back what its streams hold. -/

namespace NgxAnytls

/-- The stream is closed and holds nothing any more. -/
structure Stream.Released (st : Stream) : Prop where
  state : st.state = .closed
  upstream : st.upstream = none
  lookup : st.resolverCtx = false ∧ st.resolverPending = false
  input : st.pendingIn = [] ∧ st.pendingInBytes = 0 ∧ st.inputBlocked = false
  output : st.out = [] ∧ st.pendingOut = 0
  packets : st.uotPending = []
  slot : st.uotCounted = false
  queues : st.queued = false ∧ st.upstreamReadReady = false ∧ st.upstreamWriteReady = false ∧
    st.upstreamReadBlocked = false ∧ st.connectPending = false ∧ st.closing = false

/-- The effect of a step on the streams is that of `f` on one of them. -/
structure Turns (h : Handle) (f : Stream → Stream) (ac ac' : Connection) : Prop where
  streams : ac'.streams = Function.update ac.streams h (f (ac.streams h))
  closing : ac'.closing = ac.closing
  nstreams : ac'.nstreams = ac.nstreams

namespace Turns

variable {h : Handle} {f g : Stream → Stream} {a b c : Connection}

theorem trans (hab : Turns h f a b) (hbc : Turns h g b c) : Turns h (fun st => g (f st)) a c where
  streams := by rw [hbc.streams, hab.streams, Function.update_self, Function.update_idem]
  closing := hbc.closing.trans hab.closing
  nstreams := hbc.nstreams.trans hab.nstreams

theorem stream (ht : Turns h f a b) : b.streams h = f (a.streams h) := by
  rw [ht.streams, Function.update_self]

theorem beside (ht : Turns h f a b) {i : Handle} (hi : i ≠ h) : b.streams i = a.streams i := by
  rw [ht.streams, Function.update_of_ne hi]

/-- A step that does nothing where `f` does nothing. -/
theorem same (hf : f (a.streams h) = a.streams h) : Turns h f a a where
  streams := by rw [hf, Function.update_eq_self]
  closing := rfl
  nstreams := rfl

/-- A step taken only where `f` does something. -/
theorem ite {p : Prop} [Decidable p] (hb : Turns h f a b)
    (hf : ¬p → f (a.streams h) = a.streams h) : Turns h f a (if p then b else a) := by
  split_ifs with hp
  · exact hb
  · exact same (hf hp)

variable (h) (ac : Connection)

theorem cancelConnect :
    Turns h (fun st => { st with connectPending := false }) ac (NgxAnytls.cancelConnect h ac) :=
  ite ⟨rfl, rfl, rfl⟩ fun hp => by simp [← Bool.eq_false_iff.mpr hp]

theorem unblockRead : Turns h (fun st => { st with upstreamReadBlocked := false }) ac
    (NgxAnytls.unblockRead h ac) :=
  ite ⟨rfl, rfl, rfl⟩ fun hp => by simp [← Bool.eq_false_iff.mpr hp]

theorem unlinkWriteReady : Turns h (fun st => { st with upstreamWriteReady := false }) ac
    (NgxAnytls.unlinkWriteReady h ac) :=
  ite ⟨rfl, rfl, rfl⟩ fun hp => by simp [← Bool.eq_false_iff.mpr hp]

theorem unlinkReadReady : Turns h (fun st => { st with upstreamReadReady := false }) ac
    (NgxAnytls.unlinkReadReady h ac) :=
  ite ⟨rfl, rfl, rfl⟩ fun hp => by simp [← Bool.eq_false_iff.mpr hp]

theorem removeReady :
    Turns h (fun st => { st with queued := false }) ac (NgxAnytls.removeReady h ac) :=
  ite ⟨rfl, rfl, rfl⟩ fun hp => by simp [← Bool.eq_false_iff.mpr hp]

theorem unblockInput :
    Turns h (fun st => { st with inputBlocked := false }) ac (NgxAnytls.unblockInput h ac) :=
  ite ⟨rfl, rfl, rfl⟩ fun hp => by simp [← Bool.eq_false_iff.mpr hp]

theorem releaseUotSlot :
    Turns h (fun st => { st with uotCounted := false }) ac (NgxAnytls.releaseUotSlot h ac) :=
  ite ⟨rfl, rfl, rfl⟩ fun hp => by simp [← Bool.eq_false_iff.mpr hp]

theorem resolverCancel : Turns h (fun st => { st with
    resolverCtx := false, resolverPending := false, resolverTarget := .none
    resolverDomain := [], resolverPort := 0 }) ac (NgxAnytls.resolverCancel h ac) := ⟨rfl, rfl, rfl⟩

theorem clearUotPending :
    Turns h (fun st => { st with uotPending := [], uotPendingCount := 0, uotPendingBytes := 0 }) ac
      (NgxAnytls.clearUotPending h ac) := ⟨rfl, rfl, rfl⟩

theorem closeUdp :
    Turns h (fun st => { st with uotTimer := false, udp := none }) ac (NgxAnytls.closeUdp h ac) :=
  ⟨rfl, rfl, rfl⟩

/-- A stream without a slot has nothing to close. -/
theorem uotCloseIfCounted : Turns h (fun st => if st.uotCounted then { st with
    uotCounted := false, resolverCtx := false, resolverPending := false, resolverTarget := .none
    resolverDomain := [], resolverPort := 0, uotPending := [], uotPendingCount := 0
    uotPendingBytes := 0, uotTimer := false, udp := none } else st) ac
    (NgxAnytls.uotCloseIfCounted h ac) := by
  unfold NgxAnytls.uotCloseIfCounted
  split_ifs with hc
  · have hclose := (((releaseUotSlot h ac).trans (resolverCancel h _)).trans
      (clearUotPending h _)).trans (closeUdp h _)
    refine ⟨?_, hclose.closing, hclose.nstreams⟩
    rw [if_pos hc]
    exact hclose.streams
  · exact same (if_neg hc)

theorem dropOut : Turns h (fun st => { st with
    out := [], pendingOut := 0, queuedFrames := st.queuedFrames - st.out.length }) ac
    (NgxAnytls.dropOut h ac) := by
  have hnote : ∀ b, (noteClamped b ac).streams = ac.streams ∧
      (noteClamped b ac).closing = ac.closing ∧ (noteClamped b ac).nstreams = ac.nstreams := by
    intro b
    cases b <;> exact ⟨rfl, rfl, rfl⟩
  obtain ⟨hstreams, hclosing, hn⟩ := hnote (dropClamps h ac)
  refine ⟨?_, hclosing, hn⟩
  rw [← hstreams]
  rfl

theorem forgetStream (wasClosing : Bool) :
    Turns h id ac (NgxAnytls.forgetStream wasClosing h ac) := by
  have hunlink : ∀ ac : Connection, Turns h id ac (unlinkStream h ac) := fun ac =>
    ⟨(Function.update_eq_self h ac.streams).symm, rfl, rfl⟩
  have hclosing : Turns h id ac (if wasClosing then unlinkClosing h ac else ac) :=
    ite ⟨(Function.update_eq_self h ac.streams).symm, rfl, rfl⟩ fun _ => rfl
  have hremove : ∀ ac : Connection, Turns h id ac (htRemove h ac) := by
    intro ac
    unfold htRemove
    cases htRemoveLoop ac h ac.ht.length (htIndex ac (ac.streams h).id) with
    | none => exact same rfl
    | some idx => exact ⟨(Function.update_eq_self h ac.streams).symm, rfl, rfl⟩
  exact (hclosing.trans (hunlink _)).trans (hremove _)

end Turns

/-- A session that is closing resumes no input. -/
def Callbacks.Quiet (k : Callbacks) : Prop :=
  ∀ ac : Connection, ac.closing → k.resume ac = (.ok, ac)

private theorem outerCallbacks_quiet (conf : Conf) : (outerCallbacks conf).Quiet :=
  fun _ hc => if_pos hc

/-- Callbacks that never resume input. -/
def quietCallbacks : Callbacks where
  resume ac := (.ok, ac)
  resolved _ _ ac := ac

section Close

variable {k : Callbacks} {ac : Connection} {h : Handle}

private theorem markClosedByProtocol_turns (h : Handle) (ac : Connection) :
    ∃ f, Turns h f ac (markClosedByProtocol h ac) ∧ ∀ st, (f st).state = st.state := by
  unfold markClosedByProtocol
  split_ifs
  · exact ⟨id, .same rfl, fun _ => rfl⟩
  · exact ⟨fun st => { st with closedByProtocol := true, inClosed := true }, ⟨rfl, rfl, rfl⟩,
      fun _ => rfl⟩

private theorem muxStreamClosing_turns (h : Handle) (ac : Connection) : Turns h (fun st => { st with
    upstreamReadReady := false, upstreamWriteReady := false, upstreamReadBlocked := false
    connectPending := false }) ac (muxStreamClosing h ac) :=
  (((Turns.unlinkReadReady h ac).trans (.unlinkWriteReady h _)).trans (.unblockRead h _)).trans
    (.cancelConnect h _)

/-- What a full close does before it throws the backlog away. -/
def releaseStream (h : Handle) (ac : Connection) : Connection :=
  clearUotPending h <| uotCloseIfCounted h <| dropUpstream h <| dropOut h <|
    resolverCancel h <| removeReady h <| enterClosed h ac

private theorem releaseStream_turns (h : Handle) (ac : Connection) :
    ∃ f, Turns h f ac (releaseStream h ac) ∧ ∀ st, (f st).state = .closed ∧
      (f st).upstream = none ∧ (f st).resolverCtx = false ∧ (f st).resolverPending = false ∧
      (f st).out = [] ∧ (f st).pendingOut = 0 ∧ (f st).uotPending = [] ∧
      (f st).uotCounted = false ∧ (f st).queued = false ∧ (f st).closing = false ∧
      (f st).upstreamReadReady = st.upstreamReadReady ∧
      (f st).upstreamWriteReady = st.upstreamWriteReady ∧
      (f st).upstreamReadBlocked = st.upstreamReadBlocked := by
  have hclosed : Turns h (fun st => { st with
      state := .closed, delayedClose := false, closing := false }) ac (enterClosed h ac) :=
    ⟨rfl, rfl, rfl⟩
  have hdrop : ∀ ac : Connection,
      Turns h (fun st => { st with upstream := none }) ac (dropUpstream h ac) :=
        fun _ => ⟨rfl, rfl, rfl⟩
  have hall := (((((hclosed.trans (.removeReady h _)).trans (.resolverCancel h _)).trans
    (.dropOut h _)).trans (hdrop _)).trans (.uotCloseIfCounted h _)).trans (.clearUotPending h _)
  refine ⟨_, hall, fun st => ?_⟩
  by_cases hc : st.uotCounted
  · simp [hc]
  · simp [hc]

/-- A close of a session that is closing is the same without input. -/
theorem fullClose_quiet (hk : k.Quiet) (hc : ac.closing) :
    fullClose k h ac = fullClose quietCallbacks h ac := by
  obtain ⟨f, hrelease, -⟩ := releaseStream_turns h ac
  have hpending : ∀ ac : Connection, (dropPending h ac).closing = ac.closing := fun _ => rfl
  have hclosing : (unblockInput h (dropPending h (releaseStream h ac))).closing = true := by
    rw [(Turns.unblockInput h _).closing, hpending, hrelease.closing, hc]
  have hdiscard : discardPending k h (releaseStream h ac) =
      discardPending quietCallbacks h (releaseStream h ac) := by
    unfold discardPending
    rw [hk _ hclosing]
    rfl
  show forgetStream _ h (cancelConnect h (discardPending k h (releaseStream h ac))) = _
  rw [hdiscard]
  rfl

private theorem fullClose_turns (h : Handle) (ac : Connection) :
    ∃ f, Turns h f ac (fullClose quietCallbacks h ac) ∧ ∀ st, st.upstreamReadReady = false →
      st.upstreamWriteReady = false → st.upstreamReadBlocked = false → (f st).Released := by
  obtain ⟨f, hrelease, hf⟩ := releaseStream_turns h ac
  have hpending : ∀ ac : Connection, Turns h (fun st => { st with
      pendingIn := [], pendingInBytes := 0 }) ac (dropPending h ac) := fun _ => ⟨rfl, rfl, rfl⟩
  refine ⟨_, (((hrelease.trans (hpending _)).trans (.unblockInput h _)).trans
    (.cancelConnect h _)).trans (.forgetStream h _ (ac.streams h).closing), ?_⟩
  intro st hread hwrite hblocked
  obtain ⟨hstate, hup, hctx, hlook, hout, hbytes, hpackets, hslot, hqueued, hclosing, hread',
    hwrite', hblocked'⟩ := hf st
  exact ⟨hstate, hup, ⟨hctx, hlook⟩, ⟨rfl, rfl, rfl⟩, ⟨hout, hbytes⟩, hpackets, hslot,
    hqueued, hread'.trans hread, hwrite'.trans hwrite, hblocked'.trans hblocked, rfl, hclosing⟩

private theorem streamClose_quiet (hk : k.Quiet) (hc : ac.closing) :
    streamClose k h ac = streamClose quietCallbacks h ac := by
  obtain ⟨f, hmark, -⟩ := markClosedByProtocol_turns h ac
  have hclosing : (muxStreamClosing h (markClosedByProtocol h ac)).closing = true := by
    rw [(muxStreamClosing_turns h _).closing, hmark.closing, hc]
  have hdelay : ¬((!(muxStreamClosing h (markClosedByProtocol h ac)).closing) = true ∧
      ((muxStreamClosing h (markClosedByProtocol h ac)).streams h).queuedFrames ≠ 0) := by
    simp [hclosing]
  unfold streamClose
  dsimp only
  rw [if_neg hdelay, if_neg hdelay, fullClose_quiet hk hclosing]

/-- The close of a session closes a stream at once, whatever it has queued. -/
theorem streamClose_turns (hc : ac.closing) :
    ∃ f, Turns h f ac (streamClose quietCallbacks h ac) ∧
      ((ac.streams h).state ≠ .closed → (f (ac.streams h)).Released) := by
  obtain ⟨f, hmark, -⟩ := markClosedByProtocol_turns h ac
  have hmux := hmark.trans (muxStreamClosing_turns h _)
  obtain ⟨g, hfull, hg⟩ := fullClose_turns h (muxStreamClosing h (markClosedByProtocol h ac))
  have hdelay : ¬((!(muxStreamClosing h (markClosedByProtocol h ac)).closing) = true ∧
      ((muxStreamClosing h (markClosedByProtocol h ac)).streams h).queuedFrames ≠ 0) := by
    simp [hmux.closing, hc]
  unfold streamClose
  dsimp only
  by_cases hclosed : (ac.streams h).state = .closed
  · rw [if_pos hclosed]
    exact ⟨id, .same rfl, fun hopen => absurd hclosed hopen⟩
  · rw [if_neg hclosed, if_neg hdelay]
    exact ⟨_, hmux.trans hfull, fun _ => hg _ rfl rfl rfl⟩

private theorem closeStreams_quiet (hk : k.Quiet) (hs : List Handle) (ac : Connection)
    (hc : ac.closing) :
    closeStreams k hs ac = closeStreams quietCallbacks hs ac := by
  induction hs generalizing ac with
  | nil => rfl
  | cons h hs ih =>
    obtain ⟨f, hmark, -⟩ := markClosedByProtocol_turns h ac
    have hclosing : (markClosedByProtocol h ac).closing = true := hmark.closing.trans hc
    obtain ⟨g, hclose, -⟩ := streamClose_turns (h := h) hclosing
    have hnext := ih (streamClose quietCallbacks h (markClosedByProtocol h ac))
      (hclose.closing.trans hclosing)
    show closeStreams k hs (streamClose k h (markClosedByProtocol h ac)) = _
    rw [streamClose_quiet hk hclosing, hnext]
    rfl

/-- Every stream of the list is released, the others are left alone. -/
theorem closeStreams_released {hs : List Handle} (ac : Connection) (hc : ac.closing)
    (hnodup : hs.Nodup) (hopen : ∀ h ∈ hs, (ac.streams h).state ≠ .closed) :
    (∀ h ∈ hs, ((closeStreams quietCallbacks hs ac).streams h).Released) ∧
      (∀ h ∉ hs, (closeStreams quietCallbacks hs ac).streams h = ac.streams h) ∧
      (closeStreams quietCallbacks hs ac).nstreams = ac.nstreams := by
  induction hs generalizing ac with
  | nil => exact ⟨nofun, fun _ _ => rfl, rfl⟩
  | cons h hs ih =>
    obtain ⟨hnotin, hnodup⟩ := List.nodup_cons.mp hnodup
    obtain ⟨f, hmark, hstate⟩ := markClosedByProtocol_turns h ac
    have hclosing : (markClosedByProtocol h ac).closing = true := hmark.closing.trans hc
    have hopenHead : ((markClosedByProtocol h ac).streams h).state ≠ .closed := by
      rw [hmark.stream, hstate]
      exact hopen h List.mem_cons_self
    obtain ⟨g, hclose, hreleased⟩ := streamClose_turns (h := h) hclosing
    have hone := hmark.trans hclose
    have hopenTail : ∀ i ∈ hs,
        ((streamClose quietCallbacks h (markClosedByProtocol h ac)).streams i).state ≠ .closed := by
      intro i hi
      rw [hone.beside fun heq => hnotin (heq ▸ hi)]
      exact hopen i (List.mem_cons_of_mem _ hi)
    obtain ⟨hall, hrest, hn⟩ := ih _ (hone.closing.trans hc) hnodup hopenTail
    refine ⟨fun i hi => ?_, fun i hi => ?_, hn.trans hone.nstreams⟩
    · rcases List.mem_cons.mp hi with rfl | hi
      · have hhead := hreleased hopenHead
        rw [← hclose.stream, ← hrest i hnotin] at hhead
        exact hhead
      · exact hall i hi
    · obtain ⟨hne, hi⟩ := not_or.mp (mt List.mem_cons.mpr hi)
      exact (hrest i hi).trans (hone.beside hne)

private theorem closeStreams_table {hs : List Handle} (ac : Connection) (hw : ac.table.Wf)
    (hknown : ∀ h ∈ hs, h < ac.nstreams) : TableRun ac (closeStreams quietCallbacks hs ac) := by
  induction hs generalizing ac with
  | nil => exact .refl ac
  | cons h hs ih =>
    have hmark : TableRun ac (markClosedByProtocol h ac) := .mark h ac
    have hmarked := hmark.step hw
    have hclose : TableRun (markClosedByProtocol h ac)
        (streamClose quietCallbacks h (markClosedByProtocol h ac)) :=
      .close quietCallbacks (fun ac => .refl ac) h _
        ((hknown h List.mem_cons_self).trans_le hmarked.nstreams)
    have hclosed := (hmark.trans hclose).step hw
    exact (hmark.trans hclose).trans (ih _ hclosed.wf fun i hi =>
      (hknown i (List.mem_cons_of_mem _ hi)).trans_le hclosed.nstreams)

end Close

/-- Nothing of the streams of a session is left. -/
structure Connection.Released (ac : Connection) : Prop where
  streams : ∀ h < ac.nstreams, (ac.streams h).state = .closed
  list : ac.streamList = [] ∧ ac.activeStreams = 0
  table : ∀ id, htFind ac id = none
  slots : ac.uotStreams = 0
  sockets : ∀ h, (ac.streams h).udp = none ∧ (ac.streams h).uotTimer = false

/-- However the streams of a session came and went: its end closes each that is left and takes back
its upstream connection or UDP socket, its timer, its lookup, what it held back for either side and
its places in the queues, and leaves the table empty and no slot taken. -/
theorem finalizeRc_released {conf : Conf} (hmin : 1 ≤ conf.maxStreams)
    (hmax : conf.maxStreams ≤ 65536) {ac : Connection}
    (hr : TableRun (Connection.init conf) ac) (hslots : ac.slotSide.Ok none)
    (hopen : ac.closing = false) (rc : Nat) :
    (finalizeRc (outerCallbacks ac.conf) rc ac).Released ∧
      (∀ h ∈ ac.streamList, ((finalizeRc (outerCallbacks ac.conf) rc ac).streams h).Released) ∧
      ∀ h ∉ ac.streamList,
        (finalizeRc (outerCallbacks ac.conf) rc ac).streams h = ac.streams h := by
  obtain ⟨hslots', -⟩ := (outerCallbacks_kept ac.conf).finalizeRc rc ac hslots
  have hmaps := (run_table conf hmin hmax hr).1
  have hwf := (hr.step (init_wf hmin hmax)).wf
  have hknown : ∀ h ∈ ac.streamList, h < ac.nstreams := fun h hh => ((hmaps.listed h).mp hh).1
  obtain ⟨hreleased, hrest, hn⟩ := closeStreams_released (markClosing ac) rfl hmaps.nodup
    fun h hh => ((hmaps.listed h).mp hh).2
  have hclose := closeStreams_table (markClosing ac) hwf hknown
  have hmark : TableRun ac (markClosing ac) := .other rfl
  rw [finalizeRc, if_neg (by simp [hopen]),
    closeStreams_quiet (outerCallbacks_quiet ac.conf) _ _ rfl]
    at hslots' ⊢
  generalize closeStreams quietCallbacks ac.streamList (markClosing ac) = b
    at hslots' hreleased hrest hn hclose ⊢
  have hend : TableRun b ((closeFallback b).log (.finalize rc)) := .other rfl
  have hmaps' := (run_table conf hmin hmax (((hr.trans hmark).trans hclose).trans hend)).1
  have hclosed : ∀ h < b.nstreams, (b.streams h).state = .closed := by
    intro h hlt
    by_cases hh : h ∈ ac.streamList
    · exact (hreleased h hh).state
    · rw [hrest h hh]
      by_contra hstate
      exact hh ((hmaps.listed h).mpr ⟨hn ▸ hlt, hstate⟩)
  have hnil : ((closeFallback b).log (.finalize rc)).streamList = [] := by
    apply List.eq_nil_iff_forall_not_mem.mpr
    intro h hh
    obtain ⟨hlt, hstate⟩ := (hmaps'.listed h).mp hh
    exact hstate (hclosed h hlt)
  have hdead : ∀ h < b.nstreams, (b.streams h).live = false := by
    intro h hlt
    simp [Stream.live, hclosed h hlt]
  obtain ⟨htaken, hcounted⟩ := hslots'.none_taken hdead
  refine ⟨⟨hclosed, ⟨hnil, by rw [hmaps'.count, hnil]; rfl⟩, fun id => ?_, htaken, fun h => ?_⟩,
    hreleased, hrest⟩
  · apply Option.eq_none_iff_forall_ne_some.mpr
    intro h hfound
    obtain ⟨hlt, hstate, -⟩ := (hmaps'.find id h).mp hfound
    exact hstate (hclosed h hlt)
  · have hslot := hslots'.slots h
    have hnot : ((closeFallback b).log (.finalize rc) |>.slotSide.slots h).counted ≠ true := by
      simp [hcounted h]
    constructor
    · by_contra hsocket
      exact hnot (hslot.socket (Option.isSome_iff_ne_none.mpr hsocket))
    · by_contra htimer
      exact hnot (hslot.timer (Bool.not_eq_false _ ▸ htimer))

/-- Two streams, the first of which is connected and has a backlog. -/
def sampleOpened : Connection :=
  (streamCreateIfAbsent 65 (streamCreateIfAbsent 1 (Connection.init sampleConf)).2).2

def sampleHolding : Connection :=
  (setState 0 .connected sampleOpened).upd 0 fun st =>
    { st with upstream := some {}, pendingIn := [⟨[1, 2], 0⟩], pendingInBytes := 2 }

private theorem sampleHolding_table : TableRun (Connection.init sampleConf) sampleHolding := by
  have hopened : TableRun (Connection.init sampleConf) sampleOpened :=
    (TableRun.syn 1 _).trans (.syn 65 _)
  have hconnected : (setState 0 .connected sampleOpened).table = sampleOpened.table :=
    table_upd (fun _ => rfl) (iff_of_false nofun (by decide))
  exact (hopened.trans (.other hconnected)).trans (.other (table_upd_same fun _ => ⟨rfl, rfl⟩))

private theorem sampleHolding_slots : sampleHolding.slotSide.Ok none := by
  have hopened := (SlotsKept.streamCreateIfAbsent_step 1 (Connection.init sampleConf)).trans
    (SlotsKept.streamCreateIfAbsent_step 65 _)
  have hconnected := setState_step 0 .connected (by decide) sampleOpened
  have hheld : SlotStep (setState 0 .connected sampleOpened) sampleHolding :=
    SameSlots.step (sameSlots_upd fun _ => rfl)
  exact (((hopened.trans hconnected).trans hheld) (init_slots sampleConf)).1

theorem finalizeRc_released_sample :
    (finalizeRc (outerCallbacks sampleConf) streamOk sampleHolding).Released ∧
      ((finalizeRc (outerCallbacks sampleConf) streamOk sampleHolding).streams 0).Released := by
  obtain ⟨hall, hlisted, -⟩ := finalizeRc_released (by decide) (by decide) sampleHolding_table
    sampleHolding_slots (by decide) streamOk
  exact ⟨hall, hlisted 0 (by decide)⟩

end NgxAnytls
