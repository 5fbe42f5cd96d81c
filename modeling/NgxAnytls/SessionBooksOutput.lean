import NgxAnytls.SessionBooks

/-! What the queues, the closes and the flush of a session book. -/

namespace NgxAnytls

open Relation

namespace Books

variable {ac : Connection} {h : Handle}

theorem markReady (h : Handle) (ac : Connection) : (NgxAnytls.markReady h ac).books =
    ac.books.enter .ready h ((ac.streams h).upstreamType = .uot) := by
  have hmark : (ac.books.streams h).linkedIn .ready = (ac.streams h).queued := rfl
  unfold NgxAnytls.markReady Books.enter
  rw [hmark]
  dsimp only
  split_ifs with hqueued huot
  · rfl
  all_goals
    refine queue_books .ready rfl ?_ (fun _ => rfl) (fun _ => rfl) fun r hr => ?_
    · simp [huot, Connection.books, Connection.schedQueue]
    · cases r with
      | ready => exact absurd rfl hr
      | read | write | blocked | connect => exact ⟨rfl, fun _ => rfl⟩

theorem armWriteTimer (ac : Connection) : (NgxAnytls.armWriteTimer ac).books = ac.books := by
  unfold NgxAnytls.armWriteTimer
  split_ifs <;> rfl

theorem postWrite (ac : Connection) : (NgxAnytls.postWrite ac).books = ac.books := by
  unfold NgxAnytls.postWrite
  split_ifs
  · rfl
  · exact armWriteTimer { ac with writePending := true }

theorem countStreamFrame (owner : Option Handle) (f : OutFrame) (ac : Connection) :
    (NgxAnytls.countStreamFrame owner f ac).books = ac.books := by
  unfold NgxAnytls.countStreamFrame
  cases owner with
  | none => rfl
  | some h =>
    dsimp only
    split_ifs
    · exact upd_quiet fun _ => rfl
    · rfl

theorem log_queued (f : OutFrame) (n version : Nat) (ac : Connection) :
    (ac.log (.queued f n version)).books = { ac.books with queued := ac.books.queued ++ [f] } := by
  have hqueued : queuedFrames [.queued f n version] = [f] := rfl
  have hlinked : linkedFrames [.queued f n version] = [] := rfl
  have hclosed : closedStreams [.queued f n version] = [] := rfl
  rw [log_books]
  simp [Connection.books, hqueued, hlinked, hclosed]

theorem enter_queued (b : Books) (q : SchedQueue) (h : Handle) (front : Bool)
    (l : List OutFrame) :
    { b.enter q h front with queued := l } = { b with queued := l }.enter q h front := by
  unfold enter
  split_ifs <;> rfl

theorem enter_queuedFrames (b : Books) (q : SchedQueue) (h : Handle) (front : Bool) :
    (b.enter q h front).queued = b.queued := by
  unfold enter
  split_ifs <;> rfl

/-- A frame goes one of three ways, each with its record. -/
theorem linkFrame (owner : Option Handle) (f : OutFrame) (n version : Nat) (ac : Connection)
    (hf : f.blocked = !(f.cmd == .psh || f.cmd == .fin))
    (hknown : ∀ h, owner = some h → h < ac.nstreams) :
    BookAct ac.books ((NgxAnytls.linkFrame owner (f.prepare owner) ac).log
      (.queued (f.prepare owner) n version)).books := by
  rw [log_queued]
  unfold NgxAnytls.linkFrame
  cases owner with
  | none => exact .control (f.prepare none) (.inl rfl)
  | some h =>
    have hcmd : (f.prepare (some h)).blocked = true ↔ ¬(f.cmd = .psh ∨ f.cmd = .fin) := by
      simp [OutFrame.prepare, hf]
    dsimp only
    split_ifs with hblocked hdirect
    · exact .control (f.prepare (some h)) (.inr (hcmd.mp hblocked))
    · have hturn : (f.prepare (some h)).InTurn h := ⟨rfl, not_not.mp (mt hcmd.mpr hblocked)⟩
      have hcount : (setDirectCount h ((ac.streams h).directCount + 1)
          { ac with dataOut := ac.dataOut ++ [f.prepare (some h)] }).books =
          { ac with dataOut := ac.dataOut ++ [f.prepare (some h)] }.books :=
        upd_quiet fun _ => rfl
      rw [hcount]
      exact .direct h (f.prepare (some h)) hturn (hknown h rfl) hdirect.2.1
    · have hturn : (f.prepare (some h)).InTurn h := ⟨rfl, not_not.mp (mt hcmd.mpr hblocked)⟩
      have hcount : ∀ ac : Connection, (setDirectCount h 0 ac).books = ac.books := fun _ =>
        upd_quiet fun _ => rfl
      have happend : (appendOut h (f.prepare (some h)) ac).books = ac.books.upd h fun st =>
          { st with out := st.out ++ [f.prepare (some h)] } := upd_books fun _ => rfl
      rw [hcount, markReady, happend, enter_queued, enter_queuedFrames]
      exact .own h (f.prepare (some h)) _ hturn (hknown h rfl)

theorem queuePreparedFrame (owner : Option Handle) (f : OutFrame) (ac : Connection)
    (hf : f.blocked = !(f.cmd == .psh || f.cmd == .fin))
    (hknown : ∀ h, owner = some h → h < ac.nstreams) :
    BookRun ac.books (NgxAnytls.queuePreparedFrame owner f ac).2.books := by
  unfold NgxAnytls.queuePreparedFrame
  split_ifs
  · exact .refl
  · exact .refl
  · have hcount := countStreamFrame owner (f.prepare owner) ac
    dsimp only
    rw [postWrite, ← hcount]
    have hn : (NgxAnytls.countStreamFrame owner (f.prepare owner) ac).nstreams = ac.nstreams :=
      congrArg Books.nstreams hcount
    generalize NgxAnytls.countStreamFrame owner (f.prepare owner) ac = ac' at hn ⊢
    exact .single (linkFrame owner f _ _ ac' hf fun h hh => hn ▸ hknown h hh)

theorem queueDataFrame (copy : Bool) (owner : Option Handle) (cmd : Cmd) (streamId : UInt32)
    (data : Bytes) (ac : Connection) (hknown : ∀ h, owner = some h → h < ac.nstreams) :
    BookRun ac.books (NgxAnytls.queueDataFrame copy owner cmd streamId data ac).2.books := by
  unfold NgxAnytls.queueDataFrame
  dsimp only
  split_ifs
  · exact .refl
  · exact .refl
  · exact .refl
  · exact .refl
  · exact queuePreparedFrame owner _ ac.allocNext.allocNext rfl hknown
  · exact queuePreparedFrame owner _ ac.allocNext rfl hknown

theorem queueChainFrame (owner : Option Handle) (streamId : UInt32) (buf : ReadBuf)
    (len : Nat) (checked : Bool) (ac : Connection)
    (hknown : ∀ h, owner = some h → h < ac.nstreams) :
    BookRun ac.books (NgxAnytls.queueChainFrame owner .psh streamId buf len checked
      ac).2.books := by
  unfold NgxAnytls.queueChainFrame
  dsimp only
  split_ifs
  · exact .refl
  · exact .refl
  · exact .refl
  · exact queuePreparedFrame owner _ ac.allocNext rfl hknown
  · exact queuePreparedFrame owner _ ac.allocNext rfl hknown

/-- The frame of a stream that exists. -/
theorem owned {n : Nat} (hh : h < n) : ∀ g, some h = some g → g < n :=
  fun _ hg => Option.some.inj hg ▸ hh

theorem sendSynack (h : Handle) (data : Bytes) (ac : Connection) :
    CallsOn h ac (NgxAnytls.sendSynack h data ac).2 := by
  have hmark : (markSynackSent h ac).books = ac.books := upd_quiet fun _ => rfl
  have hskip : ∀ ac : Connection, (ac.log (.synackSkipped h data)).books = ac.books :=
    log_quiet ⟨rfl, rfl, rfl⟩
  have hqueue : CallsOn h ac (queueRefFrame (some h) .synack ((markSynackSent h ac).streams h).id
      data (markSynackSent h ac)).2 := fun _ hh =>
    hmark ▸ queueDataFrame false (some h) .synack _ data (markSynackSent h ac) (owned hh)
  unfold NgxAnytls.sendSynack
  dsimp only
  split_ifs
  · exact .quiet (hskip ac)
  · exact .quiet ((hskip _).trans hmark)
  · exact hqueue.then (.quiet (hskip _))
  · exact hqueue

theorem queueError (data : Bytes) (ac : Connection) : Calls ac (NgxAnytls.queueError data ac).2 :=
  fun _ => queueDataFrame false none .alert 0 data ac nofun

theorem clientInputPause (ac : Connection) :
    (NgxAnytls.clientInputPause ac).2.books = ac.books := by
  unfold NgxAnytls.clientInputPause
  dsimp only
  split_ifs <;> rfl

theorem enableClientRead (ac : Connection) :
    (NgxAnytls.enableClientRead ac).2.books = ac.books := by
  unfold NgxAnytls.enableClientRead
  dsimp only
  split_ifs <;> rfl

theorem blockInput (h : Handle) (ac : Connection)
    (hfull : ac.conf.maxPendingInput < (ac.streams h).pendingInBytes) :
    CallsOn h ac (NgxAnytls.blockInput h ac).2 := by
  refine CallsOn.then ?_ (.quiet (clientInputPause (markInputBlocked h ac)))
  unfold markInputBlocked
  split_ifs with hblocked
  · exact .refl h ac
  · exact .act fun hh => upd_act (.block h hh (Bool.eq_false_iff.mpr hblocked) hfull) fun _ => rfl

theorem unblockInput (h : Handle) (ac : Connection) :
    (NgxAnytls.unblockInput h ac).books = ac.books.unblock h := by
  have hblocked : (ac.books.streams h).blocked = (ac.streams h).inputBlocked := rfl
  unfold NgxAnytls.unblockInput Books.unblock
  rw [hblocked]
  split_ifs
  · exact upd_books fun _ => rfl
  · rfl

theorem dropPending (h : Handle) (ac : Connection) :
    Calls ac (NgxAnytls.unblockInput h (NgxAnytls.dropPending h ac)) := by
  refine .act ?_
  have hdrop : (NgxAnytls.dropPending h ac).books = ac.books.discard h := by
    rw [NgxAnytls.dropPending, log_quiet ⟨rfl, rfl, rfl⟩]
    exact upd_books fun _ => rfl
  rw [unblockInput, hdrop]
  exact .discard h

theorem removeReady (h : Handle) (ac : Connection) :
    (NgxAnytls.removeReady h ac).books = ac.books.leave .ready h := by
  have hmark : (ac.books.streams h).linkedIn .ready = (ac.streams h).queued := rfl
  unfold NgxAnytls.removeReady Books.leave
  rw [hmark]
  split_ifs
  · refine queue_books .ready rfl rfl (fun _ => rfl) (fun _ => rfl) fun r hr => ?_
    cases r with
    | ready => exact absurd rfl hr
    | read | write | blocked | connect => exact ⟨rfl, fun _ => rfl⟩
  · rfl

theorem unblockRead (h : Handle) (ac : Connection) : Calls ac (NgxAnytls.unblockRead h ac) := by
  unfold NgxAnytls.unblockRead
  split_ifs
  · refine .act (unlink_act .blocked nofun rfl rfl (fun _ => rfl) (fun _ => rfl) fun r hr => ?_)
    cases r with
    | blocked => exact absurd rfl hr
    | ready | read | write | connect => exact ⟨rfl, fun _ => rfl⟩
  · exact .refl ac

theorem cancelConnect (h : Handle) (ac : Connection) :
    Calls ac (NgxAnytls.cancelConnect h ac) := by
  unfold NgxAnytls.cancelConnect
  split_ifs
  · refine .act (unlink_act .connect nofun rfl rfl (fun _ => rfl) (fun _ => rfl) fun r hr => ?_)
    cases r with
    | connect => exact absurd rfl hr
    | ready | read | write | blocked => exact ⟨rfl, fun _ => rfl⟩
  · exact .refl ac

theorem takeWriteReady (h : Handle) (ac : Connection) :
    Calls ac (NgxAnytls.takeWriteReady h ac) := by
  refine .act (unlink_act .write nofun rfl rfl (fun _ => rfl) (fun _ => rfl) fun r hr => ?_)
  cases r with
  | write => exact absurd rfl hr
  | ready | read | blocked | connect => exact ⟨rfl, fun _ => rfl⟩

theorem unlinkWriteReady (h : Handle) (ac : Connection) :
    Calls ac (NgxAnytls.unlinkWriteReady h ac) := by
  unfold NgxAnytls.unlinkWriteReady
  split_ifs
  · exact takeWriteReady h ac
  · exact .refl ac

theorem takeReadReady (h : Handle) (ac : Connection) : Calls ac (NgxAnytls.takeReadReady h ac) := by
  refine .act (unlink_act .read nofun rfl rfl (fun _ => rfl) (fun _ => rfl) fun r hr => ?_)
  cases r with
  | read => exact absurd rfl hr
  | ready | write | blocked | connect => exact ⟨rfl, fun _ => rfl⟩

theorem unlinkReadReady (h : Handle) (ac : Connection) :
    Calls ac (NgxAnytls.unlinkReadReady h ac) := by
  unfold NgxAnytls.unlinkReadReady
  split_ifs
  · exact takeReadReady h ac
  · exact .refl ac

theorem muxStreamClosing (h : Handle) (ac : Connection) :
    Calls ac (NgxAnytls.muxStreamClosing h ac) := by
  have hwrite := (unlinkReadReady h ac).trans (unlinkWriteReady h _)
  exact hwrite.trans ((unblockRead h _).trans (cancelConnect h _))

theorem markClosedByProtocol (h : Handle) (ac : Connection) :
    (NgxAnytls.markClosedByProtocol h ac).books = ac.books := by
  unfold NgxAnytls.markClosedByProtocol
  split_ifs
  · rfl
  · exact upd_quiet fun _ => rfl

theorem resolverCancel (h : Handle) (ac : Connection) :
    (NgxAnytls.resolverCancel h ac).books = ac.books := upd_quiet fun _ => rfl

theorem dropUpstream (h : Handle) (ac : Connection) :
    (NgxAnytls.dropUpstream h ac).books = ac.books := upd_quiet fun _ => rfl

theorem clearUotPending (h : Handle) (ac : Connection) :
    (NgxAnytls.clearUotPending h ac).books = ac.books := upd_quiet fun _ => rfl

theorem uotClose (h : Handle) (ac : Connection) : (NgxAnytls.uotClose h ac).books = ac.books := by
  have hslot : (releaseUotSlot h ac).books = ac.books := by
    unfold releaseUotSlot
    split_ifs
    · exact upd_quiet fun _ => rfl
    · rfl
  have hudp : ∀ ac : Connection, (closeUdp h ac).books = ac.books := fun _ =>
    upd_quiet fun _ => rfl
  rw [NgxAnytls.uotClose, hudp, clearUotPending, resolverCancel, hslot]

theorem uotCloseIfCounted (h : Handle) (ac : Connection) :
    (NgxAnytls.uotCloseIfCounted h ac).books = ac.books := by
  unfold NgxAnytls.uotCloseIfCounted
  split_ifs
  · exact uotClose h ac
  · rfl

theorem noteClamped (clamped : Bool) (ac : Connection) :
    (NgxAnytls.noteClamped clamped ac).books = ac.books := by
  unfold NgxAnytls.noteClamped
  split_ifs
  · exact log_quiet ⟨rfl, rfl, rfl⟩ ac
  · rfl

theorem enterClosing (h : Handle) (ac : Connection) :
    (NgxAnytls.enterClosing h ac).books = ac.books := by
  have hstate : (logState h .closing ac).books = ac.books := log_quiet ⟨rfl, rfl, rfl⟩ ac
  have henter : ∀ (ac : Connection) (queue : List Handle),
      ({ ac with closingStreams := queue }.upd h fun st =>
        { st with state := .closing, delayedClose := true, closing := true }).books = ac.books :=
    fun _ _ => upd_quiet fun _ => rfl
  rw [NgxAnytls.enterClosing, log_quiet ⟨rfl, rfl, rfl⟩, henter, hstate]

theorem enterClosed (h : Handle) (ac : Connection) : (NgxAnytls.enterClosed h ac).books =
    { ac.books with closed := ac.books.closed ++ [h] } := by
  have hclosed : ∀ ac : Connection, (ac.log (.streamClosed h)).books =
      { ac.books with closed := ac.books.closed ++ [h] } := fun ac => by
    have hqueued : queuedFrames [.streamClosed h] = [] := rfl
    have hlinked : linkedFrames [.streamClosed h] = [] := rfl
    have hnew : closedStreams [.streamClosed h] = [h] := rfl
    rw [log_books]
    simp [Connection.books, hqueued, hlinked, hnew]
  have hstate : (logState h .closed ac).books = ac.books := log_quiet ⟨rfl, rfl, rfl⟩ ac
  have henter : ∀ ac : Connection, (ac.upd h fun st =>
      { st with state := .closed, delayedClose := false, closing := false }).books = ac.books :=
    fun _ => upd_quiet fun _ => rfl
  rw [NgxAnytls.enterClosed, hclosed, henter, hstate]

theorem dropOut (h : Handle) (ac : Connection) : (NgxAnytls.dropOut h ac).books =
    ac.books.upd h fun st => { st with out := [] } := by
  have hnote := noteClamped (dropClamps h ac) ac
  unfold NgxAnytls.dropOut
  dsimp only
  rw [← hnote]
  exact upd_books fun _ => rfl

theorem forgetStream (wasClosing : Bool) (h : Handle) (ac : Connection) :
    Calls ac (NgxAnytls.forgetStream wasClosing h ac) := by
  have hlists : (unlinkStream h (if wasClosing then unlinkClosing h ac else ac)).books =
      ac.books := by
    split_ifs <;> rfl
  refine Calls.trans (.quiet hlists) ?_
  unfold NgxAnytls.forgetStream htRemove
  generalize unlinkStream h (if wasClosing then unlinkClosing h ac else ac) = ac'
  cases htRemoveLoop ac' h ac'.ht.length (htIndex ac' (ac'.streams h).id) with
  | none => exact .refl ac'
  | some idx =>
    refine .act (.table (ac'.ht.set idx .tomb) fun g hg => ?_)
    rcases List.mem_or_eq_of_mem_set hg with hin | heq
    · exact .inl hin
    · cases heq

end Books

/-- The calls that lead back book their effects. -/
structure BooksKept (k : Callbacks) : Prop where
  resume : ∀ ac, Books.Calls ac (k.resume ac).2
  resolved : ∀ h a ac, Books.CallsOn h ac (k.resolved h a ac)

namespace BooksKept

open Books

variable {k : Callbacks} {ac : Connection} {h : Handle}

theorem discardPending (hk : BooksKept k) (h : Handle) (ac : Connection) :
    Calls ac (NgxAnytls.discardPending k h ac) :=
  (Books.dropPending h ac).trans (hk.resume _)

theorem delayClose (hk : BooksKept k) (h : Handle) (ac : Connection) :
    Calls ac (NgxAnytls.delayClose k h ac) := by
  have hstart : (uotCloseIfCounted h (dropUpstream h (resolverCancel h
      (enterClosing h ac)))).books = ac.books := by
    rw [Books.uotCloseIfCounted, Books.dropUpstream, Books.resolverCancel, Books.enterClosing]
  exact Calls.trans (.quiet hstart) ((hk.discardPending h _).trans
    ((Books.unblockRead h _).trans (Books.cancelConnect h _)))

theorem fullClose (hk : BooksKept k) (h : Handle) (ac : Connection) :
    Calls ac (NgxAnytls.fullClose k h ac) := by
  have henter : Calls ac (enterClosed h ac) := .act (Books.enterClosed h ac ▸ .close h)
  have hdrop : Calls (enterClosed h ac)
      (dropOut h (resolverCancel h (removeReady h (enterClosed h ac)))) := by
    refine .act ?_
    rw [Books.dropOut, Books.resolverCancel, Books.removeReady]
    exact .drop h (by simp [Books.enterClosed])
  have hrelease : ∀ ac : Connection, (clearUotPending h (uotCloseIfCounted h
      (dropUpstream h ac))).books = ac.books := fun ac => by
    rw [Books.clearUotPending, Books.uotCloseIfCounted, Books.dropUpstream]
  have hdiscard := (henter.trans (hdrop.trans (.quiet (hrelease _)))).trans (hk.discardPending h _)
  exact (hdiscard.trans (Books.cancelConnect h _)).trans (Books.forgetStream _ h _)

theorem streamClose (hk : BooksKept k) (h : Handle) (ac : Connection) :
    Calls ac (NgxAnytls.streamClose k h ac) := by
  have hbegin := Calls.trans (.quiet (Books.markClosedByProtocol h ac)) (Books.muxStreamClosing h _)
  unfold NgxAnytls.streamClose
  dsimp only
  split_ifs
  · exact .refl ac
  · exact hbegin.trans (hk.delayClose h _)
  · exact hbegin.trans (hk.fullClose h _)

theorem closeFailed (hk : BooksKept k) {cause : CloseCause} (h : Handle) (ac : Connection) :
    Calls ac (NgxAnytls.closeFailed k cause h ac) :=
  Calls.trans (.quiet (log_quiet ⟨rfl, rfl, rfl⟩ ac)) (hk.streamClose h (logClose cause h ac))

theorem synackAndClose (hk : BooksKept k) {cause : CloseCause} (h : Handle) (text : Bytes)
    (ac : Connection) : CallsOn h ac (NgxAnytls.synackAndClose k cause h text ac) := by
  have hlog : CallsOn h ac (logClose cause h ac) := .quiet (log_quiet ⟨rfl, rfl, rfl⟩ ac)
  exact (hlog.trans (Books.sendSynack h text _)).then (hk.streamClose h _)

theorem sendFinAndClose (hk : BooksKept k) (h : Handle) (ac : Connection) :
    CallsOn h ac (NgxAnytls.sendFinAndClose k h ac).2 := by
  have hout : (closeOutput h (markClosedByProtocol h ac)).books = ac.books := by
    have hclose : ∀ ac : Connection, (closeOutput h ac).books = ac.books := fun _ =>
      upd_quiet fun _ => rfl
    rw [hclose, Books.markClosedByProtocol]
  have hn : (closeOutput h (markClosedByProtocol h ac)).nstreams = ac.nstreams :=
    congrArg Books.nstreams hout
  have hqueue : CallsOn h ac (queueFrame (some h) .fin
      ((closeOutput h (markClosedByProtocol h ac)).streams h).id []
        (closeOutput h (markClosedByProtocol h ac))).2 := fun _ hh =>
    hout ▸ Books.queueDataFrame true (some h) .fin _ [] (closeOutput h (markClosedByProtocol h ac))
      (owned (hn ▸ hh))
  unfold NgxAnytls.sendFinAndClose
  dsimp only
  split_ifs
  · exact hqueue
  · exact hqueue.then (hk.streamClose h _)
  · exact CallsOn.then (.quiet hout) (hk.streamClose h _)

end BooksKept

namespace Books

variable {ac : Connection} {h : Handle}

theorem blockRead (h : Handle) (ac : Connection) :
    CallsOn h ac (NgxAnytls.blockRead h ac).2 := by
  unfold NgxAnytls.blockRead
  split_ifs with hblocked
  · exact .refl h ac
  · have hmark : CallsOn h ac (markReadBlocked h ac) := by
      refine .act fun hh => link_act .blocked false hh (Bool.eq_false_iff.mpr hblocked) rfl rfl
        (fun _ => rfl) (fun _ => rfl) fun r hr => ?_
      cases r with
      | blocked => exact absurd rfl hr
      | ready | read | write | connect => exact ⟨rfl, fun _ => rfl⟩
    exact hmark.then (.quiet rfl)

theorem suspendReads (ac : Connection) : Calls ac (NgxAnytls.suspendReads ac) := by
  have hone : ∀ (ac : Connection) (h : Handle), CallsOn h ac (suspendRead ac h) := by
    intro ac h
    unfold suspendRead
    dsimp only
    split_ifs
    · exact (takeReadReady h ac).on
    · exact (takeReadReady h ac).on.trans (blockRead h _)
  have hall : ∀ (hs : List Handle) (ac : Connection), ac.books.Known →
      (∀ h ∈ hs, h < ac.nstreams) → BookRun ac.books (hs.foldl suspendRead ac).books := by
    intro hs
    induction hs with
    | nil => exact fun ac _ _ => .refl
    | cons h hs ih =>
      intro ac hknown hin
      have hr := hone ac h hknown (hin h List.mem_cons_self)
      exact hr.trans (ih _ (hr.known hknown) fun g hg =>
        (hin g (List.mem_cons_of_mem h hg)).trans_le hr.nstreams)
  exact fun hknown => hall ac.readReady (setPressure true ac) hknown (hknown.linked .read)

theorem retireFrame (f : OutFrame) (ac : Connection) :
    (NgxAnytls.retireFrame f ac).books = ac.books := by
  have hnote := noteClamped (retireClamps f ac) ac
  have hcount : (uncountFrame f (NgxAnytls.noteClamped (retireClamps f ac) ac)).books = ac.books :=
    hnote
  unfold NgxAnytls.retireFrame
  cases f.stream with
  | none => exact hcount
  | some h =>
    dsimp only
    rw [← hcount]
    exact upd_quiet fun _ => rfl

theorem leaveReady (h : Handle) (ac : Connection) (hout : (ac.streams h).out = []) :
    Calls ac (NgxAnytls.removeReady h ac) := by
  have hremove := removeReady h ac
  unfold Books.leave at hremove
  split_ifs at hremove
  · exact .act (hremove ▸ .unlink .ready h fun _ => hout)
  · exact .quiet hremove

/-- The stream leaves the ready queue, and comes back when it has more frames. -/
theorem scheduleFrame (h : Handle) (f : OutFrame) (fs : List OutFrame) (ac : Connection)
    (hout : (ac.streams h).out = f :: fs) :
    CallsOn h ac (NgxAnytls.scheduleFrame h f fs (NgxAnytls.removeReady h ac)) := by
  have hmove : (moveToData h f fs (NgxAnytls.removeReady h ac)).books =
      (ac.books.leave .ready h).hand h f fs := by
    rw [← removeReady]
    exact upd_books fun _ => rfl
  refine .act fun hh => ?_
  have hact := BookAct.schedule (b := ac.books) h f fs (decide
    (((moveToData h f fs (NgxAnytls.removeReady h ac)).streams h).upstreamType = .uot)) hh hout
  unfold NgxAnytls.scheduleFrame
  dsimp only
  split_ifs with hmore
  · rw [markReady, hmove]
    rwa [if_pos hmore] at hact
  · rw [hmove]
    rwa [if_neg hmore] at hact

theorem scheduleLoop (go : Nat → Nat → Bool) (fuel frames bytes : Nat) (ac : Connection) :
    Calls ac (NgxAnytls.scheduleLoop go fuel frames bytes ac) := by
  induction fuel generalizing frames bytes ac with
  | zero => exact .refl ac
  | succ fuel ih =>
    unfold NgxAnytls.scheduleLoop
    cases hready : ac.readyStreams with
    | nil => exact .refl ac
    | cons h _ =>
      have hmem : h ∈ ac.readyStreams := hready ▸ List.mem_cons_self
      have hin : ac.books.Known → h < ac.nstreams := fun hknown => hknown.linked .ready h hmem
      dsimp only
      split_ifs
      · exact .refl ac
      have hsame : ((NgxAnytls.removeReady h ac).streams h).out = (ac.streams h).out := by
        have hbooks : (((NgxAnytls.removeReady h ac).books).streams h).out =
            (ac.books.streams h).out := by rw [removeReady, leave_out]
        exact hbooks
      cases hout : ((NgxAnytls.removeReady h ac).streams h).out with
      | nil =>
        rw [hsame] at hout
        exact (leaveReady h ac hout).trans (ih _ _ _)
      | cons f fs =>
        rw [hsame] at hout
        exact ((scheduleFrame h f fs ac hout).of hin).trans (ih _ _ _)

theorem scheduleStreamFrames (n : Nat) (ac : Connection) :
    Calls ac (NgxAnytls.scheduleStreamFrames n ac) := by
  unfold NgxAnytls.scheduleStreamFrames
  dsimp only
  split_ifs <;> exact scheduleLoop _ _ _ _ ac

theorem linkFrames (ac : Connection) : Calls ac (NgxAnytls.linkFrames ac) := by
  unfold NgxAnytls.linkFrames
  split_ifs
  · exact .refl ac
  · obtain ⟨hqueued, hlinked, -⟩ := linkedFrames_map (ac.controlOut ++ ac.dataOut)
    have hclosed : closedStreams ((ac.controlOut ++ ac.dataOut).map .linked) = [] := by
      generalize ac.controlOut ++ ac.dataOut = fs
      induction fs with
      | nil => rfl
      | cons f fs ih => exact ih
    have hbooks : Connection.books { ac with
        sending := ac.sending ++ (ac.controlOut ++ ac.dataOut), controlOut := [], dataOut := []
        trace := ac.trace ++ (ac.controlOut ++ ac.dataOut).map .linked } = { ac.books with
          queued := queuedFrames (ac.trace ++ (ac.controlOut ++ ac.dataOut).map .linked)
          linked := linkedFrames (ac.trace ++ (ac.controlOut ++ ac.dataOut).map .linked)
          closed := closedStreams (ac.trace ++ (ac.controlOut ++ ac.dataOut).map .linked)
          controlOut := [], dataOut := [] } := rfl
    refine .act ?_
    rw [hbooks, queuedFrames_append, linkedFrames_append, closedStreams_append, hqueued, hlinked,
      hclosed, List.append_nil, List.append_nil]
    exact .send

theorem clientWriteChain {ac' : Connection} (hres : NgxAnytls.clientWriteChain ac = some ac') :
    ac'.books = ac.books := by
  unfold NgxAnytls.clientWriteChain at hres
  cases hio : ac.clientRes with
  | error =>
    rw [hio] at hres
    cases hres
  | again =>
    rw [hio] at hres
    cases hres
    rfl
  | done n =>
    rw [hio] at hres
    cases hres
    exact log_quiet ⟨rfl, rfl, rfl⟩ _

theorem takeClosing (h : Handle) (ac : Connection) :
    (NgxAnytls.takeClosing h ac).books = ac.books := by
  have hunlink : (unlinkClosing h ac).books = ac.books := rfl
  rw [← hunlink]
  exact upd_quiet fun _ => rfl

theorem flushBlocked (ac : Connection) : (NgxAnytls.flushBlocked ac).2.books = ac.books := by
  unfold NgxAnytls.flushBlocked
  dsimp only
  split_ifs
  · rfl
  · exact armWriteTimer (setWriteArmed true ac.arm.2)

theorem drainPressure (rc : Rc) (ac : Connection) : Calls ac (NgxAnytls.drainPressure rc ac) := by
  unfold NgxAnytls.drainPressure
  cases rc with
  | ok => exact .quiet rfl
  | error => exact .refl ac
  | again =>
    dsimp only
    split_ifs
    · exact .refl ac
    · exact suspendReads ac

end Books

namespace BooksKept

open Books

variable {k : Callbacks} {ac : Connection} {h : Handle}

theorem processBlocked (hk : BooksKept k) (ac : Connection) :
    Calls ac (NgxAnytls.processBlocked k ac) := by
  have hloop : ∀ (hs : List Handle) (ac : Connection), Calls ac (processBlockedLoop k hs ac) := by
    intro hs
    induction hs with
    | nil => exact fun ac => .refl ac
    | cons h hs ih =>
      intro ac
      have hunblock := Books.unblockRead h ac
      have harm : Calls ac (unblockRead h ac).arm.2 := hunblock
      have hcount : Calls ac (setResumed ((unblockRead h ac).arm.2.resumedStreams + 1)
          (unblockRead h ac).arm.2) := hunblock
      unfold processBlockedLoop
      dsimp only
      split_ifs
      · exact hunblock.trans (ih _)
      · exact .refl ac
      · exact .refl ac
      · exact harm.trans (hk.closeFailed h _)
      · exact hcount.trans (ih _)
  exact hloop ac.blockedUpstreamReads ac

theorem onClientMuxResult (hk : BooksKept k) (released : Bool) (ac : Connection) :
    Calls ac (NgxAnytls.onClientMuxResult k released ac) := by
  unfold NgxAnytls.onClientMuxResult
  split_ifs
  · exact Calls.trans (.quiet rfl) ((hk.processBlocked (setPressure false ac)).trans
      (hk.processBlocked _))
  · exact hk.processBlocked ac

theorem defaultFrameHandler (hk : BooksKept k) (f : OutFrame) (ac : Connection) :
    Calls ac (NgxAnytls.defaultFrameHandler k f ac) := by
  have hretire : Calls ac (retireFrame f ac) := .quiet (Books.retireFrame f ac)
  unfold NgxAnytls.defaultFrameHandler
  cases f.stream with
  | none => exact hretire
  | some h =>
    dsimp only
    split_ifs
    · exact hretire.trans (hk.streamClose h _)
    · exact hretire

theorem recycleSentFrames (hk : BooksKept k) (fuel : Nat) (ac : Connection) :
    Calls ac (NgxAnytls.recycleSentFrames k fuel ac) := by
  induction fuel generalizing ac with
  | zero => exact .refl ac
  | succ fuel ih =>
    unfold NgxAnytls.recycleSentFrames
    cases ac.sending with
    | nil => exact .refl ac
    | cons f fs =>
      dsimp only
      split_ifs
      · exact .refl ac
      · exact Calls.trans (.quiet rfl) ((hk.defaultFrameHandler f (setSending fs ac)).trans (ih _))

theorem drainClosingStreams (hk : BooksKept k) (ac : Connection) :
    Calls ac (NgxAnytls.drainClosingStreams k ac) := by
  have hloop : ∀ (fuel : Nat) (cur : Option Handle) (ac : Connection),
      Calls ac (drainClosingLoop k fuel cur ac) := by
    intro fuel
    induction fuel with
    | zero =>
      intro cur ac
      cases cur with
      | none => exact .refl ac
      | some h => exact .quiet rfl
    | succ fuel ih =>
      intro cur ac
      cases cur with
      | none => exact .refl ac
      | some h =>
        have htake : Calls ac (takeClosing h ac) := .quiet (Books.takeClosing h ac)
        unfold drainClosingLoop
        dsimp only
        split_ifs
        · exact htake.trans ((hk.streamClose h _).trans (ih _ _))
        · exact ih _ _
  exact hloop _ _ ac

theorem flushDone (hk : BooksKept k) (ac : Connection) :
    Calls ac (NgxAnytls.flushDone k ac).2 := by
  have hstart : Calls ac (setWriteArmed false ac).arm.2 := .quiet rfl
  have hdrain := hstart.trans (hk.drainClosingStreams _)
  unfold NgxAnytls.flushDone
  dsimp only
  split_ifs
  · exact hstart
  · exact hdrain.trans (.quiet (Books.postWrite _))
  · exact hdrain.trans (.quiet rfl)

theorem flush (hk : BooksKept k) (budget : Nat) (ac : Connection) :
    Calls ac (NgxAnytls.flush k budget ac).2 := by
  have hnext : Calls ac ac.clientErrNext := .quiet rfl
  have hlink := (hnext.trans (Books.scheduleStreamFrames budget _)).trans (Books.linkFrames _)
  unfold NgxAnytls.flush
  dsimp only
  generalize linkFrames (scheduleStreamFrames budget ac.clientErrNext) = ac₁ at hlink ⊢
  split_ifs
  · exact hnext
  · exact hlink.trans (.quiet rfl)
  cases hres : clientWriteChain ac₁ with
  | none => exact hlink.trans (.quiet rfl)
  | some ac₂ =>
    have hwrite := hlink.trans (.quiet (Books.clientWriteChain hres))
    have hsent := hwrite.trans (hk.recycleSentFrames ac₂.sending.length ac₂)
    dsimp only
    generalize NgxAnytls.recycleSentFrames k ac₂.sending.length ac₂ = ac₃ at hsent ⊢
    have hresult : Calls ac (if ac₃.outputPressure = true then ac₃
        else NgxAnytls.onClientMuxResult k false ac₃) := by
      split_ifs
      · exact hsent
      · exact hsent.trans (hk.onClientMuxResult false ac₃)
    generalize (if ac₃.outputPressure = true then ac₃
      else NgxAnytls.onClientMuxResult k false ac₃) = ac₄ at hresult ⊢
    split_ifs
    · exact hresult.trans (.quiet (Books.flushBlocked ac₄))
    · exact hresult.trans (hk.flushDone ac₄)

theorem clientMuxDrain (hk : BooksKept k) (budget : Nat) (report : Bool) (ac : Connection) :
    Calls ac (NgxAnytls.clientMuxDrain k budget report ac).2.2 := by
  have hstart : Calls ac (setResumed 0 ac) := .quiet rfl
  have hdrain := hstart.trans (hk.drainClosingStreams (setResumed 0 ac))
  unfold NgxAnytls.clientMuxDrain
  dsimp only
  generalize (if budget = 0 then clientDrainFrames else budget) = b
  have hflush := hdrain.trans (hk.flush b _)
  have hpressure := hflush.trans (Books.drainPressure (NgxAnytls.flush k b
    (NgxAnytls.drainClosingStreams k (setResumed 0 ac))).1 _)
  cases report with
  | true => exact hpressure.trans (hk.onClientMuxResult _ _)
  | false => exact hpressure

end BooksKept

end NgxAnytls
