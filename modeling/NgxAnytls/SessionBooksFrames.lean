import NgxAnytls.SessionBooksUplink
import NgxAnytls.UotSlotRun

/-! What the frames of the client, the end of a session and the fallback relay book. -/

namespace NgxAnytls

open Relation

namespace Books

variable {ac : Connection} {h : Handle}

theorem requeueReadReady (h : Handle) (ac : Connection) :
    CallsOn h ac (NgxAnytls.requeueReadReady h ac) := by
  unfold NgxAnytls.requeueReadReady
  split_ifs with hfree
  · have hread : (ac.streams h).upstreamReadReady = false := by simpa using hfree.1
    refine .act fun hh => link_act .read false hh hread rfl rfl (fun _ => rfl)
      (fun _ => rfl) fun r hr => ?_
    cases r with
    | read => exact absurd rfl hr
    | ready | write | blocked | connect => exact ⟨rfl, fun _ => rfl⟩
  · exact .refl h ac

theorem requeueRead (ac : Connection) : (NgxAnytls.requeueRead ac).2.books = ac.books := by
  unfold NgxAnytls.requeueRead
  dsimp only
  split_ifs <;> rfl

theorem markWriteReady (h : Handle) (ac : Connection) :
    CallsOn h ac (NgxAnytls.markWriteReady h ac) := by
  unfold NgxAnytls.markWriteReady
  split_ifs with hready
  · exact .refl h ac
  · refine .act fun hh => link_act .write false hh (Bool.eq_false_iff.mpr hready) rfl rfl
      (fun _ => rfl) (fun _ => rfl) fun r hr => ?_
    cases r with
    | write => exact absurd rfl hr
    | ready | read | blocked | connect => exact ⟨rfl, fun _ => rfl⟩

theorem uotReadDgram (h : Handle) (ac : Connection) :
    CallsOn h ac (NgxAnytls.uotReadDgram h ac).2 := by
  unfold NgxAnytls.uotReadDgram
  split_ifs
  · exact .quiet rfl
  dsimp only
  cases ac.allocNext.recvFromRes with
  | again => exact .quiet rfl
  | error => exact .quiet rfl
  | dgram src bs =>
    dsimp only
    split_ifs
    · exact .quiet rfl
    · exact .quiet rfl
    all_goals
      exact fun _ hh => queueChainFrame (some h) _ _ _ false ac.allocNext.recvFromNext (owned hh)

theorem newStream (id : UInt32) (ac : Connection) : Calls ac (NgxAnytls.newStream id ac) := by
  have hfresh : (Stream.books { id := id }) = .fresh := by
    have hlinked : (Stream.linkedIn { id := id }) = fun _ => false := by
      funext q
      cases q <;> rfl
    exact congrArg (StreamBooks.mk [] 0 false []) hlinked
  have hnew : ({ ac with nstreams := ac.nstreams + 1 }.upd ac.nstreams fun _ =>
      { id := id }).books = { ac.books with nstreams := ac.books.nstreams + 1 }.upd
        ac.books.nstreams fun _ => .fresh := upd_books fun _ => hfresh
  refine Calls.trans (.act ?_) (.quiet (log_quiet ⟨rfl, rfl, rfl⟩ _))
  rw [hnew]
  exact .create

theorem streamCreateIfAbsent (id : UInt32) (ac : Connection) :
    Calls ac (NgxAnytls.streamCreateIfAbsent id ac).2 := by
  have hnew : Calls ac (NgxAnytls.newStream id ac.allocNext) :=
    Calls.trans (.quiet rfl) (newStream id ac.allocNext)
  unfold NgxAnytls.streamCreateIfAbsent
  cases htFind ac id with
  | some h => exact .refl ac
  | none =>
    dsimp only
    split_ifs
    · exact .refl ac
    unfold streamAlloc
    dsimp only
    split_ifs
    · exact .quiet rfl
    cases htInsertLoop (NgxAnytls.newStream id ac.allocNext)
        (NgxAnytls.newStream id ac.allocNext).ht.length
        (htIndex (NgxAnytls.newStream id ac.allocNext) id) with
    | none => exact hnew
    | some idx =>
      refine hnew.trans (.act (.table (ac.ht.set idx (.used ac.nstreams)) fun g hg => ?_))
      rcases List.mem_or_eq_of_mem_set hg with hin | heq
      · exact .inl hin
      · cases heq
        exact .inr (Nat.lt_succ_self ac.nstreams)

end Books

namespace BooksKept

open Books

variable {k : Callbacks} {ac : Connection} {h : Handle}

theorem handleClientFin (hk : BooksKept k) (h : Handle) (ac : Connection) :
    Calls ac (NgxAnytls.handleClientFin k h ac) := by
  have hmark : Calls ac (markClosedByProtocol h ac) := .quiet (Books.markClosedByProtocol h ac)
  have hsend := hmark.trans (hk.sendPending h sendUnlimited _)
  unfold NgxAnytls.handleClientFin
  dsimp only
  split_ifs
  · exact (hmark.trans (.quiet (Books.uotClose h _))).trans (hk.streamClose h _)
  · exact hsend.trans (hk.streamClose h _)
  · refine hsend.trans ?_
    generalize (NgxAnytls.sendPending k h sendUnlimited (markClosedByProtocol h ac)).2.2 = ac₁
    unfold halfClose
    split_ifs
    · exact .quiet ((Books.setState h .halfClosed _).trans (log_quiet ⟨rfl, rfl, rfl⟩ ac₁))
    · have hdefer : (deferShutdown h (setState h .halfClosed ac₁)).books =
          (setState h .halfClosed ac₁).books := upd_quiet fun _ => rfl
      exact .quiet (hdefer.trans (Books.setState h .halfClosed ac₁))
  · exact hmark.trans (hk.streamClose h _)

theorem handleClientPayload (hk : BooksKept k) (h : Handle) (data : Bytes) (ac : Connection) :
    CallsOn h ac (NgxAnytls.handleClientPayload k h data ac).2 := by
  unfold NgxAnytls.handleClientPayload
  split_ifs
  · exact hk.uotClientPayload h data ac
  · exact hk.upstreamQueue h data ac

theorem upstreamOpen (hk : BooksKept k) (h : Handle) (addr : Addr) (ac : Connection) :
    CallsOn h ac (NgxAnytls.upstreamOpen k h addr ac).2 := by
  have htarget : CallsOn h ac (setTarget h addr ac) := .quiet (Books.setTarget h addr ac)
  have hlook := htarget.trans (hk.resolveAddr h .tcp _)
  unfold NgxAnytls.upstreamOpen
  dsimp only
  cases (NgxAnytls.resolveAddr k h .tcp (setTarget h addr ac)).1 with
  | again =>
    exact hlook.then (.quiet ((Books.setState h .connecting _).trans (log_quiet ⟨rfl, rfl, rfl⟩ _)))
  | error => exact hlook
  | ok => exact hlook.trans (hk.openResolved h _)

theorem uotOpen (h : Handle) (addr : Addr) (ac : Connection) :
    CallsOn h ac (NgxAnytls.uotOpen h addr ac).2 := by
  have htake : (takeUotSlot h addr.mode ac).books = ac.books := by
    have hlog : (logState h .connected ac).books = ac.books := log_quiet ⟨rfl, rfl, rfl⟩ ac
    rw [← hlog]
    exact upd_quiet fun _ => rfl
  unfold NgxAnytls.uotOpen
  split_ifs
  · exact .refl h ac
  · exact CallsOn.trans (.quiet htake) (Books.sendSynack h [] _)

theorem handleFirstPsh (hk : BooksKept k) (h : Handle) (addr : Addr) (payload : Bytes)
    (ac : Connection) : CallsOn h ac (NgxAnytls.handleFirstPsh k h addr payload ac).2 := by
  have hqueue := hk.upstreamQueue h payload ac
  have hopen := uotOpen h addr ac
  unfold NgxAnytls.handleFirstPsh
  dsimp only
  split_ifs
  · exact hk.upstreamOpen h addr ac
  · exact hqueue
  · exact hqueue
  · exact hqueue.trans (hk.upstreamOpen h addr _)
  · exact hopen.trans (hk.synackAndClose h uotLimitText _)
  · exact hopen
  · exact hopen.trans (hk.uotClientPayload h payload _)

theorem forwardFirstPsh (hk : BooksKept k) (h : Handle) (data : Bytes) (ac : Connection) :
    CallsOn h ac (NgxAnytls.forwardFirstPsh k h data ac).2 := by
  have hempty : CallsOn h ac (emptyFirstPsh h ac.allocNext).allocNext := by
    have hbooks : (emptyFirstPsh h ac.allocNext).books = ac.allocNext.books :=
      upd_quiet fun _ => rfl
    exact .quiet hbooks
  unfold NgxAnytls.forwardFirstPsh
  dsimp only
  split_ifs
  · exact .quiet rfl
  · exact .quiet rfl
  generalize firstPshBytes (((ac.allocNext.streams h).firstPshAcc).getD []) data = pdata
  cases parseSocksaddr pdata (emptyFirstPsh h ac.allocNext).allocOk with
  | again =>
    have hstore : ∀ ac : Connection, Calls ac (storeFirstPsh h pdata ac) := fun ac =>
      .quiet (upd_quiet fun _ => rfl)
    dsimp only
    unfold keepFirstPsh
    split_ifs
    · exact hempty
    · exact hempty.then (.quiet rfl)
    · exact hempty.then (Calls.trans (.quiet rfl) (hstore _))
    · exact hempty.then (hstore _)
  | error => exact hempty
  | ok addr consumed =>
    have hset : ∀ ac : Connection, Calls ac (setFirstPsh h addr ac) := fun ac =>
      .quiet (upd_quiet fun _ => rfl)
    exact (hempty.then (hset _)).trans (hk.handleFirstPsh h addr _ _)

theorem forwardClientPayload (hk : BooksKept k) (id : UInt32) (data : Bytes) (ac : Connection) :
    Calls ac (NgxAnytls.forwardClientPayload k id data ac).2 := by
  unfold NgxAnytls.forwardClientPayload
  cases hfind : streamFind id ac with
  | none => exact .refl ac
  | some h =>
    obtain ⟨hcell, -⟩ := SlotsKept.streamFind_spec hfind
    have hlog : CallsOn h ac (ac.log (.psh h data)) := .quiet (log_quiet ⟨rfl, rfl, rfl⟩ ac)
    refine CallsOn.of (h := h) ?_ fun hknown => hknown.table h hcell
    dsimp only
    split_ifs
    · exact .refl h ac
    · exact hlog.trans (hk.forwardFirstPsh h data _)
    · exact hlog.trans (hk.handleClientPayload h data _)

theorem finalizeRc (hk : BooksKept k) (rc : Nat) (ac : Connection) :
    Calls ac (NgxAnytls.finalizeRc k rc ac) := by
  have hall : ∀ (hs : List Handle) (ac : Connection), Calls ac (closeStreams k hs ac) := by
    intro hs
    induction hs with
    | nil => exact fun ac => .refl ac
    | cons h hs ih =>
      intro ac
      have hmark : Calls ac (markClosedByProtocol h ac) := .quiet (Books.markClosedByProtocol h ac)
      exact hmark.trans ((hk.streamClose h _).trans (ih _))
  have hend : ∀ ac : Connection, Calls ac ((closeFallback ac).log (.finalize rc)) := fun ac =>
    .quiet (log_quiet ⟨rfl, rfl, rfl⟩ (closeFallback ac))
  unfold NgxAnytls.finalizeRc
  split_ifs
  · exact .refl ac
  · exact (Calls.trans (.quiet rfl) (hall ac.streamList (markClosing ac))).trans (hend _)

theorem finalize (hk : BooksKept k) (ac : Connection) : Calls ac (NgxAnytls.finalize k ac) :=
  hk.finalizeRc streamOk ac

theorem armOrFinalize (hk : BooksKept k) (ac : Connection) :
    Calls ac (NgxAnytls.armOrFinalize k ac) := by
  have harm : Calls ac ac.arm.2 := .quiet rfl
  unfold NgxAnytls.armOrFinalize
  dsimp only
  split_ifs
  · exact harm.trans (hk.finalize _)
  · exact harm

theorem flushBuf (dst : FbSide) (b : FbBuf) (ac : Connection) :
    (NgxAnytls.flushBuf dst b ac).2.2.books = ac.books := by
  have hloop : ∀ (fuel sent : Nat) (b : FbBuf) (ac : Connection),
      (flushBufLoop dst fuel sent b ac).2.2.books = ac.books := by
    intro fuel
    induction fuel with
    | zero => exact fun _ _ _ => rfl
    | succ fuel ih =>
      intro sent b ac
      have hlog : ∀ bs, (logRelay dst bs ac.sendNext).books = ac.books := fun _ => by
        cases dst <;> exact log_quiet ⟨rfl, rfl, rfl⟩ ac.sendNext
      unfold flushBufLoop
      by_cases hdone : b.data.length ≤ b.pos
      · rw [if_pos hdone]
      rw [if_neg hdone]
      dsimp only
      cases ac.sendRes with
      | again => rfl
      | error => rfl
      | done n =>
        dsimp only
        split_ifs
        · rfl
        · exact hlog _
        · exact hlog _
        · exact (ih _ _ _).trans (hlog _)
  exact hloop _ 0 b ac

theorem setFbBuf (dst : FbSide) (b : Option FbBuf) (ac : Connection) :
    (NgxAnytls.setFbBuf dst b ac).books = ac.books := by
  cases dst <;> rfl

theorem flushFbBuf (dst : FbSide) (ac : Connection) :
    (NgxAnytls.flushFbBuf dst ac).2.books = ac.books := by
  unfold NgxAnytls.flushFbBuf
  cases fbBuf dst ac with
  | none => rfl
  | some b =>
    have hflush := flushBuf dst b ac
    dsimp only
    generalize NgxAnytls.flushBuf dst b ac = r at hflush ⊢
    exact (setFbBuf dst _ _).trans hflush

theorem flushReplay (ac : Connection) : (NgxAnytls.flushReplay ac).2.books = ac.books := by
  unfold NgxAnytls.flushReplay
  cases ac.fb.replay with
  | none => rfl
  | some b =>
    have hflush := flushBuf .upstream b ac
    dsimp only
    generalize NgxAnytls.flushBuf .upstream b ac = r at hflush ⊢
    obtain ⟨_ | _ | _, b', ac'⟩ := r
    · exact hflush
    · exact hflush
    · exact hflush

theorem fallbackConnect (hk : BooksKept k) (timedout : Bool) (ac : Connection) :
    Calls ac (NgxAnytls.fallbackConnect k timedout ac).2 := by
  have hnext : Calls ac ac.writableNext := .quiet rfl
  have herr : Calls ac ac.writableNext.sockErrNext := .quiet rfl
  unfold NgxAnytls.fallbackConnect
  dsimp only
  split_ifs
  · exact .refl ac
  · exact hk.finalizeRc _ ac
  · exact hnext.trans (hk.armOrFinalize _)
  · exact herr.trans (hk.finalizeRc _ _)
  · exact herr.trans (.quiet rfl)

theorem fallbackWriteUpstream (hk : BooksKept k) (ac : Connection) :
    Calls ac (NgxAnytls.fallbackWriteUpstream k ac) := by
  have hreplay : Calls ac (NgxAnytls.flushReplay ac).2 := .quiet (flushReplay ac)
  have hflush := hreplay.trans (.quiet (flushFbBuf .upstream _))
  unfold NgxAnytls.fallbackWriteUpstream
  dsimp only
  cases (NgxAnytls.flushReplay ac).1 with
  | error => exact hreplay.trans (hk.finalize _)
  | again => exact hreplay
  | ok =>
    dsimp only
    cases (NgxAnytls.flushFbBuf .upstream (NgxAnytls.flushReplay ac).2).1 with
    | error => exact hflush.trans (hk.finalize _)
    | again => exact hflush
    | ok =>
      have harm := hflush.trans (.quiet (b := (NgxAnytls.flushFbBuf .upstream
        (NgxAnytls.flushReplay ac).2).2.arm.2) rfl)
      dsimp only
      split_ifs
      · exact harm.trans (hk.finalize _)
      · exact harm.trans (hk.armOrFinalize _)

theorem fallbackWrite (hk : BooksKept k) (dst : FbSide) (timedout : Bool) (ac : Connection) :
    Calls ac (NgxAnytls.fallbackWrite k dst timedout ac) := by
  have hconnect : Calls ac (if dst = .upstream then NgxAnytls.fallbackConnect k timedout ac
      else (true, ac)).2 := by
    split_ifs
    · exact hk.fallbackConnect timedout ac
    · exact .refl ac
  unfold NgxAnytls.fallbackWrite
  dsimp only
  generalize (if dst = .upstream then NgxAnytls.fallbackConnect k timedout ac else (true, ac)) = r
    at hconnect ⊢
  have hnext := hconnect.trans (.quiet (b := r.2.writableNext) rfl)
  by_cases hstop : (!r.1) = true
  · rw [if_pos hstop]
    exact hconnect
  rw [if_neg hstop]
  split_ifs
  · exact hnext.trans (hk.armOrFinalize _)
  · exact hnext.trans (hk.fallbackWriteUpstream _)
  · have hflush := hnext.trans (.quiet (flushFbBuf .client _))
    cases (NgxAnytls.flushFbBuf .client r.2.writableNext).1 with
    | error => exact hflush.trans (hk.finalize _)
    | again => exact hflush
    | ok => exact hflush.trans (hk.armOrFinalize _)

theorem relayRecv (dst : FbSide) (size : Nat) (ac : Connection) :
    (NgxAnytls.relayRecv dst size ac).2.books = ac.books := by
  unfold NgxAnytls.relayRecv
  cases dst with
  | upstream =>
    cases ac.clientRecvRes with
    | data bs => exact log_quiet ⟨rfl, rfl, rfl⟩ ac.clientRecvNext
    | again => rfl
    | error => rfl
  | client => cases ac.recvRes <;> rfl

theorem fallbackReadLoop (hk : BooksKept k) (dst : FbSide) (loops bytes : Nat) (b : FbBuf)
    (ac : Connection) : Calls ac (NgxAnytls.fallbackReadLoop k dst loops bytes b ac) := by
  have hset : ∀ (b : Option FbBuf) (ac : Connection), Calls ac (NgxAnytls.setFbBuf dst b ac) :=
    fun b ac => .quiet (setFbBuf dst b ac)
  induction loops generalizing bytes b ac with
  | zero => exact (hset _ ac).trans (hk.armOrFinalize _)
  | succ loops ih =>
    have hrecv : Calls ac (NgxAnytls.relayRecv dst (b.cap - b.data.length) ac).2 :=
      .quiet (relayRecv dst _ ac)
    unfold NgxAnytls.fallbackReadLoop
    by_cases hfull : b.cap ≤ b.data.length
    · rw [if_pos hfull]
      exact (hset _ ac).trans (hk.armOrFinalize _)
    rw [if_neg hfull]
    generalize NgxAnytls.relayRecv dst (b.cap - b.data.length) ac = r at hrecv ⊢
    obtain ⟨_ | _ | bs, ac₁⟩ := r
    · exact hrecv.trans ((hset _ ac₁).trans (hk.armOrFinalize _))
    · exact hrecv.trans ((hset _ ac₁).trans (hk.finalize _))
    · dsimp only
      by_cases hend : bs = []
      · rw [if_pos hend]
        exact hrecv.trans ((hset _ ac₁).trans (hk.finalize _))
      rw [if_neg hend]
      have hflush := hrecv.trans (.quiet (flushBuf dst { b with data := b.data ++ bs } ac₁))
      generalize NgxAnytls.flushBuf dst { b with data := b.data ++ bs } ac₁ = w at hflush ⊢
      obtain ⟨_ | _ | _, b₂, ac₂⟩ := w
      · dsimp only
        split_ifs
        · exact hflush.trans ((hset _ ac₂).trans (hk.armOrFinalize _))
        · exact hflush.trans (ih _ b₂ ac₂)
      · exact hflush.trans (hset _ ac₂)
      · exact hflush.trans ((hset _ ac₂).trans (hk.finalize _))

theorem fallbackRead (hk : BooksKept k) (dst : FbSide) (ac : Connection) :
    Calls ac (NgxAnytls.fallbackRead k dst ac) := by
  have hflush : Calls ac (NgxAnytls.flushFbBuf dst ac).2 := .quiet (flushFbBuf dst ac)
  unfold NgxAnytls.fallbackRead
  by_cases hreplay : dst = .upstream ∧ ac.fb.replay.isSome = true
  · rw [if_pos hreplay]
    exact hk.armOrFinalize ac
  rw [if_neg hreplay]
  cases fbBuf dst ac with
  | some b =>
    dsimp only
    split_ifs
    · exact hflush.trans (hk.finalize _)
    · exact hflush
    · exact hk.fallbackReadLoop dst _ 0 b ac
  | none =>
    have halloc : Calls ac ac.allocNext := .quiet rfl
    dsimp only
    split_ifs
    · exact halloc.trans (hk.finalize _)
    · exact halloc.trans (hk.fallbackReadLoop dst _ 0 _ _)

end BooksKept

end NgxAnytls
