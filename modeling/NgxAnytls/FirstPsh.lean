import NgxAnytls.SocksEncode
import NgxAnytls.UplinkOrder

/-! However a client cuts the address of a stream and the payload behind it into PSH frames, the
upstream side is handed the same target and the same bytes. -/

namespace NgxAnytls

/-- What a PSH frame is made into: nothing yet, the target with the bytes behind it, more bytes, or
an error of the address. -/
inductive Handed where
  | wait
  | error
  | first (addr : Addr) (payload : Bytes)
  | next (payload : Bytes)
  deriving DecidableEq, Repr

/-- The call of the upstream side that this is. -/
def Handed.call (k : Callbacks) (h : Handle) : Handed → Connection → Rc × Connection
  | .wait, ac => (.ok, ac)
  | .error, ac => (.error, ac)
  | .first addr payload, ac => handleFirstPsh k h addr payload ac
  | .next payload, ac => handleClientPayload k h payload ac

/-- What a stream makes of a PSH frame, and what it is when that is handed on. -/
def Stream.psh (st : Stream) (data : Bytes) : Handed × Stream :=
  let acc := st.firstPshAcc.getD []
  let emptied := { st with firstPshAcc := st.firstPshAcc.map fun _ => [] }
  if st.firstPshSeen then (.next data, st)
  else if acc ≠ [] ∧ data = [] then (.wait, st)
  else
    match parseSocksaddr (firstPshBytes acc data) with
    | .again =>
      if maxSocksAddrLen ≤ (firstPshBytes acc data).length then (.error, emptied)
      else (.wait, { st with firstPshAcc := some (firstPshBytes acc data) })
    | .error => (.error, emptied)
    | .ok addr consumed =>
      (.first addr (data.drop (consumed - acc.length)),
        { emptied with firstPshSeen := true, target := addr })

/-- No allocation of the event fails. -/
def Connection.HasMemory (ac : Connection) : Prop := ∀ b ∈ ac.env.alloc, b = true

instance (ac : Connection) : Decidable ac.HasMemory :=
  inferInstanceAs (Decidable (∀ b ∈ ac.env.alloc, b = true))

theorem Connection.HasMemory.allocOk {ac : Connection} (hm : ac.HasMemory) : ac.allocOk = true := by
  unfold Connection.allocOk
  cases he : ac.env.alloc with
  | nil => rfl
  | cons b bs => exact hm b (by rw [he]; exact List.mem_cons_self)

theorem Connection.HasMemory.allocNext {ac : Connection} (hm : ac.HasMemory) :
    ac.allocNext.HasMemory := fun b hb => hm b (List.mem_of_mem_tail hb)

private theorem storeFirstPsh_own (h : Handle) (pdata : Bytes) (ac : Connection) :
    (storeFirstPsh h pdata ac).streams h = { ac.streams h with firstPshAcc := some pdata } := by
  simp [storeFirstPsh]

section Dispatch

variable {ac : Connection} {h : Handle} {id : UInt32} {data : Bytes}

/-- With memory at hand the first PSH is handed on as its bytes ask. -/
theorem forwardFirstPsh_call (k : Callbacks) (hm : ac.HasMemory)
    (hseen : (ac.streams h).firstPshSeen = false) :
    ∃ ac' : Connection, ac'.streams h = ((ac.streams h).psh data).2 ∧
      forwardFirstPsh k h data ac = ((ac.streams h).psh data).1.call k h ac' ∧
      ∀ addr payload, ((ac.streams h).psh data).1 = .first addr payload →
        ac' = setFirstPsh h addr (emptyFirstPsh h ac.allocNext).allocNext := by
  have hsecond : (emptyFirstPsh h ac.allocNext).allocOk = true := hm.allocNext.allocOk
  have hthird : (emptyFirstPsh h ac.allocNext).allocNext.allocOk = true :=
    hm.allocNext.allocNext.allocOk
  have hemptied : (emptyFirstPsh h ac.allocNext).allocNext.streams h =
      { ac.streams h with firstPshAcc := (ac.streams h).firstPshAcc.map fun _ => [] } := by
    simp [emptyFirstPsh, Connection.allocNext]
  unfold forwardFirstPsh Stream.psh
  dsimp only
  have hfirst : ¬ (!ac.allocOk) = true := by rw [hm.allocOk]; decide
  have hacc : (ac.allocNext.streams h).firstPshAcc.getD [] = (ac.streams h).firstPshAcc.getD [] :=
    rfl
  rw [if_neg hfirst, if_neg (by rw [hseen]; decide), hacc, hsecond]
  by_cases hnone : (ac.streams h).firstPshAcc.getD [] ≠ [] ∧ data = []
  · rw [if_pos hnone, if_pos hnone]
    exact ⟨ac.allocNext, rfl, rfl, (by rintro _ _ ⟨⟩)⟩
  rw [if_neg hnone, if_neg hnone]
  generalize hw : emptyFirstPsh h ac.allocNext = w at hthird hemptied
  cases hparse : parseSocksaddr (firstPshBytes ((ac.streams h).firstPshAcc.getD []) data) with
  | error => exact ⟨w.allocNext, hemptied, rfl, (by rintro _ _ ⟨⟩)⟩
  | again =>
    dsimp only
    unfold keepFirstPsh
    split_ifs with hfull
    · exact ⟨w.allocNext, hemptied, rfl, (by rintro _ _ ⟨⟩)⟩
    · rename_i hfail
      rw [hthird] at hfail
      cases hfail
    · refine ⟨_, ?_, rfl, (by rintro _ _ ⟨⟩)⟩
      have hstill : w.allocNext.allocNext.streams h = w.allocNext.streams h := rfl
      rw [storeFirstPsh_own, hstill, hemptied]
    · refine ⟨_, ?_, rfl, (by rintro _ _ ⟨⟩)⟩
      rw [storeFirstPsh_own, hemptied]
  | ok addr consumed =>
    refine ⟨_, ?_, rfl, fun a p hfirst => ?_⟩
    · simp [setFirstPsh, hemptied]
    · rw [(Handed.first.inj hfirst).1]

theorem Stream.psh_seen {st : Stream} (hseen : st.firstPshSeen = true) :
    st.psh data = (.next data, st) := by
  unfold Stream.psh
  dsimp only
  rw [if_pos hseen]

theorem Stream.psh_unseen {st : Stream} (hseen : st.firstPshSeen = false) (bs : Bytes) :
    (st.psh data).1 ≠ .next bs := by
  unfold Stream.psh
  dsimp only
  rw [if_neg (by rw [hseen]; decide)]
  by_cases hnone : st.firstPshAcc.getD [] ≠ [] ∧ data = []
  · rw [if_pos hnone]
    nofun
  rw [if_neg hnone]
  cases parseSocksaddr (firstPshBytes (st.firstPshAcc.getD []) data) with
  | again =>
    dsimp only
    split_ifs <;> nofun
  | error => nofun
  | ok => nofun

/-- A PSH frame of a stream that takes payload is handed on as its bytes ask. -/
theorem forwardClientPayload_call (k : Callbacks) (hm : ac.HasMemory)
    (hfind : streamFind id ac = some h) (hcan : canAcceptPayload (ac.streams h) = true) :
    ∃ ac' : Connection, ac'.streams h = ((ac.streams h).psh data).2 ∧
      forwardClientPayload k id data ac = ((ac.streams h).psh data).1.call k h ac' := by
  unfold forwardClientPayload
  simp only [hfind]
  rw [if_neg (by rw [hcan]; decide)]
  cases hseen : (ac.streams h).firstPshSeen with
  | false =>
    have hunseen : ((ac.log (.psh h data)).streams h).firstPshSeen = false := hseen
    rw [if_pos (by rw [hunseen]; rfl)]
    obtain ⟨ac', hst, hcall, -⟩ :=
      @forwardFirstPsh_call (ac.log (.psh h data)) h data k hm hunseen
    exact ⟨ac', hst, hcall⟩
  | true =>
    have hseen' : ((ac.log (.psh h data)).streams h).firstPshSeen = true := hseen
    rw [if_neg (by rw [hseen']; decide), Stream.psh_seen hseen]
    exact ⟨ac.log (.psh h data), rfl, rfl⟩

end Dispatch

/-- The parts of a stream that say how far its address is. -/
def StreamView.SameAddress (st st' : StreamView) : Prop :=
  st'.firstPshSeen = st.firstPshSeen ∧ st'.firstPshAcc = st.firstPshAcc

theorem StreamView.Beside.sameAddress {st st' : StreamView} (hb : st.Beside st') :
    st.SameAddress st' := ⟨hb.seen, hb.acc⟩

theorem StreamView.SameAddress.trans {a b c : StreamView} (hab : a.SameAddress b)
    (hbc : b.SameAddress c) : a.SameAddress c :=
  ⟨hbc.1.trans hab.1, hbc.2.trans hab.2⟩

private theorem uotOpen_address (conf : Conf) (g : Handle) (addr : Addr) (ac : Connection)
    (hs : ac.view.Sane) (hst : ac.view.Starts g) :
    (ac.view.streams g).SameAddress ((uotOpen g addr ac).2.view.streams g) := by
  have hslot : (ac.view.streams g).SameAddress ((takeUotSlot g addr.mode ac).view.streams g) := by
    rw [takeUotSlot_view]
    simp [StreamView.SameAddress]
  unfold uotOpen
  split_ifs with hfull
  · exact ⟨rfl, rfl⟩
  · have hknown : g < (takeUotSlot g addr.mode ac).view.nstreams := by
      rw [takeUotSlot_view]
      exact hst.known
    have hsynack := ((closed_beside conf).synack g [] (takeUotSlot g addr.mode ac) hknown
      (takeUotSlot_sane addr.mode ac hs hst)).2
    exact hslot.trans (hsynack.streams g).sameAddress

private theorem handleFirstPsh_address (conf : Conf) (g : Handle) (addr : Addr) (payload : Bytes)
    (ac : Connection) (hs : ac.view.Sane) (hm : ac.view.Marks) (hst : ac.view.Starts g) :
    (ac.view.streams g).SameAddress
      ((handleFirstPsh (innerCallbacks conf) g addr payload ac).2.view.streams g) := by
  have hk := closed_beside conf
  have hopen := openTcp_beside conf g addr ac hst hs
  obtain ⟨bs, hfill, -⟩ := upstreamQueue_fill conf g payload ac hs
  have hkeeps := (Handled.queue conf g payload ac hst.toAccepts hs).1
  have hst' := fun hne => View.Starts.queue (innerCallbacks conf) g payload ac hst hne
  have huot := uotOpen_address conf g addr ac hs hst
  have hsaneUot := (Handled.openUot g addr ac hst hs).1
  have hmarksUot := (uotOpen_take conf addr ac hs hst).1.marks hm
  unfold handleFirstPsh
  dsimp only
  generalize upstreamQueue (innerCallbacks conf) g payload ac = r at hfill hkeeps hst' ⊢
  split_ifs with htcp hnil hok hclosed hfail hnil
  · exact (hopen.streams g).sameAddress
  · exact (hfill.streams g).sameAddress
  · exact (hfill.streams g).sameAddress
  · have hrest := openTcp_beside conf g addr r.2 (hst' hnil) hkeeps.sane
    exact (hfill.streams g).sameAddress.trans (hrest.streams g).sameAddress
  · -- there is no slot: the stream is closed
    have hsynack := hk.trans (hk.logClose .uotLimit g (uotOpen g addr ac).2)
      (hk.synack g uotLimitText _ (hst.known.trans_le hsaneUot.nstreams)) hsaneUot.sane
    have hclose := streamClose_beside conf g
      (sendSynack g uotLimitText (logClose .uotLimit g (uotOpen g addr ac).2)).2
      hsynack.1.sane (hsynack.2.marks hmarksUot)
      (.inr (.inr (sendSynack_reason .uotLimit g (by decide) (by decide) _)))
    exact huot.trans ((hsynack.2.trans hclose.1).streams g).sameAddress
  · exact huot
  · have hpayload := (hk.uotClientPayload g payload (uotOpen g addr ac).2 hsaneUot.sane).2
    exact huot.trans (hpayload.streams g).sameAddress

section Frame

variable {ac : Connection} {h : Handle} {data : Bytes}

private theorem forwardFirstPsh_address (conf : Conf) (hs : ac.view.Sane) (hm : ac.view.Marks)
    (ha : ac.view.Accepts h) (hc : (ac.streams h).closedByProtocol = false)
    (hseen : (ac.streams h).firstPshSeen = false)
    (hstate : (ac.streams h).state ≠ .closing ∧ (ac.streams h).state ≠ .closed)
    (hmem : ac.HasMemory) :
    StreamView.SameAddress ((ac.streams h).psh data).2.view
      ((forwardFirstPsh (innerCallbacks conf) h data ac).2.view.streams h) := by
  obtain ⟨ac', hst, hcall, hfirst⟩ :=
    @forwardFirstPsh_call ac h data (innerCallbacks conf) hmem hseen
  rw [hcall, ← hst]
  cases hhand : ((ac.streams h).psh data).1 with
  | wait => exact ⟨rfl, rfl⟩
  | error => exact ⟨rfl, rfl⟩
  | next bs => exact absurd hhand (Stream.psh_unseen hseen bs)
  | first addr payload =>
    obtain rfl := hfirst addr payload hhand
    have hview : (emptyFirstPsh h ac.allocNext).allocNext.view = ac.view.upd h fun st =>
        { st with firstPshAcc := st.firstPshAcc.map fun _ => [] } :=
      emptyFirstPsh_view h ac.allocNext
    have hsane : (emptyFirstPsh h ac.allocNext).allocNext.view.Sane := by
      rw [hview, View.upd_congr (g := fun st =>
        { st with firstPshAcc := (ac.streams h).firstPshAcc.map fun _ => [] }) _ h rfl]
      exact DispatchAct.sane (.firstPshAcc h _ hseen) hs
    have ha' : (emptyFirstPsh h ac.allocNext).allocNext.view.Accepts h := by
      rw [hview]
      exact ⟨ha.known, by simpa using ha.inOpen⟩
    have hold : ((emptyFirstPsh h ac.allocNext).allocNext.streams h).closedByProtocol = false ∧
        ((emptyFirstPsh h ac.allocNext).allocNext.streams h).firstPshSeen = false ∧
        ((emptyFirstPsh h ac.allocNext).allocNext.streams h).state = (ac.streams h).state := by
      simpa [emptyFirstPsh, Connection.allocNext] using ⟨hc, hseen⟩
    have hmarks : (emptyFirstPsh h ac.allocNext).allocNext.view.Marks := by
      rw [hview]
      exact (View.Take.quiet (g := h) fun hm => hm).marks hm
    generalize (emptyFirstPsh h ac.allocNext).allocNext = w at hsane ha' hold hmarks ⊢
    obtain ⟨hc', hseen', hst'⟩ := hold
    have hstarts := Handled.starts h addr w hsane ha' hc' hseen' (by rw [hst']; exact hstate)
    have hset : w.view.Take h [] (setFirstPsh h addr w).view := by
      rw [setFirstPsh_view]
      exact .quiet fun hm => hm
    have hsaneSet : (setFirstPsh h addr w).view.Sane := by
      rw [setFirstPsh_view]
      exact DispatchAct.sane (.firstPsh (v := w.view) h ha'.known) hsane
    exact handleFirstPsh_address conf h addr payload _ hsaneSet (hset.marks hmarks) hstarts

/-- What a PSH frame makes of its stream's address stays after the frame. -/
theorem forwardClientPayload_address (conf : Conf) {id : UInt32} (hs : ac.view.Sane)
    (hm : ac.view.Marks) (hfind : streamFind id ac = some h)
    (hcan : canAcceptPayload (ac.streams h) = true) (hmem : ac.HasMemory) :
    StreamView.SameAddress ((ac.streams h).psh data).2.view
      ((forwardClientPayload (innerCallbacks conf) id data ac).2.view.streams h) := by
  obtain ⟨hknown, hc, -⟩ := streamFind_some hs hfind
  have hin : (ac.streams h).inClosed = false := by simp_all [canAcceptPayload]
  have hstate : (ac.streams h).state ≠ .closing ∧ (ac.streams h).state ≠ .closed := by
    simp_all [canAcceptPayload]
  have hsane : (ac.log (.psh h data)).view.Sane := DispatchAct.sane (.psh h data hknown hin) hs
  unfold forwardClientPayload
  simp only [hfind]
  rw [if_neg (by rw [hcan]; decide)]
  cases hseen : (ac.streams h).firstPshSeen with
  | false =>
    have hunseen : ((ac.log (.psh h data)).streams h).firstPshSeen = false := hseen
    rw [if_pos (by rw [hunseen]; rfl)]
    exact @forwardFirstPsh_address (ac.log (.psh h data)) h data conf hsane hm ⟨hknown, hin⟩ hc
      hunseen hstate hmem
  | true =>
    have hseen' : ((ac.log (.psh h data)).streams h).firstPshSeen = true := hseen
    rw [if_neg (by rw [hseen']; decide), Stream.psh_seen hseen]
    obtain ⟨bs, hfill, -⟩ := handleClientPayload_fill conf h data (ac.log (.psh h data)) hsane
    exact (hfill.streams h).sameAddress

/-- A PSH frame leaves a session in order. -/
theorem forwardClientPayload_keeps (conf : Conf) {id : UInt32} (hs : ac.view.Sane)
    (hm : ac.view.Marks) (hfind : streamFind id ac = some h)
    (hcan : canAcceptPayload (ac.streams h) = true) :
    (forwardClientPayload (innerCallbacks conf) id data ac).2.view.Sane ∧
      (forwardClientPayload (innerCallbacks conf) id data ac).2.view.Marks := by
  obtain ⟨hknown, hc, -⟩ := streamFind_some hs hfind
  have hin : (ac.streams h).inClosed = false := by simp_all [canAcceptPayload]
  have hstate : (ac.streams h).state ≠ .closing ∧ (ac.streams h).state ≠ .closed := by
    simp_all [canAcceptPayload]
  have hsane : (ac.log (.psh h data)).view.Sane := DispatchAct.sane (.psh h data hknown hin) hs
  refine ⟨(Handled.payload conf id data ac hs).1.sane, ?_⟩
  unfold forwardClientPayload
  simp only [hfind]
  rw [if_neg (by rw [hcan]; decide)]
  split_ifs with hseen
  · obtain ⟨bs, htake, -⟩ := forwardFirstPsh_take conf data (ac.log (.psh h data)) hsane hm
      ⟨hknown, hin⟩ hc (by simpa using hseen) hstate
    exact htake.marks hm
  · obtain ⟨bs, hfill, -⟩ := handleClientPayload_fill conf h data (ac.log (.psh h data)) hsane
    exact hfill.take.marks hm

end Frame

/-- The PSH frames `pieces` of the stream, one after the other, and what each was handed on as.
Between them the session does what it does: only the stream's address waits. -/
inductive PshRun (conf : Conf) (id : UInt32) (h : Handle) (start : Connection) :
    List Bytes → List Handed → Connection → Prop
  | start : PshRun conf id h start [] [] start
  | between {pieces handed ac} (ac' : Connection) (hrun : PshRun conf id h start pieces handed ac)
      (haddr : (ac.view.streams h).SameAddress (ac'.view.streams h)) (hsane : ac'.view.Sane)
      (hmarks : ac'.view.Marks) : PshRun conf id h start pieces handed ac'
  | psh {pieces handed ac} (data : Bytes) (hrun : PshRun conf id h start pieces handed ac)
      (hfind : streamFind id ac = some h) (hcan : canAcceptPayload (ac.streams h) = true)
      (hmem : ac.HasMemory) :
      PshRun conf id h start (pieces ++ [data]) (handed ++ [((ac.streams h).psh data).1])
        (forwardClientPayload (innerCallbacks conf) id data ac).2

/-- What became of the bytes `bs` of a stream whose address is `t`: they wait, or the target was
handed on once, and the bytes behind the address in order. -/
structure StreamView.Cut (t : SocksTarget) (bs : Bytes) (handed : List Handed) (st : StreamView) :
    Prop where
  short : (st.firstPshAcc.getD []).length < maxSocksAddrLen
  part : bs.length < t.encode.length → st.firstPshSeen = false ∧ st.firstPshAcc.getD [] = bs ∧
    ∃ n, handed = List.replicate n .wait
  whole : t.encode.length ≤ bs.length → st.firstPshSeen ∧ ∃ n p, ∃ qs : List Bytes,
    handed = List.replicate n .wait ++ .first t.addr p :: qs.map .next ∧
      p ++ qs.flatten = bs.drop t.encode.length

theorem StreamView.Cut.sameAddress {t : SocksTarget} {bs : Bytes} {handed : List Handed}
    {st st' : StreamView} (hc : st.Cut t bs handed) (ha : st.SameAddress st') :
    st'.Cut t bs handed := by
  obtain ⟨hseen, hacc⟩ := ha
  refine ⟨?_, ?_, ?_⟩
  · rw [hacc]
    exact hc.short
  · rw [hseen, hacc]
    exact hc.part
  · rw [hseen]
    exact hc.whole

/-- The accumulator has room for all of a frame that an address can still need. -/
theorem firstPshBytes_length {acc data : Bytes} (hacc : acc ≠ [])
    (hshort : acc.length ≤ maxSocksAddrLen) :
    (firstPshBytes acc data).length ≤ maxSocksAddrLen := by
  unfold firstPshBytes
  rw [if_neg hacc, List.length_append, List.length_take]
  omega

/-- A complete address is among the bytes a first PSH is parsed from. -/
theorem firstPshBytes_whole {t : SocksTarget} {acc data rest : Bytes}
    (hall : acc ++ data = t.encode ++ rest) :
    parseSocksaddr (firstPshBytes acc data) = .ok t.addr t.encode.length := by
  have hmax := t.encode_length_le
  have hlen : t.encode.length ≤ acc.length + data.length := by
    have hsum := congrArg List.length hall
    rw [List.length_append, List.length_append] at hsum
    omega
  have hlong : t.encode.length ≤ (firstPshBytes acc data).length := by
    unfold firstPshBytes
    split_ifs with hnil
    · rw [hnil, List.length_nil] at hlen
      omega
    · rw [List.length_append, List.length_take]
      omega
  have hpre : t.encode <+: firstPshBytes acc data := by
    refine List.prefix_of_prefix_length_le ?_ (firstPshBytes_start acc data) hlong
    rw [hall]
    exact List.prefix_append _ _
  obtain ⟨tail, htail⟩ := hpre
  rw [← htail]
  exact parseSocksaddr_encode t tail

/-- One PSH frame more. -/
theorem StreamView.Cut.psh {t : SocksTarget} {bs data payload : Bytes} {handed : List Handed}
    {st : Stream} (hc : st.view.Cut t bs handed) (hpre : bs ++ data <+: t.encode ++ payload) :
    (st.psh data).2.view.Cut t (bs ++ data) (handed ++ [(st.psh data).1]) := by
  rcases Nat.lt_or_ge bs.length t.encode.length with hpart | hwhole
  · obtain ⟨hseen, hacc, n, hwait⟩ := hc.part hpart
    have hseen : st.firstPshSeen = false := hseen
    have hacc : st.firstPshAcc.getD [] = bs := hacc
    unfold Stream.psh
    dsimp only
    rw [if_neg (by rw [hseen]; decide), hacc]
    by_cases hnone : bs ≠ [] ∧ data = []
    · -- an empty frame in the middle of the address
      rw [if_pos hnone, hnone.2, List.append_nil]
      refine ⟨hc.short, fun _ => ⟨hseen, hacc, n + 1, ?_⟩, fun hle => absurd hle (not_le.mpr hpart)⟩
      rw [hwait]
      exact (List.replicate_succ' ..).symm
    rw [if_neg hnone]
    rcases Nat.lt_or_ge (bs ++ data).length t.encode.length with hpart' | hwhole'
    · -- the address is still not complete
      have hin : bs ++ data <+: t.encode :=
        List.prefix_of_prefix_length_le hpre (List.prefix_append _ _) hpart'.le
      have hagain : parseSocksaddr (firstPshBytes bs data) = .again := by
        have hfront := firstPshBytes_start bs data
        exact parseSocksaddr_part (hfront.trans hin) (hfront.length_le.trans_lt hpart')
      have hkept := firstPshBytes_again hagain
      have hroom : ¬ maxSocksAddrLen ≤ (firstPshBytes bs data).length := fun hfull =>
        parseSocksaddr_full hfull hagain
      rw [hagain]
      dsimp only
      rw [if_neg hroom]
      refine ⟨not_le.mp hroom, fun _ => ⟨hseen, hkept, n + 1, ?_⟩,
        fun hle => absurd hle (not_le.mpr hpart')⟩
      rw [hwait]
      exact (List.replicate_succ' ..).symm
    · -- the frame completes it
      have hfront : t.encode <+: bs ++ data :=
        List.prefix_of_prefix_length_le (List.prefix_append _ _) hpre hwhole'
      obtain ⟨rest, hrest⟩ := hfront
      rw [firstPshBytes_whole hrest.symm]
      have hempty : (st.firstPshAcc.map fun _ => ([] : Bytes)).getD [] = [] := by
        cases st.firstPshAcc <;> rfl
      refine ⟨?_, fun hlt => absurd hwhole' (not_le.mpr hlt), fun _ =>
        ⟨rfl, n, data.drop (t.encode.length - bs.length), [], ?_, ?_⟩⟩
      · show ((st.firstPshAcc.map fun _ => ([] : Bytes)).getD []).length < _
        rw [hempty]
        decide
      · rw [hwait]
        rfl
      · rw [List.flatten_nil, List.append_nil, List.drop_append,
          List.drop_eq_nil_of_le hpart.le, List.nil_append]
  · obtain ⟨hseen, n, p, qs, hhanded, hbytes⟩ := hc.whole hwhole
    have hseen : st.firstPshSeen = true := hseen
    rw [Stream.psh_seen hseen]
    have hle : t.encode.length ≤ (bs ++ data).length := by
      rw [List.length_append]
      omega
    refine ⟨hc.short, fun hlt => absurd hle (not_le.mpr hlt),
      fun _ => ⟨hseen, n, p, qs ++ [data], ?_, ?_⟩⟩
    · rw [hhanded, List.map_append, List.append_assoc]
      rfl
    · rw [List.flatten_append, ← List.append_assoc, hbytes,
        List.drop_append_of_le_length hwhole]
      simp

section Runs

variable {conf : Conf} {id : UInt32} {h : Handle} {start ac : Connection} {pieces : List Bytes}
  {handed : List Handed}

theorem PshRun.keeps (hs : start.view.Sane) (hm : start.view.Marks)
    (hrun : PshRun conf id h start pieces handed ac) : ac.view.Sane ∧ ac.view.Marks := by
  induction hrun with
  | start => exact ⟨hs, hm⟩
  | between ac' hrun haddr hsane hmarks ih => exact ⟨hsane, hmarks⟩
  | psh data hrun hfind hcan hmem ih => exact forwardClientPayload_keeps conf ih.1 ih.2 hfind hcan

/-- Any number of PSH frames. -/
theorem PshRun.cut (hs : start.view.Sane) (hm : start.view.Marks)
    (hnew : (start.streams h).firstPshSeen = false) (hacc : (start.streams h).firstPshAcc = none)
    {t : SocksTarget} {payload : Bytes}
    (hrun : PshRun conf id h start pieces handed ac)
    (hpre : pieces.flatten <+: t.encode ++ payload) :
    (ac.view.streams h).Cut t pieces.flatten handed := by
  induction hrun with
  | start =>
    have hempty : (start.view.streams h).firstPshAcc.getD [] = [] := by
      show (start.streams h).firstPshAcc.getD [] = []
      rw [hacc]
      rfl
    refine ⟨?_, fun _ => ⟨hnew, hempty, 0, rfl⟩, fun hle => ?_⟩
    · rw [hempty]
      exact Nat.succ_pos _
    have hpos := (parseSocksaddr_consumed (parseSocksaddr_encode t [])).2.1
    exact absurd hle (not_le.mpr hpos)
  | between ac' hrun haddr hsane hmarks ih => exact (ih hpre).sameAddress haddr
  | psh data hrun hfind hcan hmem ih =>
    rw [List.flatten_append, List.flatten_singleton] at hpre ⊢
    have hbefore := ih ((List.prefix_append _ _).trans hpre)
    obtain ⟨hsane, hmarks⟩ := hrun.keeps hs hm
    exact (hbefore.psh hpre).sameAddress
      (forwardClientPayload_address conf hsane hmarks hfind hcan hmem)

/-- However an address and the payload behind it are cut into the PSH frames of a new stream, the
upstream side is handed the target once and then all of the payload in order, as when they come in
one frame. On the way no frame is taken for an error, and the accumulator never holds more bytes
than an address can have. -/
theorem run_firstPsh (hs : start.view.Sane) (hm : start.view.Marks)
    (hnew : (start.streams h).firstPshSeen = false) (hacc : (start.streams h).firstPshAcc = none)
    (t : SocksTarget) (payload : Bytes)
    (hrun : PshRun conf id h start pieces handed ac)
    (hall : pieces.flatten = t.encode ++ payload) :
    (∃ n p, ∃ qs : List Bytes,
      handed = List.replicate n .wait ++ .first t.addr p :: qs.map .next ∧
        p ++ qs.flatten = payload) ∧
      ((start.streams h).psh (t.encode ++ payload)).1 = .first t.addr payload ∧
      (∀ pieces' handed' ac', PshRun conf id h start pieces' handed' ac' →
        pieces'.flatten <+: t.encode ++ payload →
        .error ∉ handed' ∧ ((ac'.streams h).firstPshAcc.getD []).length < maxSocksAddrLen ∧
        ∀ data, (ac'.streams h).firstPshAcc.getD [] ≠ [] →
          (firstPshBytes ((ac'.streams h).firstPshAcc.getD []) data).length ≤ maxSocksAddrLen) ∧
      ∀ (w : Connection) (data : Bytes), streamFind id w = some h →
        canAcceptPayload (w.streams h) = true → w.HasMemory →
        ∃ w' : Connection, w'.streams h = ((w.streams h).psh data).2 ∧
          forwardClientPayload (innerCallbacks conf) id data w =
            ((w.streams h).psh data).1.call (innerCallbacks conf) h w' := by
  have hcut : ∀ {pieces' handed' ac'}, PshRun conf id h start pieces' handed' ac' →
      pieces'.flatten <+: t.encode ++ payload →
      (ac'.view.streams h).Cut t pieces'.flatten handed' := fun hrun' hpre =>
    hrun'.cut hs hm hnew hacc hpre
  refine ⟨?_, ?_, fun pieces' handed' ac' hrun' hpre => ?_, fun w data hfind hcan hmem =>
    forwardClientPayload_call _ hmem hfind hcan⟩
  · have hfinal := hcut hrun (by rw [hall])
    rw [hall] at hfinal
    obtain ⟨-, n, p, qs, hhanded, hbytes⟩ := hfinal.whole (by
      rw [List.length_append]
      omega)
    refine ⟨n, p, qs, hhanded, ?_⟩
    rw [hbytes, List.drop_left]
  · unfold Stream.psh
    rw [hacc]
    dsimp only [Option.getD_none]
    have hparse : parseSocksaddr (firstPshBytes [] (t.encode ++ payload)) =
        .ok t.addr t.encode.length := parseSocksaddr_encode t payload
    rw [if_neg (by rw [hnew]; decide), if_neg (by simp), hparse]
    dsimp only
    rw [List.length_nil, Nat.sub_zero, List.drop_left]
  · have hnow := hcut hrun' hpre
    refine ⟨fun herr => ?_, hnow.short, fun data hsome => firstPshBytes_length hsome hnow.short.le⟩
    rcases Nat.lt_or_ge pieces'.flatten.length t.encode.length with hpart | hwhole
    · obtain ⟨-, -, n, hwait⟩ := hnow.part hpart
      rw [hwait] at herr
      cases List.eq_of_mem_replicate herr
    · obtain ⟨-, n, p, qs, hhanded, -⟩ := hnow.whole hwhole
      rw [hhanded, List.mem_append, List.mem_cons, List.mem_map] at herr
      rcases herr with herr | herr | ⟨q, -, herr⟩
      · cases List.eq_of_mem_replicate herr
      · cases herr
      · cases herr

/-- A stream that a SYN just opened. -/
def newStreamSample : Connection := (streamCreateIfAbsent 1 (Connection.init {})).2

/-- A name cut in its middle, an empty frame, and payload in two frames. -/
theorem run_firstPsh_sample :
    ∃ handed ac, PshRun {} 1 0 newStreamSample [[3, 1], [], [97, 0, 80, 7], [8]] handed ac ∧
      handed = [.wait, .wait, .first (SocksTarget.domain [97] 80 (by decide)).addr [7], .next [8]] ∧
      ∃ n p, ∃ qs : List Bytes,
        handed = List.replicate n .wait ++
          .first (SocksTarget.domain [97] 80 (by decide)).addr p :: qs.map .next ∧
        p ++ qs.flatten = [7, 8] := by
  have hs : newStreamSample.view.Sane := (Handled.openStream 1 _ (init_sane {})).1.sane
  have hm : newStreamSample.view.Marks := by
    have hopen := runAction_feeding {} (.openStream 1) (Connection.init {}) (init_sane {}) nofun
      (init_inOrder {} 0).feeding
    simp only [runAction] at hopen
    exact hopen.1.marks
  have hrun : PshRun {} 1 0 newStreamSample [] [] newStreamSample := .start
  have hrun := hrun.psh [3, 1] (by decide +kernel) (by decide +kernel) (by decide +kernel)
  have hrun := hrun.psh [] (by decide +kernel) (by decide +kernel) (by decide +kernel)
  have hrun := hrun.psh [97, 0, 80, 7] (by decide +kernel) (by decide +kernel) (by decide +kernel)
  have hrun := hrun.psh [8] (by decide +kernel) (by decide +kernel) (by decide +kernel)
  exact ⟨_, _, hrun, by decide +kernel, (run_firstPsh hs hm (by decide +kernel)
    (by decide +kernel) (.domain [97] 80 (by decide)) [7, 8] hrun (by decide)).1⟩

end Runs

end NgxAnytls
