import NgxAnytls.Uplink

/-! The upstream socket of a stream takes the payload of its PSH frames, in order and without a byte
sent twice or left out, as long as no send starts inside the account of another one. -/

namespace NgxAnytls

private theorem parseSocksaddr_again_true {bs : Bytes} {b : Bool}
    (h : parseSocksaddr bs b = .again) : parseSocksaddr bs true = .again := by
  unfold parseSocksaddr at h ⊢
  cases bs with
  | nil => rfl
  | cons atyp p =>
    simp only at h ⊢
    split at h
    · exact h
    · exact h
    · cases p with
      | nil => rfl
      | cons len q =>
        simp only at h ⊢
        split_ifs at h with h1 h2
        rw [if_pos h1]
    · cases h

/-- A first PSH is parsed from the front of what was kept and what came. -/
theorem firstPshBytes_start (acc data : Bytes) : firstPshBytes acc data <+: acc ++ data := by
  unfold firstPshBytes
  split_ifs with hnil
  · rw [hnil, List.nil_append]
  · exact (List.prefix_append_right_inj acc).mpr (List.take_prefix _ _)

/-- Nothing is left out of bytes that do not hold a whole address. -/
theorem firstPshBytes_again {acc data : Bytes} {b : Bool}
    (h : parseSocksaddr (firstPshBytes acc data) b = .again) :
    firstPshBytes acc data = acc ++ data := by
  have hshort : (firstPshBytes acc data).length < maxSocksAddrLen :=
    not_le.mp fun hfull => parseSocksaddr_full hfull h
  unfold firstPshBytes at hshort ⊢
  split_ifs at hshort ⊢ with hnil
  · rw [hnil, List.nil_append]
  · rw [List.length_append, List.length_take] at hshort
    rw [List.take_of_length_le (by omega)]

/-- The payload only grows. -/
theorem payloadBytes_append (h : Handle) (s t : List Obs) :
    payloadBytes h s <+: payloadBytes h (s ++ t) := by
  unfold payloadBytes
  rw [pshBytes_append]
  cases hp : parseSocksaddr (pshBytes h s) true with
  | ok a n =>
    have happ := parseSocksaddr_append hp (pshBytes h t)
    have hle := (parseSocksaddr_consumed hp).2.2
    rw [happ]
    dsimp only
    rw [List.drop_append_of_le_length hle]
    exact List.prefix_append _ _
  | again => exact List.nil_prefix
  | error => exact List.nil_prefix

private theorem payloadBytes_congr {h : Handle} {s t : List Obs}
    (hp : pshBytes h t = pshBytes h s) :
    payloadBytes h t = payloadBytes h s := by
  unfold payloadBytes
  rw [hp]

/-- Effects that queue `bs` for the stream, and leave alone what is parsed. -/
structure View.Fill (g : Handle) (bs : Bytes) (v v' : View) : Prop where
  trace : v.trace <+: v'.trace
  nstreams : v'.nstreams = v.nstreams
  psh : ∀ h, pshBytes h v'.trace = pshBytes h v.trace
  queued : ∀ h, queuedBytes h v'.trace = queuedBytes h v.trace ++ if h = g then bs else []
  streams : ∀ h, (v.streams h).Beside (v'.streams h)

section Queueing

variable {v v' : View} {g : Handle}

theorem View.Beside.fill (h : v.Beside v') (g : Handle) : v.Fill g [] v' where
  trace := h.trace
  nstreams := h.nstreams
  psh := h.psh
  queued g' := by rw [ite_self, List.append_nil]; exact h.queued g'
  streams := h.streams

theorem View.Fill.trans {a b c : View} {bs cs : Bytes} (hab : a.Fill g bs b) (hbc : b.Fill g cs c) :
    a.Fill g (bs ++ cs) c where
  trace := hab.trace.trans hbc.trace
  nstreams := hbc.nstreams.trans hab.nstreams
  psh h := (hbc.psh h).trans (hab.psh h)
  queued h := by
    rw [hbc.queued, hab.queued, List.append_assoc]
    split_ifs <;> rfl
  streams h := (hab.streams h).trans (hbc.streams h)

theorem View.SameFlags.beside (h : v.SameFlags v') : v.Beside v' :=
  (h.but.1.idle [] .none (by rw [h.but.2, List.append_nil])).beside

private theorem upstreamAppend_fill (g : Handle) (data : Bytes) (ac : Connection) :
    ∃ bs, ac.view.Fill g bs (upstreamAppend g data ac).2.view ∧ bs <+: data ∧
      ((upstreamAppend g data ac).1 = .ok → bs = data) := by
  obtain ⟨w, hsame, ⟨rfl, herr⟩ | rfl⟩ := upstreamAppend_spec g data ac
  · refine ⟨[], hsame.beside.fill g, List.nil_prefix, fun hok => ?_⟩
    rw [herr] at hok
    cases hok
  · have happ : ac.view.Fill g data (ac.view.appended g data) := by
      refine ⟨List.prefix_append _ _, rfl, fun h => ?_, fun h => ?_, fun h => ?_⟩
      · simp [View.appended, pshBytes]
      · by_cases hg : h = g
        · simp [View.appended, queuedBytes, hg]
        · simp [View.appended, queuedBytes, hg, Ne.symm hg]
      · simp only [View.appended, View.log_streams, View.upd_streams]
        refine View.rel_ite .refl ?_ h
        exact ⟨rfl, rfl, rfl, fun hc => hc, fun hm => hm⟩
    refine ⟨data, ?_, List.prefix_refl _, fun _ => rfl⟩
    have hboth := happ.trans (hsame.beside.fill g)
    rwa [List.append_nil] at hboth

private theorem directLoop_fill (g : Handle) (n : Nat) (data : Bytes) (ac : Connection) :
    ∃ bs, ac.view.Fill g bs (directLoop g n data ac).2.view ∧ bs <+: data ∧
      ∀ rest, (directLoop g n data ac).1 = some rest → data = bs ++ rest := by
  obtain ⟨bss, hview, hrest, hpre⟩ := directLoop_spec g n data ac
  have hpsh : ∀ h, pshBytes h (bss.map (.upDirect g)) = [] := fun h => by
    simp [pshBytes, List.flatMap_map]
  have hqueued : ∀ h, queuedBytes h (bss.map (.upDirect g)) =
      if h = g then bss.flatten else [] := fun h => by
    by_cases hg : h = g
    · simp [queuedBytes, List.flatMap_map, hg, List.flatMap_id']
    · simp [queuedBytes, List.flatMap_map, hg, Ne.symm hg]
  refine ⟨bss.flatten, ?_, hpre, hrest⟩
  rw [hview]
  refine ⟨List.prefix_append _ _, rfl, fun h => ?_, fun h => ?_, fun _ => .refl _⟩
  · rw [pshBytes_append, hpsh, List.append_nil]
  · rw [queuedBytes_append, hqueued]

private theorem upstreamDirect_fill (g : Handle) (data : Bytes) (ac : Connection) :
    ∃ bs, ac.view.Fill g bs (upstreamDirect g data ac).2.view ∧ bs <+: data ∧
      ((upstreamDirect g data ac).1 = .ok → bs = data) := by
  unfold upstreamDirect
  split_ifs
  · exact upstreamAppend_fill g data ac
  · obtain ⟨bs, hfill, hpre, hrest⟩ := directLoop_fill g data.length data ac
    generalize directLoop g data.length data ac = w at hfill hrest ⊢
    obtain ⟨_ | rest, ac'⟩ := w
    · exact ⟨bs, hfill, hpre, nofun⟩
    · have hdata := hrest rest rfl
      have happ := upstreamAppend_fill g rest ac'.arm.2
      rw [arm_view] at happ
      dsimp only
      split_ifs with harm hnil
      · exact ⟨bs, hfill, hpre, nofun⟩
      · refine ⟨bs, hfill, hpre, fun _ => ?_⟩
        rw [hdata, hnil, List.append_nil]
      · obtain ⟨cs, hfill', hpre', hok⟩ := happ
        refine ⟨bs ++ cs, hfill.trans hfill', ?_, fun h => ?_⟩
        · rw [hdata]
          exact (List.prefix_append_right_inj bs).mpr hpre'
        · rw [hdata, hok h]

end Queueing

private theorem ends_beside : Ends View.Beside where
  refl := .refl
  trans := .trans
  send ha := ha.beside
  note o ho := (Act.idle (.note o ho)).beside
  close ha := ha.idle.beside

theorem closed_beside (conf : Conf) : Closed (innerCallbacks conf) (Call View.Beside) :=
  ends_beside.toSteps.callbacks (fun _ h => h.idle.beside) (fun ac =>
    have hsame := innerResume_same ac
    call_input (fun hm ht => (hm.idle [] .none (by rw [ht, List.append_nil])).beside)
      hsame.but.1 hsame.but.2) _

private theorem endSession_beside (conf : Conf) (ac : Connection) :
    Call View.Beside ac.view (endSession (innerCallbacks conf) ac).view := by
  have hk := closed_beside conf
  have hrest := hk.trans (hk.drain 0 false (ac.log .ending)) (hk.finalize ends_beside.ending _)
  exact hk.trans (hk.note .ending trivial ac) hrest

theorem upstreamQueue_fill (conf : Conf) (g : Handle) (data : Bytes) (ac : Connection)
    (hs : ac.view.Sane) :
    ∃ bs, ac.view.Fill g bs (upstreamQueue (innerCallbacks conf) g data ac).2.view ∧
      bs <+: data ∧ ((upstreamQueue (innerCallbacks conf) g data ac).1 = .ok → bs = data) := by
  have hsend := ((closed_beside conf).send g sendUnlimited ac hs).2
  unfold upstreamQueue
  dsimp only
  generalize sendPending (innerCallbacks conf) g sendUnlimited ac = r at hsend ⊢
  split_ifs with hnil
  · exact ⟨[], (View.Beside.refl _).fill g, List.nil_prefix, fun _ => hnil.symm⟩
  · exact ⟨[], hsend.fill g, List.nil_prefix, nofun⟩
  · obtain ⟨bs, hfill, hpre, hok⟩ := upstreamDirect_fill g data r.2.2
    exact ⟨[] ++ bs, (hsend.fill g).trans hfill, hpre, hok⟩
  · exact upstreamDirect_fill g data ac
  · exact upstreamAppend_fill g data ac

/-- A stream that has its first PSH is opened without an effect on payload. -/
theorem openTcp_beside (conf : Conf) (h : Handle) (addr : Addr) (ac : Connection)
    (hst : ac.view.Starts h) (hs : ac.view.Sane) :
    ac.view.Beside (upstreamOpen (innerCallbacks conf) h addr ac).2.view := by
  have hk := closed_beside conf
  have hview : (setTarget h addr ac).view = ac.view := setTarget_view h addr ac
  have hres := hk.resolveAddr h .tcp (setTarget h addr ac) (by
    rw [hview]
    exact fun _ => ⟨hst.seen, hst.upstream, hst.early⟩)
  have hok := resolveAddr_ok (innerCallbacks conf) h .tcp (setTarget h addr ac)
  rw [hview] at hres hok
  obtain ⟨hkeeps, hbeside⟩ := hres hs
  unfold upstreamOpen
  dsimp only
  generalize resolveAddr (innerCallbacks conf) h .tcp (setTarget h addr ac) = r
    at hkeeps hbeside hok ⊢
  obtain ⟨rc, ac'⟩ := r
  cases rc with
  | again =>
    refine hbeside.trans ?_
    dsimp only
    rw [setState_view]
    have hlog : ac'.view.Beside (ac'.view.log (.opening h (ac'.streams h).state)) :=
      .logged _ (fun _ => rfl) fun _ => rfl
    refine hlog.trans ?_
    exact .stream (f := fun st => { st with state := .connecting }) [.setState h _ .connecting]
      (fun _ => rfl) (fun _ => rfl) ⟨rfl, rfl, rfl, fun hc => hc, fun hm => ⟨nofun, hm.2⟩⟩
  | error => exact hbeside
  | ok =>
    have ho : ac'.view.Opening h := (hok rfl).symm ▸ hst.toOpening
    exact hbeside.trans (hk.openResolved h ac' ho hkeeps.sane).2

private theorem streamClose_mark (k : Callbacks) (h : Handle) (ac : Connection)
    (hopen : (ac.streams h).state ≠ .closed) :
    streamClose k h (markClosedByProtocol h ac) = streamClose k h ac := by
  have hstate : ((markClosedByProtocol h ac).streams h).state = (ac.streams h).state := by
    unfold markClosedByProtocol
    split_ifs <;> simp
  have hagain : markClosedByProtocol h (markClosedByProtocol h ac) = markClosedByProtocol h ac := by
    have hflag : ((markClosedByProtocol h ac).streams h).closedByProtocol = true := by
      unfold markClosedByProtocol
      split_ifs with hc
      · exact hc
      · simp
    rw [markClosedByProtocol, if_pos hflag]
  unfold streamClose
  rw [if_neg (hstate ▸ hopen), if_neg hopen, hagain]

/-- A close marks its stream. -/
theorem streamClose_beside (conf : Conf) (h : Handle) (ac : Connection) (hs : ac.view.Sane)
    (hm : ac.view.Marks) (hmay : ac.view.MayClose h) :
    ac.view.Beside (streamClose (innerCallbacks conf) h ac).view ∧
      ((streamClose (innerCallbacks conf) h ac).view.streams h).closedByProtocol := by
  have hk := closed_beside conf
  refine ⟨(hk.close h ac hmay hs).2, ?_⟩
  by_cases hclosed : (ac.streams h).state = .closed
  · rw [streamClose, if_pos hclosed]
    exact (hm h).1 hclosed
  · obtain ⟨hmark, hflag⟩ := hk.markClosedByProtocol_spec h ac
    have hmay' : (markClosedByProtocol h ac).view.MayClose h := by
      unfold markClosedByProtocol
      split_ifs
      · exact hmay
      · exact hmay
    rw [← streamClose_mark (innerCallbacks conf) h ac hclosed]
    exact ((hk.close h _ hmay' (hmark hs).1.sane).2.streams h).marked hflag

private theorem halfClose_beside (h : Handle) (ac : Connection) :
    ac.view.Beside (halfClose h ac).view := by
  unfold halfClose
  split_ifs
  · rw [setState_view, log_view]
    have hlog : ac.view.Beside (ac.view.log (.upShutdown h)) :=
      .logged _ (fun _ => rfl) fun _ => rfl
    refine hlog.trans ?_
    exact .stream (f := fun st => { st with state := .halfClosed }) [.setState h _ .halfClosed]
      (fun _ => rfl) (fun _ => rfl) ⟨rfl, rfl, rfl, fun hc => hc, fun hm => ⟨nofun, hm.2⟩⟩
  · rw [deferShutdown_view, setState_view, View.upd_upd]
    exact .stream (f := fun st => { st with state := .halfClosed, pendingShutdown := true })
      [.setState h (ac.view.streams h).state .halfClosed]
      (fun _ => rfl) (fun _ => rfl) ⟨rfl, rfl, rfl, fun hc => hc, fun hm => ⟨nofun, hm.2⟩⟩

private theorem clientFin_beside (conf : Conf) (h : Handle) (ac : Connection) (hs : ac.view.Sane)
    (hknown : h < ac.nstreams) (hc : (ac.streams h).closedByProtocol = false) :
    ac.view.Beside (handleClientFin (innerCallbacks conf) h
      (ac.log (.clientFin h (ac.streams h).state))).view := by
  have hk := closed_beside conf
  have hview : (markClosedByProtocol h (ac.log (.clientFin h (ac.streams h).state))).view =
      ac.view.finMarked h := markClosedByProtocol_view h _ hc
  have hsane : (ac.view.finMarked h).Sane := DispatchAct.sane (.fin h hknown hc) hs
  have hfin : ac.view.Beside (ac.view.finMarked h) :=
    .stream (f := fun st => { st with closedByProtocol := true, inClosed := true })
      [.clientFin h (ac.view.streams h).state] (fun _ => rfl) (fun _ => rfl)
      ⟨rfl, rfl, rfl, fun _ => rfl, fun _ => ⟨fun _ => rfl, fun _ => rfl⟩⟩
  have hmem : ClientFin h (ac.view.finMarked h).trace := ⟨_, List.mem_append_right _ (.head _)⟩
  unfold handleClientFin
  dsimp only
  generalize markClosedByProtocol h (ac.log (.clientFin h (ac.streams h).state)) = ac' at hview ⊢
  rw [← hview] at hfin hsane hmem
  have hreason : ∀ w : Connection, ClientFin h w.view.trace → w.view.MayClose h :=
    fun w hm => .inr (.inr (.inr (.inr (.inl hm))))
  obtain ⟨hkeeps, hsend⟩ := hk.send h sendUnlimited ac' hsane
  have hmem' := hmem.mono hsend.trace.subset
  generalize sendPending (innerCallbacks conf) h sendUnlimited ac' = r at hkeeps hsend hmem' ⊢
  refine hfin.trans ?_
  split_ifs
  · have hclose := hk.close h (uotClose h ac') (hreason _ (by rw [uotClose_view]; exact hmem))
    have hlookup := hk.act (Act.endLookup (v := ac'.view) h)
    rw [uotClose_view] at hclose
    exact (hk.trans hlookup hclose hsane).2
  · exact hsend.trans (hk.close h r.2.2 (hreason _ hmem') hkeeps.sane).2
  · exact hsend.trans (halfClose_beside h r.2.2)
  · exact (hk.close h ac' (hreason _ hmem) hsane).2

/-- Effects of a PSH of `g` that queue `bs` for it; other streams are left alone. -/
structure View.Take (g : Handle) (bs : Bytes) (v v' : View) : Prop where
  trace : v.trace <+: v'.trace
  nstreams : v'.nstreams = v.nstreams
  psh : ∀ h, pshBytes h v'.trace = pshBytes h v.trace
  queued : ∀ h, queuedBytes h v'.trace = queuedBytes h v.trace ++ if h = g then bs else []
  others : ∀ h, h ≠ g → (v.streams h).Beside (v'.streams h)
  marks : v.Marks → v'.Marks

section Psh

variable {v v' : View} {g : Handle} {bs : Bytes}

theorem View.Fill.take (h : v.Fill g bs v') : v.Take g bs v' where
  trace := h.trace
  nstreams := h.nstreams
  psh := h.psh
  queued := h.queued
  others g' _ := h.streams g'
  marks hm g' := (h.streams g').marks (hm g')

theorem View.Beside.take (h : v.Beside v') (g : Handle) : v.Take g [] v' := (h.fill g).take

theorem View.Take.trans {a b c : View} {cs : Bytes} (hab : a.Take g bs b) (hbc : b.Take g cs c) :
    a.Take g (bs ++ cs) c where
  trace := hab.trace.trans hbc.trace
  nstreams := hbc.nstreams.trans hab.nstreams
  psh h := (hbc.psh h).trans (hab.psh h)
  queued h := by
    rw [hbc.queued, hab.queued, List.append_assoc]
    split_ifs <;> rfl
  others h hne := (hab.others h hne).trans (hbc.others h hne)
  marks hm := hbc.marks (hab.marks hm)

/-- A change of the stream itself that records nothing about payload. -/
theorem View.Take.own {f : StreamView → StreamView} (s : List Obs)
    (hpsh : ∀ h, pshBytes h s = []) (hqueued : ∀ h, queuedBytes h s = [])
    (hmarks : (v.streams g).Marks → (f (v.streams g)).Marks) :
    v.Take g [] { v.upd g f with trace := v.trace ++ s } := by
  refine ⟨List.prefix_append _ _, rfl, fun h => ?_, fun h => ?_, fun h hne => ?_, fun hm h => ?_⟩
  · rw [pshBytes_append, hpsh, List.append_nil]
  · rw [queuedBytes_append, hqueued, ite_self]
  · show (v.streams h).Beside ((v.upd g f).streams h)
    rw [View.upd_streams, if_neg hne]
    exact .refl _
  · show ((v.upd g f).streams h).Marks
    rw [View.upd_streams]
    split_ifs with hg
    · exact hmarks (hm g)
    · exact hm h

theorem View.Take.quiet {f : StreamView → StreamView}
    (hmarks : (v.streams g).Marks → (f (v.streams g)).Marks) : v.Take g [] (v.upd g f) := by
  have htake := View.Take.own (v := v) (g := g) (f := f) [] (fun _ => rfl) (fun _ => rfl) hmarks
  rwa [List.append_nil] at htake

/-- What became of the payload in a first PSH: the stream is over, or it is one for datagrams, or
its upstream was given all of it. -/
def StreamView.Given (st : StreamView) (bs payload : Bytes) : Prop :=
  st.firstPshSeen ∧ (st.closedByProtocol ∨ (st.upstreamType = .uot ∧ bs = []) ∨
    (st.upstreamType ≠ .uot ∧ bs = payload))

theorem StreamView.Given.beside {st st' : StreamView} {payload : Bytes} (h : st.Given bs payload)
    (hb : st.Beside st') : st'.Given bs payload := by
  refine ⟨hb.seen ▸ h.1, ?_⟩
  rw [hb.kind]
  exact h.2.imp_left hb.marked

theorem takeUotSlot_sane (mode : AddrMode) (ac : Connection) (hs : ac.view.Sane)
    (hst : ac.view.Starts g) : (takeUotSlot g mode ac).view.Sane := by
  rw [takeUotSlot_view]
  have hnew : (ac.view.streams g).state.Before .connected :=
    hst.early.elim (fun he => by rw [he]; trivial) fun he => by rw [he]; trivial
  refine DispatchAct.sane ?_ ((Act.state g .connected hnew).sane hs)
  exact .openUot (v := ac.view.log _) g hst.seen hst.upstream hst.lookup hst.early
    fun hc => hst.fin (clientFin_append (by simp) hc)

theorem uotOpen_take (conf : Conf) (addr : Addr) (ac : Connection) (hs : ac.view.Sane)
    (hst : ac.view.Starts g) :
    ac.view.Take g [] (uotOpen g addr ac).2.view ∧
      ((uotOpen g addr ac).2.view.streams g).firstPshSeen ∧
      ((uotOpen g addr ac).1 = .ok →
        ((uotOpen g addr ac).2.view.streams g).upstreamType = .uot) := by
  have hslot : ac.view.Take g [] (takeUotSlot g addr.mode ac).view := by
    rw [takeUotSlot_view]
    exact .own (f := fun st => { st with upstreamType := .uot, state := .connected })
      [.setState g (ac.view.streams g).state .connected] (fun _ => rfl) (fun _ => rfl)
      fun hm => ⟨nofun, hm.2⟩
  have hsane := takeUotSlot_sane addr.mode ac hs hst
  have hknown : g < (takeUotSlot g addr.mode ac).nstreams :=
    hst.known.trans_le hslot.nstreams.ge
  have hsynack := ((closed_beside conf).synack g [] (takeUotSlot g addr.mode ac) hknown hsane).2
  have hseen : ((takeUotSlot g addr.mode ac).view.streams g).firstPshSeen = true := by
    rw [takeUotSlot_view]
    simpa using hst.seen
  have hkind : ((takeUotSlot g addr.mode ac).view.streams g).upstreamType = .uot := by
    rw [takeUotSlot_view]
    simp
  unfold uotOpen
  split_ifs
  · exact ⟨(View.Beside.refl _).take g, hst.seen, nofun⟩
  · exact ⟨hslot.trans (hsynack.take g), (hsynack.streams g).seen.trans hseen,
      fun _ => (hsynack.streams g).kind.trans hkind⟩

private theorem handleFirstPsh_take (conf : Conf) (addr : Addr) (payload : Bytes) (ac : Connection)
    (hs : ac.view.Sane) (hm : ac.view.Marks) (hst : ac.view.Starts g) :
    ∃ bs, ac.view.Take g bs (handleFirstPsh (innerCallbacks conf) g addr payload ac).2.view ∧
      bs <+: payload ∧ ((ac.view.streams g).upstreamType ≠ .uot →
        (handleFirstPsh (innerCallbacks conf) g addr payload ac).1 = .ok →
        ((handleFirstPsh (innerCallbacks conf) g addr payload ac).2.view.streams g).Given bs
          payload) := by
  have hk := closed_beside conf
  have hopen := openTcp_beside conf g addr ac hst hs
  obtain ⟨bs, hfill, hpre, hall⟩ := upstreamQueue_fill conf g payload ac hs
  have hkeeps := (Handled.queue conf g payload ac hst.toAccepts hs).1
  have hst' := fun hne => View.Starts.queue (innerCallbacks conf) g payload ac hst hne
  obtain ⟨huot, hseen, huotKind⟩ := uotOpen_take conf addr ac hs hst
  have hsaneUot := (Handled.openUot g addr ac hst hs).1.sane
  unfold handleFirstPsh
  dsimp only
  generalize upstreamQueue (innerCallbacks conf) g payload ac = r at hfill hall hkeeps hst' ⊢
  have hqueued : (ac.view.streams g).upstreamType ≠ .uot → r.1 = .ok →
      (r.2.view.streams g).Given bs payload := fun hkind hok =>
    ⟨(hfill.streams g).seen.trans hst.seen,
      .inr (.inr ⟨by rw [(hfill.streams g).kind]; exact hkind, hall hok⟩)⟩
  split_ifs with htcp hnil hok hclosed hfail hnil
  · refine ⟨[], hopen.take g, List.nil_prefix, fun hkind _ => ⟨?_, .inr (.inr ⟨?_, hnil.symm⟩)⟩⟩
    · exact (hopen.streams g).seen.trans hst.seen
    · rw [(hopen.streams g).kind]
      exact hkind
  · exact ⟨bs, hfill.take, hpre, fun _ => nofun⟩
  · exact ⟨bs, hfill.take, hpre, fun hkind _ => hqueued hkind (not_not.mp hok)⟩
  · have hrest := openTcp_beside conf g addr r.2 (hst' hnil) hkeeps.sane
    refine ⟨bs ++ [], hfill.take.trans (hrest.take g), by rwa [List.append_nil], fun hkind _ => ?_⟩
    rw [List.append_nil]
    exact (hqueued hkind (not_not.mp hok)).beside (hrest.streams g)
  · -- there is no slot: the stream is closed
    have hsynack := hk.trans (hk.logClose .uotLimit g (uotOpen g addr ac).2)
      (hk.synack g uotLimitText _ (hst.known.trans_le huot.nstreams.ge)) hsaneUot
    have hclose := streamClose_beside conf g
      (sendSynack g uotLimitText (logClose .uotLimit g (uotOpen g addr ac).2)).2
      hsynack.1.sane (hsynack.2.marks (huot.marks hm))
      (.inr (.inr (sendSynack_reason .uotLimit g (by decide) (by decide) _)))
    have hboth := hsynack.2.trans hclose.1
    exact ⟨[] ++ [], huot.trans (hboth.take g), List.nil_prefix, fun _ _ =>
      ⟨(hboth.streams g).seen.trans hseen, .inl hclose.2⟩⟩
  · exact ⟨[], huot, List.nil_prefix, fun _ _ =>
      ⟨hseen, .inr (.inl ⟨huotKind (not_not.mp hfail), rfl⟩)⟩⟩
  · have hpayload := (hk.uotClientPayload g payload (uotOpen g addr ac).2 hsaneUot).2
    exact ⟨[] ++ [], huot.trans (hpayload.take g), List.nil_prefix, fun _ _ =>
      ⟨(hpayload.streams g).seen.trans hseen,
        .inr (.inl ⟨(hpayload.streams g).kind.trans (huotKind (not_not.mp hfail)), rfl⟩)⟩⟩

/-- Where the payload of an open stream is: while its address is not complete its bytes are kept,
and after that everything behind the address was given to the upstream. -/
structure View.Parses (v : View) (h : Handle) : Prop where
  unseen : (v.streams h).firstPshSeen = false →
    (v.streams h).firstPshAcc.getD [] = pshBytes h v.trace ∧
      parseSocksaddr (pshBytes h v.trace) true = .again ∧
      (v.streams h).upstreamType ≠ .uot ∧ queuedBytes h v.trace = []
  seen : (v.streams h).firstPshSeen → (v.streams h).closedByProtocol ∨
    ((v.streams h).upstreamType = .uot ∧ queuedBytes h v.trace = []) ∨
    ((v.streams h).upstreamType ≠ .uot ∧ ∃ a n,
      parseSocksaddr (pshBytes h v.trace) true = .ok a n ∧
        queuedBytes h v.trace = (pshBytes h v.trace).drop n)

/-- What is queued of a stream's payload stands at its front. -/
structure View.Feeds (v : View) (h : Handle) : Prop where
  marks : v.Marks
  fresh : v.nstreams ≤ h → pshBytes h v.trace = [] ∧ queuedBytes h v.trace = []
  within : queuedBytes h v.trace <+: payloadBytes h v.trace

/-- And as long as no input was given up, all of it is queued. -/
structure View.Feeding (v : View) (h : Handle) : Prop extends v.Feeds h where
  parses : h < v.nstreams → NotDropped v.trace → v.Parses h

private theorem payloadBytes_ok {h : Handle} {t : List Obs} {a : Addr} {n : Nat}
    (hp : parseSocksaddr (pshBytes h t) true = .ok a n) :
    payloadBytes h t = (pshBytes h t).drop n := by
  unfold payloadBytes
  rw [hp]

/-- Effects that leave the stream's payload alone. -/
theorem View.Feeding.keep {h : Handle} (hi : v.Feeding h) (ht : v.trace <+: v'.trace)
    (hn : v'.nstreams = v.nstreams) (hp : pshBytes h v'.trace = pshBytes h v.trace)
    (hq : queuedBytes h v'.trace = queuedBytes h v.trace)
    (hst : (v.streams h).Beside (v'.streams h)) (hm : v'.Marks) : v'.Feeding h := by
  refine ⟨⟨hm, fun hlt => ?_, ?_⟩, fun hlt hnd => ⟨fun hseen => ?_, fun hseen => ?_⟩⟩
  · rw [hp, hq]
    exact hi.fresh (hn ▸ hlt)
  · rw [payloadBytes_congr hp, hq]
    exact hi.within
  · rw [hst.acc, hp, hst.kind, hq]
    exact (hi.parses (hn ▸ hlt) (hnd.of_le ht)).unseen (hst.seen ▸ hseen)
  · rw [hp, hst.kind, hq]
    exact ((hi.parses (hn ▸ hlt) (hnd.of_le ht)).seen (hst.seen ▸ hseen)).imp_left hst.marked

theorem View.Feeding.beside {h : Handle} (hi : v.Feeding h) (hb : v.Beside v') : v'.Feeding h :=
  hi.keep hb.trace hb.nstreams (hb.psh h) (hb.queued h) (hb.streams h) (hb.marks hi.marks)

theorem handleClientPayload_fill (conf : Conf) (g : Handle) (data : Bytes) (ac : Connection)
    (hs : ac.view.Sane) :
    ∃ bs, ac.view.Fill g bs (handleClientPayload (innerCallbacks conf) g data ac).2.view ∧
      ((ac.view.streams g).upstreamType = .uot → bs = []) ∧ bs <+: data ∧
      ((ac.view.streams g).upstreamType ≠ .uot →
        (handleClientPayload (innerCallbacks conf) g data ac).1 = .ok → bs = data) := by
  unfold handleClientPayload
  split_ifs with huot
  · have hbeside := ((closed_beside conf).uotClientPayload g data ac hs).2
    exact ⟨[], hbeside.fill g, fun _ => rfl, List.nil_prefix, fun hu => absurd huot hu⟩
  · obtain ⟨bs, hfill, hpre, hall⟩ := upstreamQueue_fill conf g data ac hs
    exact ⟨bs, hfill, fun hu => absurd hu huot, hpre, fun _ => hall⟩

/-- What became of a PSH in front of a complete address, when `bs` of it was given to the upstream:
`all` are the bytes so far. -/
structure StreamView.First (st : StreamView) (ok : Prop) (bs all : Bytes) : Prop where
  within : bs = [] ∨ ∃ a n, parseSocksaddr all true = .ok a n ∧ bs <+: all.drop n
  done : ok → (st.firstPshSeen = false ∧ st.firstPshAcc.getD [] = all ∧
      parseSocksaddr all true = .again ∧ st.upstreamType ≠ .uot ∧ bs = []) ∨
    ∃ a n, parseSocksaddr all true = .ok a n ∧ st.Given bs (all.drop n)

theorem forwardFirstPsh_take (conf : Conf) (data : Bytes) (ac : Connection)
    (hs : ac.view.Sane) (hm : ac.view.Marks) (ha : ac.view.Accepts g)
    (hc : (ac.streams g).closedByProtocol = false) (hseen : (ac.streams g).firstPshSeen = false)
    (hstate : (ac.streams g).state ≠ .closing ∧ (ac.streams g).state ≠ .closed) :
    ∃ bs, ac.view.Take g bs (forwardFirstPsh (innerCallbacks conf) g data ac).2.view ∧
      (parseSocksaddr ((ac.streams g).firstPshAcc.getD []) true = .again →
        (ac.streams g).upstreamType ≠ .uot →
        ((forwardFirstPsh (innerCallbacks conf) g data ac).2.view.streams g).First
          ((forwardFirstPsh (innerCallbacks conf) g data ac).1 = .ok) bs
          ((ac.streams g).firstPshAcc.getD [] ++ data)) := by
  have hview : (emptyFirstPsh g ac.allocNext).view = ac.view.upd g fun st =>
      { st with firstPshAcc := st.firstPshAcc.map fun _ => [] } := emptyFirstPsh_view g ac.allocNext
  have hempty : ac.view.Take g [] (emptyFirstPsh g ac.allocNext).view := by
    rw [hview]
    exact .quiet fun hm => hm
  have hsane : (emptyFirstPsh g ac.allocNext).view.Sane := by
    rw [hview, View.upd_congr (g := fun st =>
      { st with firstPshAcc := (ac.streams g).firstPshAcc.map fun _ => [] }) _ g rfl]
    exact DispatchAct.sane (.firstPshAcc g _ hseen) hs
  have ha' : (emptyFirstPsh g ac.allocNext).view.Accepts g := by
    rw [hview]
    exact ⟨ha.known, by simpa using ha.inOpen⟩
  have hold : ((emptyFirstPsh g ac.allocNext).streams g).closedByProtocol = false ∧
      ((emptyFirstPsh g ac.allocNext).streams g).firstPshSeen = false ∧
      ((emptyFirstPsh g ac.allocNext).streams g).state = (ac.streams g).state ∧
      ((emptyFirstPsh g ac.allocNext).streams g).upstreamType = (ac.streams g).upstreamType := by
    simpa [emptyFirstPsh, Connection.allocNext] using ⟨hc, hseen⟩
  unfold forwardFirstPsh
  dsimp only
  have hacc : (ac.allocNext.streams g).firstPshAcc.getD [] = (ac.streams g).firstPshAcc.getD [] :=
    rfl
  rw [hacc]
  generalize (ac.streams g).firstPshAcc.getD [] = acc at hacc ⊢
  generalize emptyFirstPsh g ac.allocNext = ac' at hempty hsane ha' hold ⊢
  obtain ⟨hc', hseen', hst', hkind'⟩ := hold
  have hrefl : ac.view.Take g [] ac.allocNext.view := (View.Beside.refl _).take g
  split_ifs with halloc hnone
  · exact ⟨[], hrefl, fun _ _ => ⟨.inl rfl, (by rintro ⟨⟩)⟩⟩
  · refine ⟨[], hrefl, fun hagain hkind => ⟨.inl rfl, fun _ => .inl ?_⟩⟩
    rw [hnone.2, List.append_nil]
    exact ⟨hseen, hacc, hagain, hkind, rfl⟩
  · cases hparse : parseSocksaddr (firstPshBytes acc data) ac'.allocOk with
    | error => exact ⟨[], hempty, fun _ _ => ⟨.inl rfl, (by rintro ⟨⟩)⟩⟩
    | again =>
      have hall := firstPshBytes_again hparse
      have hagain := parseSocksaddr_again_true hparse
      rw [hall] at hagain ⊢
      have hstore : ∀ w : Connection, w.view = ac'.view →
          ac.view.Take g [] (storeFirstPsh g (acc ++ data) w).view ∧
          ((ac.streams g).upstreamType ≠ .uot →
            ((storeFirstPsh g (acc ++ data) w).view.streams g).First True [] (acc ++ data)) :=
        fun w hw => by
          rw [storeFirstPsh_view, hw]
          refine ⟨hempty.trans (.quiet fun hm => hm), fun hkind => ⟨.inl rfl, fun _ => .inl ?_⟩⟩
          simp only [View.upd_streams, if_true]
          exact ⟨hseen', rfl, hagain, fun hu => hkind (hkind'.symm.trans hu), trivial⟩
      dsimp only
      unfold NgxAnytls.keepFirstPsh
      split_ifs
      · exact ⟨[], hempty, fun _ _ => ⟨.inl rfl, (by rintro ⟨⟩)⟩⟩
      · exact ⟨[], hempty, fun _ _ => ⟨.inl rfl, (by rintro ⟨⟩)⟩⟩
      · obtain ⟨htake, hfirst⟩ := hstore ac'.allocNext.allocNext rfl
        exact ⟨[], htake, fun _ hkind => ⟨.inl rfl, fun _ => (hfirst hkind).done trivial⟩⟩
      · obtain ⟨htake, hfirst⟩ := hstore ac'.allocNext rfl
        exact ⟨[], htake, fun _ hkind => ⟨.inl rfl, fun _ => (hfirst hkind).done trivial⟩⟩
    | ok addr n =>
      dsimp only
      have hst := Handled.starts g addr ac'.allocNext hsane ha' hc' hseen' (by
        show (ac'.streams g).state ≠ _ ∧ (ac'.streams g).state ≠ _
        rw [hst']
        exact hstate)
      have hset : ac'.view.Take g [] (setFirstPsh g addr ac'.allocNext).view := by
        rw [setFirstPsh_view]
        exact .quiet fun hm => hm
      have hsane' : (setFirstPsh g addr ac'.allocNext).view.Sane := by
        rw [setFirstPsh_view]
        exact DispatchAct.sane (.firstPsh (v := ac'.view) g ha'.known) hsane
      have hboth := hempty.trans hset
      obtain ⟨bs, htake, hpre, hgiven⟩ := handleFirstPsh_take conf addr
        (data.drop (n - acc.length)) _ hsane' (hboth.marks hm) hst
      refine ⟨[] ++ bs, hboth.trans htake, fun hagain hkind => ?_⟩
      have hkindSet : ((setFirstPsh g addr ac'.allocNext).view.streams g).upstreamType ≠ .uot := by
        rw [setFirstPsh_view]
        simp only [View.upd_streams, if_true]
        exact fun hu => hkind (hkind'.symm.trans hu)
      obtain ⟨tail, htail⟩ := firstPshBytes_start acc data
      have hok : parseSocksaddr (acc ++ data) true = .ok addr n := by
        rw [← htail]
        exact parseSocksaddr_append (parseSocksaddr_ok_true hparse) tail
      have hdrop : (acc ++ data).drop n = data.drop (n - acc.length) := by
        rw [List.drop_append, List.drop_eq_nil_of_le (parseSocksaddr_again_append hagain hok).le,
          List.nil_append]
      refine ⟨.inr ⟨addr, n, hok, hdrop ▸ hpre⟩, fun hrc => .inr ⟨addr, n, hok, ?_⟩⟩
      rw [hdrop]
      exact hgiven hkindSet hrc

section Taken

variable {h : Handle} {data : Bytes}

/-- A PSH of another stream. -/
theorem View.Feeding.other (hi : v.Feeding h) (hg : h ≠ g)
    (ht : (v.log (.psh g data)).Take g bs v') : v'.Feeding h := by
  refine hi.keep ((List.prefix_append _ _).trans ht.trace) ht.nstreams ?_ ?_ (ht.others h hg)
    (ht.marks hi.marks)
  · rw [ht.psh, View.log_trace, pshBytes_append]
    simp [pshBytes, Ne.symm hg]
  · rw [ht.queued, if_neg hg, View.log_trace, queuedBytes_append]
    simp [queuedBytes]

theorem View.Take.psh_own (ht : (v.log (.psh h data)).Take h bs v') :
    pshBytes h v'.trace = pshBytes h v.trace ++ data := by
  rw [ht.psh, View.log_trace, pshBytes_append]
  simp [pshBytes]

theorem View.Take.queued_own (ht : (v.log (.psh h data)).Take h bs v') :
    queuedBytes h v'.trace = queuedBytes h v.trace ++ bs := by
  rw [ht.queued, if_pos rfl, View.log_trace, queuedBytes_append]
  simp [queuedBytes]

/-- A PSH of a stream whose address was not complete. -/
theorem View.Feeding.first {ok : Prop} (hi : v.Feeding h) (hknown : h < v.nstreams)
    (hqueued : queuedBytes h v.trace = []) (ht : (v.log (.psh h data)).Take h bs v')
    (hf : (v'.streams h).First ok bs (pshBytes h v.trace ++ data)) :
    v'.Feeds h ∧ (ok → v'.Feeding h) := by
  have hp := ht.psh_own
  have hq : queuedBytes h v'.trace = bs := by rw [ht.queued_own, hqueued, List.nil_append]
  have hknown' : ¬ v'.nstreams ≤ h := not_le.mpr (hknown.trans_le ht.nstreams.ge)
  have hfeeds : v'.Feeds h := by
    refine ⟨ht.marks hi.marks, fun hlt => absurd hlt hknown', ?_⟩
    rw [hq]
    rcases hf.within with hnil | ⟨a, n, hok, hpre⟩
    · rw [hnil]
      exact List.nil_prefix
    · rw [← hp] at hok hpre
      rwa [payloadBytes_ok hok]
  refine ⟨hfeeds, fun hdone => ⟨hfeeds, fun _ _ => ⟨fun hseen => ?_, fun hseen => ?_⟩⟩⟩
  · rcases hf.done hdone with ⟨-, hacc, hagain, hkind, hbs⟩ | ⟨a, n, -, hgiven⟩
    · rw [hp, hq]
      exact ⟨hacc, hagain, hkind, hbs⟩
    · rw [hgiven.1] at hseen
      cases hseen
  · rcases hf.done hdone with ⟨hunseen, -⟩ | ⟨a, n, hok, hgiven⟩
    · rw [hunseen] at hseen
      cases hseen
    · rw [hp, hq]
      exact hgiven.2.imp_right (Or.imp_right fun hall => ⟨hall.1, a, n, hok, hall.2⟩)

/-- A PSH of a stream that has its address. -/
theorem View.Feeding.later {ok : Prop} (hi : v.Feeding h) (hknown : h < v.nstreams)
    (hparses : v.Parses h) (hseen : (v.streams h).firstPshSeen)
    (hc : (v.streams h).closedByProtocol = false) (ht : (v.log (.psh h data)).Fill h bs v')
    (huot : (v.streams h).upstreamType = .uot → bs = []) (hpre : bs <+: data)
    (hall : (v.streams h).upstreamType ≠ .uot → ok → bs = data) :
    v'.Feeds h ∧ (ok → v'.Feeding h) := by
  have hp := ht.take.psh_own
  have hq := ht.take.queued_own
  have hst := ht.streams h
  have hknown' : ¬ v'.nstreams ≤ h := not_le.mpr (hknown.trans_le ht.nstreams.ge)
  have hgiven := (hparses.seen hseen).resolve_left (by simp [hc])
  have hfeeds : v'.Feeds h := by
    refine ⟨ht.take.marks hi.marks, fun hlt => absurd hlt hknown', ?_⟩
    rcases hgiven with ⟨hu, hnil⟩ | ⟨-, a, n, hok, hdrop⟩
    · rw [hq, hnil, huot hu]
      exact List.nil_prefix
    · have hok' : parseSocksaddr (pshBytes h v'.trace) true = .ok a n := by
        rw [hp]
        exact parseSocksaddr_append hok data
      rw [payloadBytes_ok hok', hq, hp, hdrop,
        List.drop_append_of_le_length (parseSocksaddr_consumed hok).2.2]
      exact (List.prefix_append_right_inj _).mpr hpre
  refine ⟨hfeeds, fun hdone => ⟨hfeeds, fun _ _ => ⟨fun hun => ?_, fun _ => .inr ?_⟩⟩⟩
  · rw [hst.seen] at hun
    exact absurd hseen (by simp [show (v.streams h).firstPshSeen = false from hun])
  · rw [hst.kind, hp, hq]
    rcases hgiven with ⟨hu, hnil⟩ | ⟨hu, a, n, hok, hdrop⟩
    · exact .inl ⟨hu, by rw [hnil, huot hu]; rfl⟩
    · refine .inr ⟨hu, a, n, parseSocksaddr_append hok data, ?_⟩
      rw [List.drop_append_of_le_length (parseSocksaddr_consumed hok).2.2, hdrop, hall hu hdone]

end Taken

/-- A PSH gives the upstream of its stream what stands behind the address. -/
theorem forwardClientPayload_feeding (conf : Conf) (h : Handle) (streamId : UInt32) (data : Bytes)
    (ac : Connection) (hs : ac.view.Sane) (hi : ac.view.Feeding h)
    (hkept : PshKept h (forwardClientPayload (innerCallbacks conf) streamId data ac).2.view.trace) :
    (forwardClientPayload (innerCallbacks conf) streamId data ac).2.view.Feeds h ∧
      ((forwardClientPayload (innerCallbacks conf) streamId data ac).1 = .ok →
        (forwardClientPayload (innerCallbacks conf) streamId data ac).2.view.Feeding h) := by
  unfold forwardClientPayload at hkept ⊢
  cases hfind : streamFind streamId ac with
  | none => exact ⟨hi.toFeeds, fun _ => hi⟩
  | some g =>
    obtain ⟨hknown, hc, -⟩ := streamFind_some hs hfind
    simp only [hfind] at hkept
    dsimp only at hkept ⊢
    by_cases hcan : (!canAcceptPayload (ac.streams g)) = true
    · rw [if_pos hcan]
      exact ⟨hi.toFeeds, fun _ => hi⟩
    rw [if_neg hcan] at hkept ⊢
    have hin : (ac.streams g).inClosed = false := by simp_all [canAcceptPayload]
    have hstate : (ac.streams g).state ≠ .closing ∧ (ac.streams g).state ≠ .closed := by
      simp_all [canAcceptPayload]
    have hsane : (ac.log (.psh g data)).view.Sane := DispatchAct.sane (.psh g data hknown hin) hs
    have hparses : ∀ v' : View, h = g → (ac.log (.psh g data)).view.trace <+: v'.trace →
        PshKept h v'.trace → ac.view.Parses h := fun v' hg hle hk => by
      subst hg
      exact hi.parses hknown (hk ac.trace data hle)
    by_cases hseen : (!((ac.log (.psh g data)).streams g).firstPshSeen) = true
    · rw [if_pos hseen] at hkept ⊢
      have hunseen : (ac.streams g).firstPshSeen = false := by simpa using hseen
      obtain ⟨bs, htake, hfirst⟩ := forwardFirstPsh_take conf data (ac.log (.psh g data)) hsane
        hi.marks ⟨hknown, hin⟩ hc hunseen hstate
      by_cases hg : h = g
      · obtain ⟨hacc, hagain, hkind, hqueued⟩ := (hparses _ hg htake.trace hkept).unseen
          (hg ▸ hunseen)
        subst hg
        have hacc : ((ac.log (.psh h data)).streams h).firstPshAcc.getD [] =
          pshBytes h ac.view.trace := hacc
        rw [hacc] at hfirst
        exact hi.first hknown hqueued htake (hfirst hagain hkind)
      · have hother := hi.other hg htake
        exact ⟨hother.toFeeds, fun _ => hother⟩
    · rw [if_neg hseen] at hkept ⊢
      have hseen : (ac.streams g).firstPshSeen = true := by simpa using hseen
      obtain ⟨bs, hfill, huot, hpre, hall⟩ := handleClientPayload_fill conf g data
        (ac.log (.psh g data)) hsane
      by_cases hg : h = g
      · have hp := hparses _ hg hfill.trace hkept
        subst hg
        exact hi.later hknown hp hseen hc hfill huot hpre hall
      · have hother := hi.other hg hfill.take
        exact ⟨hother.toFeeds, fun _ => hother⟩

end Psh

section Frames

variable {v v' : View} {h : Handle}

theorem View.Feeding.create (hi : v.Feeding h) (id : UInt32) :
    View.Feeding (({ v with nstreams := v.nstreams + 1 }.upd v.nstreams fun _ =>
      Stream.view { id := id }).log (.streamOpen v.nstreams id)) h := by
  have hp : pshBytes h (v.trace ++ [.streamOpen v.nstreams id]) = pshBytes h v.trace := by
    simp [pshBytes]
  have hq : queuedBytes h (v.trace ++ [.streamOpen v.nstreams id]) = queuedBytes h v.trace := by
    simp [queuedBytes]
  refine ⟨⟨hi.marks.create id, fun hlt => ?_, ?_⟩, fun hlt hnd => ?_⟩
  · have hlt : v.nstreams + 1 ≤ h := hlt
    rw [View.log_trace, View.upd_trace, hp, hq]
    exact hi.fresh (Nat.le_of_succ_le hlt)
  · rw [View.log_trace, View.upd_trace, hq, payloadBytes_congr hp]
    exact hi.within
  · have hlt : h < v.nstreams + 1 := hlt
    have hnd : NotDropped v.trace := hnd.of_le (List.prefix_append _ _)
    by_cases hh : h = v.nstreams
    · obtain ⟨hpsh, hqueued⟩ := hi.fresh hh.ge
      constructor <;>
        simp only [View.log_trace, View.upd_trace, View.log_streams, View.upd_streams, hp, hq, hpsh,
          hqueued, if_pos hh]
      · exact fun _ => ⟨rfl, rfl, (by rintro ⟨⟩), trivial⟩
      · exact (by rintro ⟨⟩)
    · have hparses := hi.parses (Nat.lt_of_le_of_ne (Nat.lt_succ_iff.mp hlt) hh) hnd
      constructor <;>
        simp only [View.log_trace, View.upd_trace, View.log_streams, View.upd_streams, hp, hq,
          if_neg hh]
      · exact hparses.unseen
      · exact hparses.seen

/-- An action that is not a PSH. -/
theorem runAction_feeding (conf : Conf) (a : Action) (ac : Connection) (hs : ac.view.Sane)
    (ha : ∀ id data, a ≠ .forwardClientPayload id data) (hi : ac.view.Feeding h) :
    (runAction (innerCallbacks conf) a ac).2.2.view.Feeding h ∧
      pshBytes h (runAction (innerCallbacks conf) a ac).2.2.trace = pshBytes h ac.trace := by
  have hk := closed_beside conf
  have hbeside : ∀ w : Connection, ac.view.Beside w.view →
      w.view.Feeding h ∧ pshBytes h w.trace = pshBytes h ac.trace := fun w hb =>
    ⟨hi.beside hb, hb.psh h⟩
  have hcontrol : ∀ cmd id data (w : Connection), Call View.Beside w.view
      (queueRefFrame none cmd id data w).2.view := fun cmd id data w =>
    hk.queueData false none cmd id data w (by simp) (by simp) (by simp)
  cases a with
  | queueControl cmd id data => exact hbeside _ (hcontrol cmd id data ac hs).2
  | openStream id =>
    have hnew : (newStream id ac.allocNext).view =
        ({ ac.view with nstreams := ac.view.nstreams + 1 }.upd ac.view.nstreams fun _ =>
          Stream.view { id := id }).log (.streamOpen ac.view.nstreams id) := by
      rw [newStream, log_view]
      congr 1
      exact upd_view rfl fun _ => rfl
    have hcreated : (newStream id ac.allocNext).view.Feeding h ∧
        pshBytes h (newStream id ac.allocNext).trace = pshBytes h ac.trace := by
      refine ⟨by rw [hnew]; exact hi.create id, ?_⟩
      rw [show (newStream id ac.allocNext).trace = (newStream id ac.allocNext).view.trace from rfl,
        hnew, View.log_trace, View.upd_trace, pshBytes_append]
      simp [pshBytes, Connection.view]
    show (streamCreateIfAbsent id ac).2.view.Feeding h ∧
      pshBytes h (streamCreateIfAbsent id ac).2.trace = pshBytes h ac.trace
    unfold streamCreateIfAbsent streamAlloc
    dsimp only
    cases htFind ac id with
    | some g => exact ⟨hi, rfl⟩
    | none =>
      dsimp only
      split_ifs
      · exact ⟨hi, rfl⟩
      · exact ⟨hi, rfl⟩
      · cases htInsertLoop (newStream id ac.allocNext) (newStream id ac.allocNext).ht.length
          (htIndex (newStream id ac.allocNext) id) with
        | none => exact hcreated
        | some idx =>
          have htable : (newStream id ac.allocNext).view.Beside
              (tableInsert ac.nstreams idx (newStream id ac.allocNext)).view :=
            ⟨List.prefix_refl _, rfl, fun _ => rfl, fun _ => rfl, fun _ => .refl _⟩
          exact ⟨hcreated.1.beside htable, hcreated.2⟩
  | forwardClientPayload id data => exact absurd rfl (ha id data)
  | clientFin id =>
    unfold runAction
    dsimp only
    cases hfind : streamFind id ac with
    | none => exact ⟨hi, rfl⟩
    | some g =>
      obtain ⟨hknown, hc, -⟩ := streamFind_some hs hfind
      exact hbeside _ (clientFin_beside conf g ac hs hknown hc)
  | clientAlert data => exact hbeside _ (endSession_beside conf ac hs).2
  | protocolError data =>
    unfold runAction
    dsimp only
    split_ifs
    · obtain ⟨hkeeps, hfirst⟩ := hcontrol .alert 0 data ac hs
      exact hbeside _ (hfirst.trans (endSession_beside conf _ hkeeps.sane).2)
    · exact hbeside _ (endSession_beside conf ac hs).2

private theorem sessionActions_feeding (conf : Conf) (as : List Action) (rc : Rc) (ac : Connection)
    (hs : ac.view.Sane) (has : ∀ a ∈ as, ∀ id data, a ≠ .forwardClientPayload id data)
    (hi : ac.view.Feeding h) :
    (sessionActionsRun (innerCallbacks conf) as rc ac).2.2.view.Feeding h ∧
      pshBytes h (sessionActionsRun (innerCallbacks conf) as rc ac).2.2.trace =
        pshBytes h ac.trace := by
  induction as generalizing rc ac with
  | nil => exact ⟨hi, rfl⟩
  | cons a as ih =>
    obtain ⟨hone, hpsh⟩ := runAction_feeding conf a ac hs (has a (.head _)) hi
    have hsane := (Served.runAction conf a ac hs).1.sane
    unfold sessionActionsRun
    dsimp only
    by_cases hdone : (runAction (innerCallbacks conf) a ac).2.1
    · rw [if_pos hdone]
      exact ⟨hone, hpsh⟩
    · rw [if_neg hdone]
      obtain ⟨hrest, hpsh'⟩ :=
        ih (if rc = .ok then (runAction (innerCallbacks conf) a ac).1 else rc)
        _ hsane (fun b hb => has b (.tail _ hb)) hone
      exact ⟨hrest, hpsh'.trans hpsh⟩

/-- A frame asks for at most one PSH, and then for nothing else. -/
theorem handleFrame_forwards (core : SessionCore) (f : Frame) (alloc : Bool) :
    (∃ id data, (handleFrame core f alloc).actions = [.forwardClientPayload id data]) ∨
      ∀ a ∈ (handleFrame core f alloc).actions, ∀ id data, a ≠ .forwardClientPayload id data := by
  have hadd : ∀ (r : CoreResult) (a : Action),
      (∀ b ∈ r.actions, ∀ id data, b ≠ .forwardClientPayload id data) →
      (∀ id data, a ≠ .forwardClientPayload id data) →
      ∀ b ∈ (r.add a).actions, ∀ id data, b ≠ .forwardClientPayload id data :=
    fun r a hr ha b hb => by
      unfold CoreResult.add addAction at hb
      split_ifs at hb
      · exact hr b hb
      · rcases List.mem_append.mp hb with hb | hb
        · exact hr b hb
        · exact List.mem_singleton.mp hb ▸ ha
  have hnone : ∀ core', ∀ b ∈ (⟨true, core', []⟩ : CoreResult).actions,
      ∀ id data, b ≠ .forwardClientPayload id data := fun _ b hb => nomatch hb
  unfold handleFrame
  dsimp only
  split <;> try split_ifs
  all_goals first
    | exact .inl ⟨f.streamId, f.data, rfl⟩
    | (right; intro b hb; cases hb; done)
    | (right; exact hadd _ _ (hnone _) nofun)
    | skip
  · right
    unfold handleSettings
    dsimp only
    split_ifs <;> first
      | exact hadd _ _ (hadd _ _ (hnone _) nofun) nofun
      | exact hadd _ _ (hnone _) nofun
      | exact hnone _

/-- A PSH is recorded before anything else is done with it. -/
theorem forwardClientPayload_logged (conf : Conf) (streamId : UInt32) (data : Bytes)
    (ac : Connection) (hs : ac.view.Sane) (hm : ac.view.Marks) :
    (forwardClientPayload (innerCallbacks conf) streamId data ac).2 = ac ∨
      ∃ g bs, (ac.log (.psh g data)).view.Take g bs
        (forwardClientPayload (innerCallbacks conf) streamId data ac).2.view := by
  unfold forwardClientPayload
  cases hfind : streamFind streamId ac with
  | none => exact .inl rfl
  | some g =>
    obtain ⟨hknown, hc, -⟩ := streamFind_some hs hfind
    dsimp only
    by_cases hcan : (!canAcceptPayload (ac.streams g)) = true
    · rw [if_pos hcan]
      exact .inl rfl
    rw [if_neg hcan]
    have hin : (ac.streams g).inClosed = false := by simp_all [canAcceptPayload]
    have hstate : (ac.streams g).state ≠ .closing ∧ (ac.streams g).state ≠ .closed := by
      simp_all [canAcceptPayload]
    have hsane : (ac.log (.psh g data)).view.Sane := DispatchAct.sane (.psh g data hknown hin) hs
    refine .inr ⟨g, ?_⟩
    split_ifs with hseen
    · obtain ⟨bs, htake, -⟩ := forwardFirstPsh_take conf data (ac.log (.psh g data)) hsane hm
        ⟨hknown, hin⟩ hc (by simpa using hseen) hstate
      exact ⟨bs, htake⟩
    · obtain ⟨bs, hfill, -⟩ := handleClientPayload_fill conf g data (ac.log (.psh g data)) hsane
      exact ⟨bs, hfill.take⟩

/-- At every moment of a trace the socket had taken bytes of the payload only, from its front on. -/
def InPayload (h : Handle) (t : List Obs) : Prop :=
  ∀ s, s <+: t → upSent h s <+: payloadBytes h s

private theorem upSent_mono (h : Handle) {s t : List Obs} (hst : s <+: t) :
    upSent h s <+: upSent h t := by
  obtain ⟨u, rfl⟩ := hst
  rw [upSent_append]
  exact List.prefix_append _ _

private theorem pshBytes_mono (h : Handle) {s t : List Obs} (hst : s <+: t) :
    pshBytes h s <+: pshBytes h t := by
  obtain ⟨u, rfl⟩ := hst
  rw [pshBytes_append]
  exact List.prefix_append _ _

/-- No PSH of the stream is handled on the way. -/
theorem InPayload.extend {s t : List Obs} (hi : InPayload h s) (hle : s <+: t)
    (hp : pshBytes h t = pshBytes h s) (hend : upSent h t <+: payloadBytes h t) :
      InPayload h t := by
  intro u hu
  rcases List.prefix_or_prefix_of_prefix hu hle with hus | hsu
  · exact hi u hus
  · have hpu : pshBytes h t = pshBytes h u :=
      (hp.trans ((pshBytes_mono h hsu).eq_of_length (le_antisymm (pshBytes_mono h hsu).length_le (by
        rw [← hp]
        exact (pshBytes_mono h hu).length_le))))
    rw [← payloadBytes_congr hpu]
    exact (upSent_mono h hu).trans hend

/-- A record of which the socket took nothing. -/
theorem InPayload.record {t : List Obs} {o : Obs} (hi : InPayload h t)
    (ho : upSent h [o] = []) : InPayload h (t ++ [o]) := by
  intro u hu
  rcases (List.prefix_concat_iff.mp hu) with rfl | hut
  · rw [upSent_append, ho, List.append_nil]
    exact (hi t (List.prefix_refl t)).trans (payloadBytes_append h t [o])
  · exact hi u hut

/-- What holds between any two effects of a session. -/
structure View.InOrder (v : View) (h : Handle) : Prop where
  feeding : v.Feeding h
  uplink : v.Uplink h
  payload : InPayload h v.trace

theorem View.Uplink.sent_le (hi : v.Uplink h) : upSent h v.trace <+: queuedBytes h v.trace := by
  rcases hi.flow with ⟨-, -, hpre⟩ | ⟨-, hflow⟩
  · exact hpre
  · exact hflow ▸ List.prefix_append _ _

theorem View.InOrder.idle (hi : v.InOrder h) (hidle : v.Idle v') : v'.InOrder h := by
  have hb := hidle.beside
  have hfeeding := hi.feeding.beside hb
  have huplink := hi.uplink.idle hidle
  exact ⟨hfeeding, huplink,
    hi.payload.extend hb.trace (hb.psh h) (huplink.sent_le.trans hfeeding.within)⟩

theorem View.InOrder.send (hi : v.InOrder h) (ha : SendAct v v') (hn : NoOverlap h v'.trace) :
    v'.InOrder h := by
  have hb := ha.beside
  have hfeeding := hi.feeding.beside hb
  have huplink := ha.uplink hn hi.uplink
  exact ⟨hfeeding, huplink,
    hi.payload.extend hb.trace (hb.psh h) (huplink.sent_le.trans hfeeding.within)⟩

private theorem processFrame_feeding (conf : Conf) (f : Frame) (ac : Connection) (hs : ac.view.Sane)
    (hi : ac.view.Feeding h) (hpay : InPayload h ac.trace)
    (hkept : PshKept h (processFrame (innerCallbacks conf) f ac).2.trace)
    (hle : upSent h (processFrame (innerCallbacks conf) f ac).2.trace <+:
      queuedBytes h (processFrame (innerCallbacks conf) f ac).2.trace) :
    (processFrame (innerCallbacks conf) f ac).2.view.Feeds h ∧
      ((processFrame (innerCallbacks conf) f ac).1 = .ok →
        (processFrame (innerCallbacks conf) f ac).2.view.Feeding h) ∧
      InPayload h (processFrame (innerCallbacks conf) f ac).2.trace := by
  have hlogged : ac.view.Beside (ac.log (.frame f)).view :=
    .logged _ (fun _ => rfl) fun _ => rfl
  have hpay' : InPayload h (ac.log (.frame f)).trace := hpay.record rfl
  have hframe := SessionAct.frameLog f ac
  have hsane : ∀ core, (setCore core (ac.log (.frame f)).allocNext).view.Sane := fun core =>
    DispatchAct.sane (.core core) (hframe.sane hs)
  have hcore : ∀ core, (ac.log (.frame f)).view.Beside
      (setCore core (ac.log (.frame f)).allocNext).view := fun _ =>
    ⟨List.prefix_refl _, rfl, fun _ => rfl, fun _ => rfl, fun _ => .refl _⟩
  unfold processFrame at hkept hle ⊢
  dsimp only at hkept hle ⊢
  have hor := handleFrame_forwards (ac.log (.frame f)).core f (ac.log (.frame f)).allocOk
  generalize handleFrame (ac.log (.frame f)).core f (ac.log (.frame f)).allocOk = r
    at hkept hle hor ⊢
  have hi' := hi.beside (hlogged.trans (hcore r.core))
  have hsane' := hsane r.core
  have hpay'' : InPayload h (setCore r.core (ac.log (.frame f)).allocNext).trace := hpay'
  generalize setCore r.core (ac.log (.frame f)).allocNext = ac' at hkept hle hi' hsane' hpay'' ⊢
  have hboth : (sessionActionsRun (innerCallbacks conf) r.actions .ok ac').2.2.view.Feeds h ∧
      ((sessionActionsRun (innerCallbacks conf) r.actions .ok ac').1 = .ok →
        (sessionActionsRun (innerCallbacks conf) r.actions .ok ac').2.2.view.Feeding h) ∧
      InPayload h (sessionActionsRun (innerCallbacks conf) r.actions .ok ac').2.2.trace := by
    have hkept' : PshKept h
      (sessionActionsRun (innerCallbacks conf) r.actions .ok ac').2.2.trace := by
      split_ifs at hkept <;> exact hkept
    have hle' : upSent h (sessionActionsRun (innerCallbacks conf) r.actions .ok ac').2.2.trace <+:
        queuedBytes h (sessionActionsRun (innerCallbacks conf) r.actions .ok ac').2.2.trace := by
      split_ifs at hle <;> exact hle
    rcases hor with ⟨id, data, hactions⟩ | hnone
    · rw [hactions] at hkept' hle' ⊢
      have hrun : sessionActionsRun (innerCallbacks conf) [.forwardClientPayload id data] .ok ac' =
          ((forwardClientPayload (innerCallbacks conf) id data ac').1, false,
            (forwardClientPayload (innerCallbacks conf) id data ac').2) := by
        simp [sessionActionsRun, runAction]
      rw [hrun] at hkept' hle' ⊢
      obtain ⟨hfeeds, hfeeding⟩ := forwardClientPayload_feeding conf h id data ac' hsane' hi' hkept'
      refine ⟨hfeeds, hfeeding, ?_⟩
      rcases forwardClientPayload_logged conf id data ac' hsane' hi'.marks with heq | ⟨g, bs, htake⟩
      · dsimp only
        rw [heq]
        exact hpay''
      · have hpsh : InPayload h (ac'.log (.psh g data)).trace := hpay''.record rfl
        exact hpsh.extend htake.trace (htake.psh h) (hle'.trans hfeeds.within)
    · have hle_trace := (Served.sessionActions conf r.actions .ok ac' hsane').1.trace
      obtain ⟨hfeeding, hpsh⟩ := sessionActions_feeding conf r.actions .ok ac' hsane' hnone hi'
      exact ⟨hfeeding.toFeeds, fun _ => hfeeding,
        hpay''.extend hle_trace hpsh (hle'.trans hfeeding.within)⟩
  split_ifs
  · exact ⟨hboth.1, nofun, hboth.2.2⟩
  · exact hboth

/-- What flows to the upstream over a call, as long as no send overlaps another one and no PSH comes
behind input that was given up. -/
def View.Flowing (h : Handle) (v v' : View) : Prop :=
  v.trace <+: v'.trace ∧
    (NoOverlap h v'.trace → PshKept h v'.trace → v.InOrder h → v'.InOrder h)

theorem View.Idle.flowing (hidle : v.Idle v') : v.Flowing h v' :=
  ⟨hidle.beside.trace, fun _ _ hi => hi.idle hidle⟩

private theorem parsed_flowing (h : Handle) : Parsed (View.Flowing h) where
  refl v := ⟨List.prefix_refl _, fun _ _ hi => hi⟩
  trans hab hbc := ⟨hab.1.trans hbc.1, fun hn hk hi =>
    hbc.2 hn hk (hab.2 (hn.of_le hbc.1) (hk.of_le hbc.1) hi)⟩
  send ha := ⟨ha.beside.trace, fun hn _ hi => hi.send ha hn⟩
  note o ho := (Act.idle (.note o ho)).flowing
  act _ ha := ha.idle.flowing
  input hm ht := (hm.idle [] .none (by rw [ht, List.append_nil])).flowing
  inputLog o ho hm ht := (hm.idle [o] ho.noUplink ht).flowing
  frame conf f rest ac := by
    intro hs
    obtain ⟨hkeeps, hreach⟩ := Reached.frame conf f ac hs
    have hframe := processFrame_feeding (h := h) conf f ac hs
    have hdrop : ∀ w : Connection, w.view.Idle (dropInput rest w).view := fun w =>
      .records [.inputDropped rest]
        (Obs.IsInput.noUplink (o := .inputDropped rest) trivial) rfl rfl rfl
    unfold frameStep
    generalize processFrame (innerCallbacks conf) f ac = r at hkeeps hreach hframe ⊢
    dsimp only
    have hinner : NoOverlap h r.2.trace → PshKept h r.2.trace → ac.view.InOrder h →
        r.2.view.Feeds h ∧ (r.1 = .ok → r.2.view.Feeding h) ∧ r.2.view.Uplink h ∧
          InPayload h r.2.trace := fun hn hk hi => by
      obtain ⟨-, -, huplink⟩ := reaches_uplink hreach hs hn hi.feeding.marks hi.uplink
      obtain ⟨hfeeds, hfeeding, hpay⟩ := hframe hi.feeding hi.payload hk huplink.sent_le
      exact ⟨hfeeds, hfeeding, huplink, hpay⟩
    split_ifs with hrc
    · have hlog : SessionAct r.2.view (dropInput rest r.2).view :=
        .inputLog (.inputDropped rest) trivial
          ⟨rfl, rfl, rfl, rfl, rfl, rfl, rfl, rfl, rfl, rfl, rfl, rfl⟩ rfl
      have hkeeps' : r.2.view.Keeps (dropInput rest r.2).view :=
        View.SameMux.keeps ⟨rfl, rfl, rfl, rfl, rfl, rfl, rfl, rfl, rfl, rfl, rfl, rfl⟩
          (hlog.sane hkeeps.sane) [.inputDropped rest] (by simp [Obs.IsInput]) rfl
      have hle : r.2.trace <+: (dropInput rest r.2).trace := List.prefix_append _ _
      refine ⟨hkeeps.trans hkeeps', hkeeps.trace.trans hle, fun hn hk hi => ?_⟩
      obtain ⟨hfeeds, -, huplink, hpay⟩ := hinner (hn.of_le hle) (hk.of_le hle) hi
      have hidle := hdrop r.2
      have hstay : (dropInput rest r.2).view.Feeding h := by
        refine ⟨⟨hfeeds.marks, fun hlt => ?_, ?_⟩, fun _ hnd => absurd ?_ (hnd rest)⟩
        · have hb := hidle.beside
          rw [hb.psh h, hb.queued h]
          exact hfeeds.fresh hlt
        · have hb := hidle.beside
          rw [hb.queued h, payloadBytes_congr (hb.psh h)]
          exact hfeeds.within
        · simp [dropInput, Connection.view, Connection.log]
      exact ⟨hstay, huplink.idle hidle, hpay.record rfl⟩
    · refine ⟨hkeeps, hkeeps.trace, fun hn hk hi => ?_⟩
      obtain ⟨-, hfeeding, huplink, hpay⟩ := hinner hn hk hi
      exact ⟨hfeeding (not_not.mp hrc), huplink, hpay⟩

private theorem ended_flowing (h : Handle) : Ended (View.Flowing h) where
  toFed := (parsed_flowing h).fed
  close ha := ha.idle.flowing

theorem init_inOrder (conf : Conf) (h : Handle) : (Connection.init conf).view.InOrder h where
  feeding := ⟨⟨fun _ => ⟨nofun, nofun⟩, fun _ => ⟨rfl, rfl⟩, List.nil_prefix⟩, nofun⟩
  uplink := ⟨fun _ => ⟨rfl, rfl, rfl⟩, .inr ⟨Nat.zero_le _, rfl⟩⟩
  payload s hs := by
    rw [List.prefix_nil.mp hs]
    exact List.nil_prefix

end Frames

/-- At every moment of a run the upstream socket of a stream has taken a front part of the stream's
payload, whatever it takes at a time and wherever input pauses, as long as no bytes of the backlog
are sent inside the account of an earlier send and no PSH of the stream is handled once input was
given up. -/
theorem run_uplink (conf : Conf) (es : List (Event × Env)) (h : Handle)
    (hn : NoOverlap h (run conf es).trace) (hk : PshKept h (run conf es).trace) :
    ∀ s, s <+: (run conf es).trace → upSent h s <+: payloadBytes h s :=
  (((ended_flowing h).run conf es).2.2 hn hk (init_inOrder conf h)).payload

theorem PshKept.of_kept {h : Handle} {t : List Obs} (hn : NotDropped t) : PshKept h t := by
  intro s data hle
  exact hn.of_le ((List.prefix_append s _).trans hle)

/-- Whether the record at `i` is a send inside the account of an earlier one. -/
def overlaps (h : Handle) (t : List Obs) (i : Nat) : Bool :=
  match t[i]? with
  | some (.upChain g bs) => g == h && bs ≠ [] && unacc h (t.take i) ≠ 0
  | _ => false

theorem NoOverlap.of_all {h : Handle} {t : List Obs}
    (hall : ∀ i ∈ List.range t.length, overlaps h t i = false) : NoOverlap h t := by
  rintro s bs ⟨u, rfl⟩ hne
  have hone := hall s.length (List.mem_range.mpr (by simp))
  have hget : (s ++ [Obs.upChain h bs] ++ u)[s.length]? = some (.upChain h bs) := by simp
  have htake : (s ++ [Obs.upChain h bs] ++ u).take s.length = s := by simp
  unfold overlaps at hone
  rw [hget, htake] at hone
  by_contra hun
  simp [hne, hun] at hone

theorem run_uplink_pausing : upSent 0 (run sampleConf pausingRun).trace <+:
    payloadBytes 0 (run sampleConf pausingRun).trace :=
  run_uplink sampleConf pausingRun 0 (.of_all (by decide)) (.of_kept pausingRun_kept) _
    List.prefix_rfl

/-- Two PSH frames wait in the backlog and a third one is held back; the socket then takes all of
the backlog. -/
def resentRun : List (Event × Env) :=
  [sampleOpen sampleV2 sampleTarget { connect := [.ok], send := [.again] },
    sampleRead (encodeFrame 2 1 [1, 2, 3] ++ encodeFrame 2 1 [4] ++ encodeFrame 2 1 [5])
      { send := [.again, .again] },
    (.upstreamWrite 0 false true, { chain := [.done 4, .done 1], send := [.done 1] })]

/-- The held-back PSH is parsed while the second frame is not accounted, and sends it once more. -/
theorem payload_resent :
    ¬ (upSent 0 (run sampleConf resentRun).trace <+:
      payloadBytes 0 (run sampleConf resentRun).trace) ∧
    upSent 0 (run sampleConf resentRun).trace = [1, 2, 3, 4, 4, 5] ∧
    payloadBytes 0 (run sampleConf resentRun).trace = [1, 2, 3, 4, 5] := by
  refine ⟨by decide, by decide +kernel, by decide +kernel⟩

end NgxAnytls
