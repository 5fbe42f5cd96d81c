import NgxAnytls.Calls

/-! Client frames refine the abstract session: what the dispatcher does with each action. -/

namespace NgxAnytls

open Relation

/-- Any number of effects of the handling of a client frame. -/
abbrev Handles : View → View → Prop := ReflTransGen HandleAct

/-- A complete call while a client frame is handled. -/
abbrev Handled : View → View → Prop := Call Handles

private theorem steps_handles : Steps Handles where
  refl _ := .refl
  trans := .trans
  send h := .single (.send h)
  note o ho := .single (.act (.note o ho))

theorem InnerAct.handle {v v' : View} (h : InnerAct v v') : HandleAct v v' := by
  cases h with
  | act h => exact .act h
  | send h => exact .send h
  | flags h hin ht => exact .flags h hin ht

theorem QuietAct.inner {v v' : View} (h : QuietAct v v') : InnerAct v v' := by
  cases h with
  | note o ho => exact .act (.note o ho)
  | send h => exact .send h
  | flags h hin ht => exact .flags h hin ht

namespace Handled

variable {a b c v v' : View}

theorem refl (v : View) : Handled v v := fun hs => ⟨.refl hs, .refl⟩

theorem trans (hab : Handled a b) (hbc : Handled b c) : Handled a c :=
  steps_handles.call_trans hab hbc

theorem sane (h : v.Sane → Handled v v') : Handled v v' := fun hs => h hs hs

theorem inner (h : Call (ReflTransGen InnerAct) v v') : Handled v v' := fun hs =>
  ⟨(h hs).1, ReflTransGen.mono (fun _ _ => InnerAct.handle) _ _ (h hs).2⟩

theorem quiet (h : Call (ReflTransGen QuietAct) v v') : Handled v v' :=
  inner fun hs => ⟨(h hs).1, ReflTransGen.mono (fun _ _ => QuietAct.inner) _ _ (h hs).2⟩

theorem act (h : Act v v') : Handled v v' := fun hs => ⟨h.keeps hs, .single (.act h)⟩

theorem dispatch (h : DispatchAct v v') : Handled v v' := fun hs =>
  ⟨h.keeps hs, .single (.dispatch h)⟩

theorem same (h : v.SameFlags v') : Handled v v' :=
  call_input (fun hm ht => .single (.flags hm h.input ht)) h.but.1 h.but.2

end Handled

theorem htFindLoop_some {ac : Connection} {id : UInt32} {n idx : Nat} {h : Handle}
    (hf : htFindLoop ac id n idx = some h) : .used h ∈ ac.ht ∧ (ac.streams h).id = id := by
  induction n generalizing idx with
  | zero => cases hf
  | succ n ih =>
    unfold htFindLoop at hf
    split at hf
    · cases hf
    · exact ih hf
    · next g hslot =>
      split_ifs at hf with hid
      · cases hf
        rw [List.getD_eq_getElem?_getD] at hslot
        cases hget : ac.ht[idx]? with
        | none => simp [hget] at hslot
        | some slot =>
          rw [hget] at hslot
          exact ⟨hslot ▸ List.mem_of_getElem? hget, hid⟩
      · exact ih hf

/-- A stream the table has is one that exists and is open. -/
theorem streamFind_some {ac : Connection} (hs : ac.view.Sane) {id : UInt32} {h : Handle}
    (hf : streamFind id ac = some h) :
    h < ac.nstreams ∧ (ac.streams h).closedByProtocol = false ∧ (ac.streams h).id = id := by
  unfold streamFind at hf
  cases hfind : htFind ac id with
  | none => simp [hfind] at hf
  | some g =>
    obtain ⟨hmem, hid⟩ := htFindLoop_some hfind
    simp only [hfind] at hf
    split_ifs at hf with hc
    cases hf
    exact ⟨hs.table h hmem, by simpa using hc, hid⟩

theorem Handled.openStream (id : UInt32) (ac : Connection) :
    Handled ac.view (streamCreateIfAbsent id ac).2.view := by
  have hnew : Handled ac.view (newStream id ac.allocNext).view := by
    have hview : (newStream id ac.allocNext).view =
        ({ ac.view with nstreams := ac.view.nstreams + 1 }.upd ac.view.nstreams fun _ =>
          Stream.view { id := id }).log (.streamOpen ac.view.nstreams id) := by
      rw [newStream, log_view]
      congr 1
      exact upd_view rfl fun _ => rfl
    rw [hview]
    exact .dispatch (.create id)
  unfold streamCreateIfAbsent streamAlloc
  dsimp only
  cases htFind ac id with
  | some h => exact .refl _
  | none =>
    dsimp only
    split_ifs
    · exact .refl _
    · exact .refl _
    · cases htInsertLoop (newStream id ac.allocNext) (newStream id ac.allocNext).ht.length
        (htIndex (newStream id ac.allocNext) id) with
      | none => exact hnew
      | some idx =>
        exact hnew.trans (.dispatch (.table ac.nstreams idx (Nat.lt_succ_self _)))

/-- The view with payload at the end of the backlog. -/
def View.appended (v : View) (h : Handle) (data : Bytes) : View :=
  (v.upd h fun st => { st with pendingIn := st.pendingIn ++ [{ data := data }] }).log
    (.upAppend h data)

private theorem appendPending_view (h : Handle) (data : Bytes) (ac : Connection) :
    (appendPending h data ac).view = ac.view.appended h data := by
  rw [appendPending, log_view]
  unfold View.appended
  congr 1
  exact upd_view rfl fun _ => rfl

private theorem clientInputPause_same (ac : Connection) :
    ac.view.SameFlags (clientInputPause ac).2.view := by
  unfold clientInputPause
  dsimp only
  split_ifs with hblocked
  · exact ⟨⟨⟨rfl, rfl, rfl, rfl, rfl, rfl, rfl, rfl, rfl, rfl, rfl, rfl⟩, rfl⟩,
      ⟨rfl, id, rfl, rfl, rfl, rfl, rfl, fun _ _ _ => rfl, fun _ _ => hblocked⟩⟩
  · exact ⟨⟨⟨rfl, rfl, rfl, rfl, rfl, rfl, rfl, rfl, rfl, rfl, rfl, rfl⟩, rfl⟩,
      ⟨rfl, id, rfl, rfl, rfl, rfl, rfl, fun _ _ _ => rfl, fun _ _ => rfl⟩⟩

/-- An append puts the payload into the backlog, or finds no memory; then input may pause. -/
theorem upstreamAppend_spec (h : Handle) (data : Bytes) (ac : Connection) :
    ∃ v, v.SameFlags (upstreamAppend h data ac).2.view ∧
      ((v = ac.view ∧ (upstreamAppend h data ac).1 = .error) ∨ v = ac.view.appended h data) := by
  have hview := appendPending_view h data ac.allocNext.allocNext
  have hblock := clientInputPause_same
    (markInputBlocked h (appendPending h data ac.allocNext.allocNext))
  have hpause := clientInputPause_same (appendPending h data ac.allocNext.allocNext)
  rw [Closed.markInputBlocked_view, hview] at hblock
  rw [hview] at hpause
  unfold upstreamAppend
  dsimp only
  split_ifs
  · exact ⟨ac.view, .refl _, .inl ⟨rfl, rfl⟩⟩
  · exact ⟨ac.view, .refl _, .inl ⟨rfl, rfl⟩⟩
  · exact ⟨_, hblock, .inr rfl⟩
  · exact ⟨_, hpause, .inr rfl⟩
  · exact ⟨_, hview ▸ .refl _, .inr rfl⟩

/-- The direct sends give the socket the payload piece by piece. -/
theorem directLoop_spec (h : Handle) (n : Nat) (data : Bytes) (ac : Connection) :
    ∃ bss : List Bytes, (directLoop h n data ac).2.view =
        { ac.view with trace := ac.view.trace ++ bss.map (.upDirect h) } ∧
      (∀ rest, (directLoop h n data ac).1 = some rest → data = bss.flatten ++ rest) ∧
      bss.flatten <+: data := by
  induction n generalizing data ac with
  | zero => exact ⟨[], by simp [directLoop], by simp [directLoop], List.nil_prefix⟩
  | succ n ih =>
    unfold directLoop
    split_ifs with hnil
    · exact ⟨[], by simp, by simp [hnil], List.nil_prefix⟩
    · cases ac.sendRes with
      | error =>
        exact ⟨[], by simp [Connection.view, Connection.sendNext], by simp, List.nil_prefix⟩
      | again =>
        refine ⟨[], ?_, by simp, List.nil_prefix⟩
        dsimp only
        rw [setWriteReady_view]
        simp [Connection.view, Connection.sendNext]
      | done m =>
        dsimp only
        split_ifs
        · exact ⟨[], by simp [Connection.view, Connection.sendNext], by simp, List.nil_prefix⟩
        · obtain ⟨bss, hview, hrest, hpre⟩ := ih (data.drop (min m data.length))
            (setWriteReady h (min m data.length) data.length
              (upDirect h (data.take (min m data.length)) ac.sendNext))
          have hcat := List.take_append_drop (min m data.length) data
          refine ⟨data.take (min m data.length) :: bss, ?_, fun rest hr => ?_, ?_⟩
          · rw [hview, setWriteReady_view]
            simp [Connection.view, Connection.sendNext, upDirect, Connection.log]
          · rw [List.flatten_cons, List.append_assoc, ← hrest rest hr, hcat]
          · rw [List.flatten_cons]
            conv_rhs => rw [← hcat]
            exact (List.prefix_append_right_inj _).mpr hpre

/-- The stream is known and takes payload. -/
structure View.Accepts (v : View) (h : Handle) : Prop where
  known : h < v.nstreams
  inOpen : (v.streams h).inClosed = false

namespace Handled

variable {v v' : View}

theorem append (h : Handle) (data : Bytes) (ac : Connection) (ha : ac.view.Accepts h) :
    Handled ac.view (upstreamAppend h data ac).2.view := by
  obtain ⟨v, hsame, ⟨rfl, -⟩ | rfl⟩ := upstreamAppend_spec h data ac
  · exact .same hsame
  · exact (dispatch (.append h data ha.known ha.inOpen)).trans (.same hsame)

theorem directs (h : Handle) (bss : List Bytes) (v : View) (ha : v.Accepts h)
    (hp : (v.streams h).pendingIn = []) :
    Handled v { v with trace := v.trace ++ bss.map (.upDirect h) } := by
  induction bss generalizing v with
  | nil => simpa using Handled.refl v
  | cons bs bss ih =>
    have hone : Handled v (v.log (.upDirect h bs)) := dispatch (.direct h bs ha.known hp ha.inOpen)
    have hrest := ih (v.log (.upDirect h bs)) ⟨ha.known, ha.inOpen⟩ hp
    simpa [View.log] using hone.trans hrest

theorem direct (h : Handle) (data : Bytes) (ac : Connection) (ha : ac.view.Accepts h) :
    Handled ac.view (upstreamDirect h data ac).2.view := by
  unfold upstreamDirect
  split_ifs with hp
  · exact append h data ac ha
  · obtain ⟨bss, hview, -, -⟩ := directLoop_spec h data.length data ac
    have hsent := directs h bss ac.view ha (not_not.mp hp)
    rw [← hview] at hsent
    have ha' : (directLoop h data.length data ac).2.view.Accepts h := by
      rw [hview]
      exact ⟨ha.known, ha.inOpen⟩
    generalize directLoop h data.length data ac = w at hsent ha' ⊢
    obtain ⟨_ | rest, ac'⟩ := w
    · exact hsent
    · have happ := append h rest ac'.arm.2 ha'
      rw [arm_view] at happ
      dsimp only
      split_ifs
      · exact hsent
      · exact hsent
      · exact hsent.trans happ

/-- A send while a frame is handled. -/
theorem innerSend (conf : Conf) (h : Handle) (maxBytes : Nat) (ac : Connection) :
    Handled ac.view (sendPending (innerCallbacks conf) h maxBytes ac).2.2.view :=
  .quiet (innerSend_quiet conf h maxBytes ac)

theorem innerSend_spec (conf : Conf) (h : Handle) (maxBytes : Nat) (ac : Connection)
    (hs : ac.view.Sane) :
    ac.view.Quiet (sendPending (innerCallbacks conf) h maxBytes ac).2.2.view :=
  quiet_of_steps (innerSend_quiet conf h maxBytes ac hs).2

theorem queue (conf : Conf) (h : Handle) (data : Bytes) (ac : Connection)
    (ha : ac.view.Accepts h) :
    Handled ac.view (upstreamQueue (innerCallbacks conf) h data ac).2.view := by
  refine .sane fun hs => ?_
  have hsend := innerSend conf h sendUnlimited ac
  have hq := innerSend_spec conf h sendUnlimited ac hs
  unfold upstreamQueue
  dsimp only
  generalize sendPending (innerCallbacks conf) h sendUnlimited ac = r at hsend hq ⊢
  have ha' : r.2.2.view.Accepts h :=
    ⟨hq.nstreams ▸ ha.known, (hq.streams h).inClosed.trans ha.inOpen⟩
  split_ifs
  · exact .refl _
  · exact hsend
  · exact hsend.trans (direct h data r.2.2 ha')
  · exact direct h data ac ha
  · exact append h data ac ha

end Handled

/-- The view after a FIN of the client marked its stream. -/
def View.finMarked (v : View) (h : Handle) : View :=
  (v.log (.clientFin h (v.streams h).state)).upd h fun st =>
    { st with closedByProtocol := true, inClosed := true }

theorem markClosedByProtocol_view (h : Handle) (ac : Connection)
    (hc : (ac.streams h).closedByProtocol = false) :
    (markClosedByProtocol h ac).view =
      ac.view.upd h fun st => { st with closedByProtocol := true, inClosed := true } := by
  unfold markClosedByProtocol
  rw [if_neg (by simp [hc])]
  exact upd_view rfl fun _ => rfl

theorem deferShutdown_view (h : Handle) (ac : Connection) :
    (deferShutdown h ac).view = ac.view.upd h fun st => { st with pendingShutdown := true } :=
  upd_view rfl fun _ => rfl

namespace Handled

variable {v v' : View}

theorem halfClose (h : Handle) (ac : Connection) (hstate : (ac.view.streams h).state = .connected)
    (hfin : ClientFin h ac.view.trace) : Handled ac.view (NgxAnytls.halfClose h ac).view := by
  unfold NgxAnytls.halfClose
  split_ifs with hp
  · rw [setState_view, log_view]
    exact dispatch (.halfClose h hp hstate hfin)
  · rw [deferShutdown_view, setState_view, View.upd_upd]
    have hnew : (ac.view.streams h).state.Before .halfClosed := by
      rw [hstate]
      exact ⟨by decide, by decide⟩
    refine (act (.state h .halfClosed hnew)).trans (dispatch ?_)
    exact .deferClose (v := ac.view.log _) h hp hstate (hfin.mono (List.subset_append_left _ _))

theorem clientFin (conf : Conf) (h : Handle) (ac : Connection) (hknown : h < ac.nstreams)
    (hc : (ac.streams h).closedByProtocol = false) :
    Handled ac.view (handleClientFin (innerCallbacks conf) h
      (ac.log (.clientFin h (ac.streams h).state))).view := by
  have hk := closed_inner conf
  have hview : (markClosedByProtocol h (ac.log (.clientFin h (ac.streams h).state))).view =
      ac.view.finMarked h := markClosedByProtocol_view h _ hc
  have hfin : Handled ac.view (ac.view.finMarked h) := dispatch (.fin h hknown hc)
  unfold handleClientFin
  dsimp only
  generalize markClosedByProtocol h (ac.log (.clientFin h (ac.streams h).state)) = ac' at hview ⊢
  rw [← hview] at hfin
  have hmem : ClientFin h ac'.view.trace :=
    ⟨(ac.view.streams h).state, by rw [hview]; simp [View.finMarked]⟩
  have hreason : ∀ w : Connection, ClientFin h w.view.trace → w.view.MayClose h :=
    fun w hm => .inr (.inr (.inr (.inr (.inl hm))))
  refine hfin.trans (.sane fun hs => ?_)
  have hsend := innerSend conf h sendUnlimited ac'
  have hq := innerSend_spec conf h sendUnlimited ac' hs
  have hsub := (hsend hs).1.trace.subset
  generalize sendPending (innerCallbacks conf) h sendUnlimited ac' = r at hsend hq hsub ⊢
  have hmem' : ClientFin h r.2.2.view.trace := hmem.mono hsub
  split_ifs with huot hup
  · have huotClose := hk.act (Act.endLookup (v := ac'.view) h)
    have hclose := hk.close h (uotClose h ac') (hreason _ (by rw [uotClose_view]; exact hmem))
    rw [uotClose_view] at hclose
    exact (inner huotClose).trans (inner hclose)
  · exact hsend.trans (inner (hk.close h r.2.2 (hreason _ hmem')))
  · exact hsend.trans (halfClose h r.2.2 ((hq.streams h).state.trans hup.2) hmem')
  · exact inner (hk.close h ac' (hreason _ hmem))

end Handled

/-- The stream's address is known and nothing was done with it yet. -/
structure View.Starts (v : View) (h : Handle) : Prop extends v.Accepts h, v.Opening h where
  fin : ¬ClientFin h v.trace

theorem View.Starts.sameBut {v v' : View} {h : Handle} (hst : v.Starts h) (hsame : v.SameBut v') :
    v'.Starts h where
  known := hsame.1.nstreams ▸ hst.known
  inOpen := hsame.1.streams ▸ hst.inOpen
  seen := hsame.1.streams ▸ hst.seen
  upstream := hsame.1.streams ▸ hst.upstream
  lookup := hsame.1.streams ▸ hst.lookup
  early := hsame.1.streams ▸ hst.early
  fin := hsame.2 ▸ hst.fin

theorem View.Starts.appended {v : View} {h : Handle} (hst : v.Starts h) (data : Bytes) :
    (v.appended h data).Starts h where
  known := hst.known
  inOpen := by simpa [View.appended] using hst.inOpen
  seen := by simpa [View.appended] using hst.seen
  upstream := by simpa [View.appended] using hst.upstream
  lookup := by simpa [View.appended] using hst.lookup
  early := by simpa [View.appended, StreamView.IsEarly] using hst.early
  fin hc := hst.fin (clientFin_append (by simp) hc)

/-- With no upstream yet payload goes to the backlog. -/
theorem upstreamQueue_starts (k : Callbacks) (h : Handle) (data : Bytes) (ac : Connection)
    (hst : ac.view.Starts h) (hdata : data ≠ []) :
    upstreamQueue k h data ac = upstreamAppend h data ac := by
  have hup : (ac.streams h).upstream.isSome = false := hst.upstream
  unfold upstreamQueue
  rw [if_neg hdata, if_neg (by simp [hup])]

theorem View.Starts.queue (k : Callbacks) (h : Handle) (data : Bytes) (ac : Connection)
    (hst : ac.view.Starts h) (hdata : data ≠ []) :
    (upstreamQueue k h data ac).2.view.Starts h := by
  rw [upstreamQueue_starts k h data ac hst hdata]
  obtain ⟨v, hsame, ⟨rfl, -⟩ | rfl⟩ := upstreamAppend_spec h data ac
  · exact hst.sameBut hsame.but
  · exact (hst.appended data).sameBut hsame.but

/-- An address that is there at once leaves everything as it was. -/
theorem resolveAddr_ok (k : Callbacks) (h : Handle) (target : ResolveTarget) (ac : Connection)
    (hok : (resolveAddr k h target ac).1 = .ok) : (resolveAddr k h target ac).2.view = ac.view := by
  have hsync := resolveSync_view h ac
  have hsync' : (resolveSync h ac.lookupNext).2.view = ac.view := resolveSync_view h ac.lookupNext
  revert hok
  unfold resolveAddr
  dsimp only
  cases ac.lookupRes <;> dsimp only <;> split_ifs <;> simp_all

theorem takeUotSlot_view (h : Handle) (mode : AddrMode) (ac : Connection) :
    (takeUotSlot h mode ac).view =
      (ac.view.log (.setState h (ac.view.streams h).state .connected)).upd h fun st =>
        { st with upstreamType := .uot, state := .connected } := upd_view rfl fun _ => rfl

theorem emptyFirstPsh_view (h : Handle) (ac : Connection) :
    (emptyFirstPsh h ac).view = ac.view.upd h fun st =>
      { st with firstPshAcc := st.firstPshAcc.map fun _ => [] } := upd_view rfl fun _ => rfl

theorem storeFirstPsh_view (h : Handle) (pdata : Bytes) (ac : Connection) :
    (storeFirstPsh h pdata ac).view =
      ac.view.upd h fun st => { st with firstPshAcc := some pdata } :=
  upd_view rfl fun _ => rfl

theorem setFirstPsh_view (h : Handle) (addr : Addr) (ac : Connection) :
    (setFirstPsh h addr ac).view = ac.view.upd h fun st => { st with firstPshSeen := true } :=
  upd_view rfl fun _ => rfl

namespace Handled

variable {v v' : View}

theorem openTcp (conf : Conf) (h : Handle) (addr : Addr) (ac : Connection)
    (hst : ac.view.Starts h) :
    Handled ac.view (upstreamOpen (innerCallbacks conf) h addr ac).2.view := by
  have hk := closed_inner conf
  have hview : (setTarget h addr ac).view = ac.view := setTarget_view h addr ac
  have hres := hk.resolveAddr h .tcp (setTarget h addr ac) (by
    rw [hview]
    exact fun _ => ⟨hst.seen, hst.upstream, hst.early⟩)
  have hok := resolveAddr_ok (innerCallbacks conf) h .tcp (setTarget h addr ac)
  rw [hview] at hres hok
  refine .sane fun hs => ?_
  have hin := inner_of_steps (hres hs).2
  unfold upstreamOpen
  dsimp only
  generalize resolveAddr (innerCallbacks conf) h .tcp (setTarget h addr ac) = r at hres hin hok ⊢
  obtain ⟨rc, ac'⟩ := r
  cases rc with
  | again =>
    refine (inner hres).trans ?_
    dsimp only
    rw [setState_view]
    refine (dispatch (.opening h)).trans (act ?_)
    exact .connecting (v := ((ac'.view.log _).log _)) h ((hin.seen h).trans hst.seen) (fun hc =>
      hst.fin (hin.fin h (clientFin_append (by simp) (clientFin_append (by simp) hc))))
      ⟨ac'.trace, by simp [Connection.view]⟩
  | error => exact inner hres
  | ok =>
    have ho : ac'.view.Opening h := (hok rfl).symm ▸ hst.toOpening
    exact (inner hres).trans (inner (hk.openResolved h ac' ho))

theorem openUot (h : Handle) (addr : Addr) (ac : Connection) (hst : ac.view.Starts h) :
    Handled ac.view (uotOpen h addr ac).2.view := by
  have hslot : Handled ac.view (takeUotSlot h addr.mode ac).view := by
    have hnew : (ac.view.streams h).state.Before .connected :=
      hst.early.elim (fun he => by rw [he]; trivial) fun he => by rw [he]; trivial
    rw [takeUotSlot_view]
    refine (act (.state h .connected hnew)).trans (dispatch ?_)
    exact .openUot (v := ac.view.log _) h hst.seen hst.upstream hst.lookup hst.early
      fun hc => hst.fin (clientFin_append (by simp) hc)
  have hn : (takeUotSlot h addr.mode ac).nstreams = ac.nstreams :=
    congrArg View.nstreams (takeUotSlot_view h addr.mode ac)
  unfold uotOpen
  split_ifs
  · exact .refl _
  · exact hslot.trans (inner ((closed_inner ac.conf).synack h [] _ (hn ▸ hst.known)))

theorem firstPsh (conf : Conf) (h : Handle) (addr : Addr) (payload : Bytes) (ac : Connection)
    (hst : ac.view.Starts h) :
    Handled ac.view (handleFirstPsh (innerCallbacks conf) h addr payload ac).2.view := by
  have hk := closed_inner conf
  have hqueue := queue conf h payload ac hst.toAccepts
  have hst' := fun hne => View.Starts.queue (innerCallbacks conf) h payload ac hst hne
  have huot := openUot h addr ac hst
  have hlimit : h < (uotOpen h addr ac).2.nstreams →
      Handled (uotOpen h addr ac).2.view (synackAndClose (innerCallbacks conf) .uotLimit h
        uotLimitText (uotOpen h addr ac).2).view := fun hknown =>
    inner (hk.synackAndClose .uotLimit h (by decide) (by decide) _ hknown)
  unfold handleFirstPsh
  dsimp only
  split_ifs
  · exact openTcp conf h addr ac hst
  · exact hqueue
  · exact hqueue
  · exact hqueue.trans (openTcp conf h addr _ (hst' (by assumption)))
  · exact .sane fun hs => huot.trans (hlimit (hst.known.trans_le (huot hs).1.nstreams))
  · exact huot
  · exact huot.trans (inner (hk.uotClientPayload h payload _))

/-- A stream that takes payload and has no address yet is ready for one. -/
theorem starts (h : Handle) (addr : Addr) (ac : Connection) (hs : ac.view.Sane)
    (ha : ac.view.Accepts h) (hc : (ac.streams h).closedByProtocol = false)
    (hseen : (ac.streams h).firstPshSeen = false)
    (hstate : (ac.streams h).state ≠ .closing ∧ (ac.streams h).state ≠ .closed) :
    (setFirstPsh h addr ac).view.Starts h := by
  obtain ⟨hup, hlook, hnew, hopen⟩ := (hs.stream h).unseen hseen
  have hearly : (ac.view.streams h).IsEarly := by
    have hstate' : (ac.view.streams h).state ≠ .closing ∧ (ac.view.streams h).state ≠ .closed :=
      hstate
    cases he : (ac.view.streams h).state <;> simp_all [StreamView.IsEarly, StreamView.IsOpen]
  rw [setFirstPsh_view]
  exact {
    known := ha.known
    inOpen := by simpa using ha.inOpen
    seen := by simp
    upstream := by simpa using hup
    lookup := by simpa using hlook
    early := by simpa [StreamView.IsEarly] using hearly
    fin := fun hfin => by
      have hmark := (hs.stream h).marked hfin
      have hview : (ac.view.streams h).closedByProtocol = (ac.streams h).closedByProtocol := rfl
      rw [hview, hc] at hmark
      exact absurd hmark (by decide) }

theorem keepFirstPsh (h : Handle) (pdata : Bytes) (ac : Connection)
    (hseen : (ac.streams h).firstPshSeen = false) :
    Handled ac.view (NgxAnytls.keepFirstPsh h pdata ac).2.view := by
  have hstore : ∀ ac : Connection, (ac.streams h).firstPshSeen = false →
      Handled ac.view (storeFirstPsh h pdata ac).view := fun ac hseen => by
    rw [storeFirstPsh_view]
    exact dispatch (.firstPshAcc h (some pdata) hseen)
  unfold NgxAnytls.keepFirstPsh
  split_ifs
  · exact .refl _
  · exact .refl _
  · exact hstore ac.allocNext hseen
  · exact hstore ac hseen

theorem forwardFirstPsh (conf : Conf) (h : Handle) (data : Bytes) (ac : Connection)
    (ha : ac.view.Accepts h) (hc : (ac.streams h).closedByProtocol = false)
    (hseen : (ac.streams h).firstPshSeen = false)
    (hstate : (ac.streams h).state ≠ .closing ∧ (ac.streams h).state ≠ .closed) :
    Handled ac.view (NgxAnytls.forwardFirstPsh (innerCallbacks conf) h data ac).2.view := by
  have hempty : Handled ac.view (emptyFirstPsh h ac.allocNext).view := by
    rw [emptyFirstPsh_view, View.upd_congr (g := fun st =>
      { st with firstPshAcc := (ac.streams h).firstPshAcc.map fun _ => [] }) _ h rfl]
    exact dispatch (.firstPshAcc h _ hseen)
  have ha' : (emptyFirstPsh h ac.allocNext).view.Accepts h := by
    rw [emptyFirstPsh_view]
    exact ⟨ha.known, by simpa using ha.inOpen⟩
  have hc' : ((emptyFirstPsh h ac.allocNext).streams h).closedByProtocol = false := by
    simpa [emptyFirstPsh, Connection.allocNext] using hc
  have hseen' : ((emptyFirstPsh h ac.allocNext).streams h).firstPshSeen = false := by
    simpa [emptyFirstPsh, Connection.allocNext] using hseen
  have hstate' : ((emptyFirstPsh h ac.allocNext).streams h).state ≠ .closing ∧
      ((emptyFirstPsh h ac.allocNext).streams h).state ≠ .closed := by
    simpa [emptyFirstPsh, Connection.allocNext] using hstate
  unfold NgxAnytls.forwardFirstPsh
  dsimp only
  generalize emptyFirstPsh h ac.allocNext = ac' at hempty ha' hc' hseen' hstate' ⊢
  split_ifs
  · exact .refl _
  · exact .refl _
  · refine hempty.trans (.sane fun hs => ?_)
    cases parseSocksaddr (firstPshBytes ((ac.allocNext.streams h).firstPshAcc.getD []) data)
        ac'.allocOk with
    | again => exact keepFirstPsh h _ ac'.allocNext hseen'
    | error => exact .refl _
    | ok addr consumed =>
      have hst := starts h addr ac'.allocNext hs ha' hc' hseen' hstate'
      have hfirst : Handled ac'.view (setFirstPsh h addr ac'.allocNext).view := by
        rw [setFirstPsh_view]
        exact dispatch (.firstPsh h ha'.known)
      exact hfirst.trans (firstPsh conf h addr _ _ hst)

theorem payload (conf : Conf) (streamId : UInt32) (data : Bytes) (ac : Connection) :
    Handled ac.view
      (NgxAnytls.forwardClientPayload (innerCallbacks conf) streamId data ac).2.view := by
  refine .sane fun hs => ?_
  unfold NgxAnytls.forwardClientPayload
  cases hfind : streamFind streamId ac with
  | none => exact .refl _
  | some h =>
    obtain ⟨hknown, hc, -⟩ := streamFind_some hs hfind
    dsimp only
    split_ifs with hcan hseen
    · exact .refl _
    · have hin : (ac.streams h).inClosed = false := by simp_all [canAcceptPayload]
      have hstate : (ac.streams h).state ≠ .closing ∧ (ac.streams h).state ≠ .closed := by
        simp_all [canAcceptPayload]
      have hpsh : Handled ac.view (ac.log (.psh h data)).view := dispatch (.psh h data hknown hin)
      exact hpsh.trans (forwardFirstPsh conf h data _ ⟨hknown, hin⟩ hc (by simpa using hseen)
        hstate)
    · have hin : (ac.streams h).inClosed = false := by simp_all [canAcceptPayload]
      have hpsh : Handled ac.view (ac.log (.psh h data)).view := dispatch (.psh h data hknown hin)
      refine hpsh.trans ?_
      unfold handleClientPayload
      split_ifs
      · exact inner ((closed_inner conf).uotClientPayload h data _)
      · exact queue conf h data _ ⟨hknown, hin⟩

/-- A frame of no stream. -/
theorem control (cmd : Cmd) (id : UInt32) (data : Bytes) (ac : Connection) :
    Handled ac.view (queueRefFrame none cmd id data ac).2.view :=
  inner ((closed_inner ac.conf).queueData false none cmd id data ac (by simp) (by simp) (by simp))

/-- An action that does not end the session. -/
theorem runAction (conf : Conf) (a : Action) (ac : Connection)
    (hdone : (NgxAnytls.runAction (innerCallbacks conf) a ac).2.1 = false) :
    Handled ac.view (NgxAnytls.runAction (innerCallbacks conf) a ac).2.2.view := by
  cases a with
  | queueControl cmd streamId data => exact control cmd streamId data ac
  | openStream streamId => exact openStream streamId ac
  | forwardClientPayload streamId data => exact payload conf streamId data ac
  | clientFin streamId =>
    refine .sane fun hs => ?_
    unfold NgxAnytls.runAction
    dsimp only
    cases hfind : streamFind streamId ac with
    | none => exact .refl _
    | some h =>
      obtain ⟨hknown, hc, -⟩ := streamFind_some hs hfind
      exact clientFin conf h ac hknown hc
  | protocolError data => cases hdone
  | clientAlert data => cases hdone

theorem sessionActions (conf : Conf) (as : List Action) (rc : Rc) (ac : Connection)
    (hdone : (sessionActionsRun (innerCallbacks conf) as rc ac).2.1 = false) :
    Handled ac.view (sessionActionsRun (innerCallbacks conf) as rc ac).2.2.view := by
  induction as generalizing rc ac with
  | nil => exact .refl _
  | cons a as ih =>
    have hone := runAction conf a ac
    unfold sessionActionsRun at hdone ⊢
    dsimp only at hdone ⊢
    generalize NgxAnytls.runAction (innerCallbacks conf) a ac = r at hone hdone ⊢
    cases hr : r.2.1 with
    | true => simp [hr] at hdone
    | false =>
      simp only [hr, Bool.false_eq_true, if_false] at hdone ⊢
      exact (hone hr).trans (ih _ _ hdone)

/-- The handling of a frame that succeeds, once the frame is recorded. -/
theorem frame (conf : Conf) (f : Frame) (ac : Connection)
    (hok : (processFrame (innerCallbacks conf) f ac).1 = .ok) :
    Handled (ac.log (.frame f)).view (processFrame (innerCallbacks conf) f ac).2.view := by
  have hcore : ∀ core, Handled (ac.log (.frame f)).view
      (setCore core (ac.log (.frame f)).allocNext).view := fun core => dispatch (.core core)
  unfold processFrame at hok ⊢
  dsimp only at hok ⊢
  split_ifs at hok ⊢ with hfail
  rw [not_or, Bool.not_eq_true] at hfail
  exact (hcore _).trans (sessionActions conf _ _ _ hfail.1)

end Handled

/-- Any number of effects of a session. -/
abbrev Reaches : View → View → Prop := ReflTransGen SessionAct

/-- A complete call within a session. -/
abbrev Reached : View → View → Prop := Call Reaches

theorem steps_reaches : Ends Reaches where
  refl _ := .refl
  trans := .trans
  send h := .single (.send h)
  close h := .single (.close h)
  note o ho := .single (.act (.note o ho))

theorem HandleAct.session {v v' : View} (h : HandleAct v v') : SessionAct v v' := by
  cases h with
  | act h => exact .act h
  | send h => exact .send h
  | dispatch h => exact .dispatch h
  | flags h _ ht => exact .input h ht

/-- The record of a frame. -/
theorem SessionAct.frameLog (f : Frame) (ac : Connection) :
    SessionAct ac.view (ac.log (.frame f)).view :=
  .inputLog (.frame f) trivial ⟨rfl, rfl, rfl, rfl, rfl, rfl, rfl, rfl, rfl, rfl, rfl, rfl⟩ rfl

/-- What is called while frames are parsed. -/
theorem closed_reaches (conf : Conf) : Closed (innerCallbacks conf) Reached :=
  steps_reaches.toSteps.callbacks (fun _ h => .single (.act h)) (fun ac =>
    have hsame := innerResume_same ac
    call_input (fun h ht => .single (.input h ht)) hsame.but.1 hsame.but.2) _

/-- What the handling of a frame adds up to: unless it ends the session, only effects that leave
its input and its end alone. -/
structure View.Serves (v v' : View) : Prop where
  reached : Reaches v v'
  handled : .ending ∉ v'.trace → Handles v v'

/-- A complete call of that kind. -/
abbrev Served : View → View → Prop := Call View.Serves

namespace Served

variable {a b c v v' : View}

theorem handled (h : Handled v v') : Served v v' := fun hs =>
  ⟨(h hs).1, ReflTransGen.mono (fun _ _ => HandleAct.session) _ _ (h hs).2, fun _ => (h hs).2⟩

theorem refl (v : View) : Served v v := handled (.refl v)

theorem sane (h : v.Sane → Served v v') : Served v v' := fun hs => h hs hs

theorem trans (hab : Served a b) (hbc : Served b c) : Served a c := by
  intro hs
  obtain ⟨hk, hserve⟩ := hab hs
  obtain ⟨hk', hserve'⟩ := hbc hk.sane
  refine ⟨hk.trans hk', hserve.reached.trans hserve'.reached, fun hend => ?_⟩
  exact (hserve.handled fun hm => hend (hk'.trace.subset hm)).trans (hserve'.handled hend)

/-- The end of a session that a frame asks for. -/
theorem finish (conf : Conf) (ac : Connection) :
    Served ac.view (endSession (innerCallbacks conf) ac).view := by
  intro hs
  have hk := closed_reaches conf
  have hlog := hk.note .ending trivial ac
  have hrest := hk.trans (hk.drain 0 false (ac.log .ending)) (hk.finalize steps_reaches.ending _)
  obtain ⟨hkeeps, hreach⟩ := hk.trans hlog hrest hs
  refine ⟨hkeeps, hreach, fun hend => absurd ?_ hend⟩
  have hsub := (hrest (hlog hs).1.sane).1.trace.subset
  exact hsub (by simp)

theorem runAction (conf : Conf) (a : Action) (ac : Connection) :
    Served ac.view (NgxAnytls.runAction (innerCallbacks conf) a ac).2.2.view := by
  cases hdone : (NgxAnytls.runAction (innerCallbacks conf) a ac).2.1 with
  | false => exact handled (.runAction conf a ac hdone)
  | true =>
    cases a with
    | protocolError data =>
      unfold NgxAnytls.runAction
      dsimp only
      split_ifs
      · exact (handled (.control .alert 0 data ac)).trans (finish conf _)
      · exact finish conf ac
    | clientAlert data => exact finish conf ac
    | clientFin streamId =>
      unfold NgxAnytls.runAction at hdone
      cases hfind : streamFind streamId ac <;> simp [hfind] at hdone
    | _ => cases hdone

theorem sessionActions (conf : Conf) (as : List Action) (rc : Rc) (ac : Connection) :
    Served ac.view (sessionActionsRun (innerCallbacks conf) as rc ac).2.2.view := by
  induction as generalizing rc ac with
  | nil => exact .refl _
  | cons a as ih =>
    have hone := runAction conf a ac
    unfold sessionActionsRun
    dsimp only
    by_cases hdone : (NgxAnytls.runAction (innerCallbacks conf) a ac).2.1
    · rw [if_pos hdone]
      exact hone
    · rw [if_neg hdone]
      exact hone.trans (ih _ _)

/-- The handling of a frame, once it is recorded. -/
theorem frame (conf : Conf) (f : Frame) (ac : Connection) :
    Served (ac.log (.frame f)).view (processFrame (innerCallbacks conf) f ac).2.view := by
  have hcore : ∀ core, Served (ac.log (.frame f)).view
      (setCore core (ac.log (.frame f)).allocNext).view := fun core =>
    handled (.dispatch (.core core))
  unfold processFrame
  dsimp only
  split_ifs
  · exact (hcore _).trans (sessionActions conf _ _ _)
  · exact (hcore _).trans (sessionActions conf _ _ _)

end Served

namespace Reached

variable {a b c v v' : View}

theorem refl (v : View) : Reached v v := fun hs => ⟨.refl hs, .refl⟩

theorem trans (hab : Reached a b) (hbc : Reached b c) : Reached a c :=
  steps_reaches.toSteps.call_trans hab hbc

theorem input (o : Obs) (ho : o.IsInput) (h : v.SameMux v') (ht : v'.trace = v.trace ++ [o]) :
    Reached v v' := fun hs =>
  have hact : SessionAct v v' := .inputLog o ho h ht
  ⟨h.keeps (hact.sane hs) [o] (by simpa using ho) ht, .single hact⟩

theorem frame (conf : Conf) (f : Frame) (ac : Connection) :
    Reached ac.view (processFrame (innerCallbacks conf) f ac).2.view := by
  have hlog : Reached ac.view (ac.log (.frame f)).view :=
    input (.frame f) trivial ⟨rfl, rfl, rfl, rfl, rfl, rfl, rfl, rfl, rfl, rfl, rfl, rfl⟩ rfl
  have hserved := Served.frame conf f ac
  exact hlog.trans fun hs => ⟨(hserved hs).1, (hserved hs).2.reached⟩

end Reached

end NgxAnytls
