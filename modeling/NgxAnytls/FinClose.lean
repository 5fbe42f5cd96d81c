import NgxAnytls.UotPacket
import NgxAnytls.Wire

/-! Closing a stream with a FIN: what a stream that is closing or closed goes through while
held-back input is parsed, and what a control frame that cannot be queued leaves behind. -/

namespace NgxAnytls

/-- The stream is closing or closed. -/
def StreamState.Ended (s : StreamState) : Prop := s = .closing ∨ s = .closed

instance (s : StreamState) : Decidable s.Ended := inferInstanceAs (Decidable (_ ∨ _))

/-- The stream was not just reported to wait for its lookup. -/
def NotJustOpening (h : Handle) (t : List Obs) : Prop := ∀ s, .opening h s ∉ t.reverse.take 2

/-- The stream is closing or closed for good. -/
structure View.Shut (v : View) (h : Handle) : Prop where
  known : h < v.nstreams
  protocol : (v.streams h).closedByProtocol = true
  state : (v.streams h).state.Ended
  waits : NotJustOpening h v.trace

/-- A stream that is closing or closed stays so. -/
def View.KeepsShut (h : Handle) (v v' : View) : Prop := v.Shut h → v'.Shut h

/-- The same of one stream. -/
def StreamView.KeepsShut (st st' : StreamView) : Prop :=
  st.closedByProtocol = true → st.state.Ended →
    st'.closedByProtocol = true ∧ st'.state.Ended

/-- No lookup of the stream is reported in these records. -/
def NoOpening (h : Handle) (s : List Obs) : Prop := ∀ st, .opening h st ∉ s

section Effects

variable {v v' : View} {h : Handle}

theorem StreamView.KeepsShut.refl (st : StreamView) : st.KeepsShut st := fun hp hs => ⟨hp, hs⟩

theorem StreamView.KeepsShut.trans {a b c : StreamView} (hab : a.KeepsShut b)
    (hbc : b.KeepsShut c) : a.KeepsShut c := fun hp hs =>
  have hb := hab hp hs
  hbc hb.1 hb.2

theorem View.KeepsShut.refl (v : View) : v.KeepsShut h v := id

theorem View.KeepsShut.trans {a b c : View} (hab : a.KeepsShut h b) (hbc : b.KeepsShut h c) :
    a.KeepsShut h c := hbc ∘ hab

theorem NotJustOpening.append {t s : List Obs} (ht : NotJustOpening h t) (hs : NoOpening h s) :
    NotJustOpening h (t ++ s) := by
  intro st hm
  rw [List.reverse_append, List.take_append, List.mem_append] at hm
  rcases hm with hm | hm
  · exact hs st (List.mem_reverse.mp (List.mem_of_mem_take hm))
  · exact ht st (List.take_subset_take_left _ (Nat.sub_le _ _) hm)

theorem NoOpening.one {o : Obs} (ho : ∀ st, o ≠ .opening h st) : NoOpening h [o] := by
  intro st hm
  exact ho st (List.mem_singleton.mp hm).symm

theorem View.KeepsShut.records (s : List Obs) (hs : NoOpening h s) (ht : v'.trace = v.trace ++ s)
    (hn : v.nstreams ≤ v'.nstreams)
    (hst : h < v.nstreams → (v.streams h).KeepsShut (v'.streams h)) : v.KeepsShut h v' := by
  intro hv
  obtain ⟨hprotocol, hstate⟩ := hst hv.known hv.protocol hv.state
  exact ⟨hv.known.trans_le hn, hprotocol, hstate, ht ▸ hv.waits.append hs⟩

theorem View.KeepsShut.logged (o : Obs) (ho : ∀ st, o ≠ .opening h st) :
    v.KeepsShut h (v.log o) :=
  .records [o] (.one ho) rfl le_rfl fun _ => .refl _

/-- Effects on flags and counters of a session. -/
theorem View.KeepsShut.same (hm : v.SameMux v') (s : List Obs) (hs : NoOpening h s)
    (ht : v'.trace = v.trace ++ s) : v.KeepsShut h v' :=
  .records s hs ht hm.nstreams.ge fun _ => hm.streams ▸ .refl _

/-- An effect on one stream. -/
theorem View.KeepsShut.stream {g : Handle} {f : StreamView → StreamView} {w : View}
    (hv : v' = w.upd g f) (ht : w.trace = v.trace) (hn : w.nstreams = v.nstreams)
    (hw : w.streams = v.streams)
    (hst : (v.streams g).KeepsShut (f (v.streams g))) : v.KeepsShut h v' := by
  subst hv
  refine .records [] (fun _ => List.not_mem_nil) ?_ hn.ge fun _ => ?_
  · rw [List.append_nil]
    exact ht
  · rw [View.upd_streams, hw]
    exact View.rel_ite .refl hst h

theorem Act.keepsShut (ha : Act v v') : v.KeepsShut h v' := by
  have hnil : NoOpening h [] := fun _ => List.not_mem_nil
  cases ha with
  | note o ho => exact .logged o fun st he => by rw [he] at ho; exact ho
  | state | clamped | take =>
    refine .records [_] (.one ?_) rfl le_rfl fun _ => .refl _
    intro st he
    cases he
  | queue owner f id body route =>
    have hqueue : v.KeepsShut h (v.enqueue owner f route) := by
      refine .records [] hnil ?_ (View.enqueue_nstreams ..).ge fun _ =>
        View.rel_enqueue (r := StreamView.KeepsShut) .refl (fun _ _ _ => .trans)
          (fun _ _ _ _ => .refl _) (fun _ _ => .refl _) h
      rw [View.enqueue_trace, List.append_nil]
    exact hqueue.trans (.logged _ fun st he => by cases he)
  | link =>
    refine .records _ (fun st hm => ?_) rfl le_rfl fun _ => .refl _
    obtain ⟨f, -, hf⟩ := List.mem_map.mp hm
    cases hf
  | retire f fs =>
    refine .records [] hnil ?_ (View.retire_nstreams ..).ge fun _ =>
      View.rel_retire (r := StreamView.KeepsShut) .refl (fun _ _ _ _ => .refl _) h
    rw [View.retire_trace, List.append_nil]
  | unqueueClosing | untable | pause | unblock =>
    exact .records [] hnil (List.append_nil _).symm le_rfl fun _ => .refl _
  | closing g =>
    refine View.KeepsShut.trans
      (b := v.upd g fun st => { st with state := .closing, lookup := false })
      (.stream rfl rfl rfl rfl fun hp _ => ⟨hp, .inl rfl⟩) ?_
    exact .records [.streamClosing g] (.one fun st he => by cases he) rfl le_rfl fun _ => .refl _
  | closed g =>
    refine View.KeepsShut.trans
      (b := v.upd g fun st => { st with state := .closed, lookup := false })
      (.stream rfl rfl rfl rfl fun hp _ => ⟨hp, .inr rfl⟩) ?_
    exact .logged (.streamClosed g) fun st he => by cases he
  | discard g =>
    refine View.KeepsShut.trans (b := v.upd g fun st => { st with pendingIn := [] })
      (.stream rfl rfl rfl rfl (.refl _)) ?_
    exact .logged (.upDiscard g) fun st he => by cases he
  | openUpstream g _ _ _ hearly =>
    refine View.KeepsShut.trans
      (b := v.upd g fun st => { st with hasUpstream := true, state := .connecting }) ?_
      (.logged (.upConnect g) fun st he => by cases he)
    refine .stream rfl rfl rfl rfl fun _ hs => ?_
    rcases hearly with he | he <;> rw [he] at hs <;> exact absurd hs (by decide)
  | connecting g _ _ hopening =>
    -- the report that the lookup is pending would be the record before the last
    intro hv
    by_cases hg : h = g
    · subst hg
      obtain ⟨t, ht⟩ := hopening
      have hwaits := hv.waits (v.streams h).state
      rw [ht] at hwaits
      exact absurd (by simp) hwaits
    · have hother : v.KeepsShut h (v.upd g fun st => { st with state := .connecting }) := by
        refine .records [] hnil (List.append_nil _).symm le_rfl fun _ => ?_
        rw [View.upd_streams, if_neg hg]
        exact .refl _
      exact hother hv
  | connected g _ hstate =>
    refine .stream (w := v) rfl rfl rfl rfl fun _ hs => ?_
    rw [hstate] at hs
    exact absurd hs (by decide)
  | markClosed g => exact .stream (w := v) rfl rfl rfl rfl fun _ hs => ⟨rfl, hs⟩
  | schedule g f fs =>
    exact .stream (w := { v with dataOut := v.dataOut ++ [f] }) rfl rfl rfl rfl (.refl _)
  | dropOut g =>
    exact .stream (w := { v with
      frames := v.frames - (v.streams g).out.length
      pendingOutput := (v.streams g).out.foldl (fun n (f : OutFrame) => n - f.length)
        v.pendingOutput }) (g := g) rfl rfl rfl rfl (.refl _)
  | synack g | dropUpstream g | lookup g | endLookup g =>
    exact .stream (w := v) rfl rfl rfl rfl (.refl _)

theorem SendAct.keepsShut (ha : SendAct v v') : v.KeepsShut h v' := by
  cases ha with
  | chain g bs => exact .logged (.upChain g bs) fun st he => by cases he
  | account g _ _ n =>
    refine View.KeepsShut.trans
      (b := v.upd g fun st => { st with pendingIn := accountHead n st.pendingIn })
      (.stream rfl rfl rfl rfl (.refl _)) ?_
    exact .logged (.upAccount g n) fun st he => by cases he
  | pop g => exact .stream (w := v) rfl rfl rfl rfl (.refl _)
  | shutdown g =>
    refine View.KeepsShut.trans (b := v.upd g fun st => { st with pendingShutdown := false })
      (.stream rfl rfl rfl rfl (.refl _)) ?_
    exact .logged (.upShutdown g) fun st he => by cases he

theorem EndAct.keepsShut (ha : EndAct v v') : v.KeepsShut h v' := by
  cases ha with
  | finalizing =>
    exact .records [] (fun _ => List.not_mem_nil) (List.append_nil _).symm le_rfl fun _ => .refl _
  | finalized rc => exact .logged (.finalize rc) fun st he => by cases he

private theorem ends_shut (h : Handle) : Ends (View.KeepsShut h) where
  refl := .refl
  trans := .trans
  send ha := ha.keepsShut
  note o ho := (Act.note o ho).keepsShut
  close ha := ha.keepsShut

/-- What is called while frames are parsed. -/
theorem closed_shut (h : Handle) (conf : Conf) :
    Closed (innerCallbacks conf) (Call (View.KeepsShut h)) :=
  (ends_shut h).toSteps.callbacks (fun _ ha => ha.keepsShut) (fun ac =>
    have hsame := innerResume_same ac
    call_input (fun hm ht => .same hm [] (fun _ => List.not_mem_nil)
      (by rw [ht, List.append_nil])) hsame.but.1 hsame.but.2) _

/-- Only the report of a lookup needs to be of another stream. -/
theorem DispatchAct.keepsShut (ha : DispatchAct v v')
    (ho : ∀ st s, v'.trace ≠ v.trace ++ .opening h st :: s) : v.KeepsShut h v' := by
  cases ha with
  | psh g data => exact .logged (.psh g data) fun st he => by cases he
  | direct g bs => exact .logged (.upDirect g bs) fun st he => by cases he
  | opening g =>
    have hne : g ≠ h := by
      rintro rfl
      exact ho _ [_] (List.append_assoc v.trace [_] [_])
    have hlog : v.KeepsShut h (v.log (.opening g (v.streams g).state)) :=
      .logged _ fun st he => by
        cases he
        exact hne rfl
    exact hlog.trans (.logged _ fun st he => by cases he)
  | core | table =>
    exact .records [] (fun _ => List.not_mem_nil) (List.append_nil _).symm le_rfl fun _ => .refl _
  | create id =>
    intro hv
    have hne : h ≠ v.nstreams := hv.known.ne
    refine View.KeepsShut.records (v := v) [.streamOpen v.nstreams id]
      (.one fun st he => by cases he)
      rfl (Nat.le_succ _) (fun _ => ?_) hv
    rw [View.log_streams, View.upd_streams, if_neg hne]
    exact .refl _
  | fin g =>
    have hlog : v.KeepsShut h (v.log (.clientFin g (v.streams g).state)) :=
      .logged _ fun st he => by cases he
    exact hlog.trans (.stream (w := v.log (.clientFin g (v.streams g).state)) rfl rfl rfl rfl
      fun _ hs => ⟨rfl, hs⟩)
  | firstPshAcc g | firstPsh g => exact .stream (w := v) rfl rfl rfl rfl (.refl _)
  | openUot g _ _ _ hearly =>
    refine .stream (w := v) rfl rfl rfl rfl fun _ hs => ?_
    rcases hearly with he | he <;> rw [he] at hs <;> exact absurd hs (by decide)
  | append g bs =>
    refine View.KeepsShut.trans
      (b := v.upd g fun st => { st with pendingIn := st.pendingIn ++ [{ data := bs }] })
      (.stream rfl rfl rfl rfl (.refl _)) ?_
    exact .logged (.upAppend g bs) fun st he => by cases he
  | halfClose g _ hstate =>
    have hlog : v.KeepsShut h
        ((v.log (.upShutdown g)).log (.setState g (v.streams g).state .halfClosed)) :=
      (View.KeepsShut.logged _ fun st he => by cases he).trans
        (.logged _ fun st he => by cases he)
    refine hlog.trans (.stream (w := (v.log _).log _) rfl rfl rfl rfl fun _ hs => ?_)
    have hs' : (v.streams g).state.Ended := hs
    rw [hstate] at hs'
    exact absurd hs' (by decide)
  | deferClose g _ hstate =>
    refine .stream (w := v) rfl rfl rfl rfl fun _ hs => ?_
    rw [hstate] at hs
    exact absurd hs (by decide)

end Effects

/-- A complete call that leaves the stream closing or closed. -/
abbrev Spares (h : Handle) : View → View → Prop := Call (View.KeepsShut h)

namespace Spares

variable {a b c v v' : View} {h g : Handle}

theorem refl (v : View) : Spares h v v := fun hs => ⟨.refl hs, .refl v⟩

theorem trans (hab : Spares h a b) (hbc : Spares h b c) : Spares h a c :=
  (ends_shut h).toSteps.call_trans hab hbc

theorem sane (hv : v.Sane → Spares h v v') : Spares h v v' := fun hs => hv hs hs

theorem act (ha : Act v v') : Spares h v v' := fun hs => ⟨ha.keeps hs, ha.keepsShut⟩

theorem dispatch (ha : DispatchAct v v')
    (ho : ∀ st s, v'.trace ≠ v.trace ++ .opening h st :: s) : Spares h v v' :=
  fun hs => ⟨ha.keeps hs, ha.keepsShut ho⟩

theorem dispatch_quiet (ha : DispatchAct v v') (ht : v'.trace = v.trace) : Spares h v v' := by
  refine dispatch ha fun st s => ?_
  rw [ht]
  simp

theorem same (hv : v.SameFlags v') : Spares h v v' :=
  call_input (fun hm ht => .same hm [] (fun _ => List.not_mem_nil) (by rw [ht, List.append_nil]))
    hv.but.1 hv.but.2

theorem openStream (id : UInt32) (ac : Connection) :
    Spares h ac.view (streamCreateIfAbsent id ac).2.view := by
  have hnew : Spares h ac.view (newStream id ac.allocNext).view := by
    have hview : (newStream id ac.allocNext).view =
        ({ ac.view with nstreams := ac.view.nstreams + 1 }.upd ac.view.nstreams fun _ =>
          Stream.view { id := id }).log (.streamOpen ac.view.nstreams id) := by
      rw [newStream, log_view]
      congr 1
      exact upd_view rfl fun _ => rfl
    rw [hview]
    exact dispatch (.create id) (by simp)
  unfold streamCreateIfAbsent streamAlloc
  dsimp only
  cases htFind ac id with
  | some h => exact refl _
  | none =>
    dsimp only
    split_ifs
    · exact refl _
    · exact refl _
    · cases htInsertLoop (newStream id ac.allocNext) (newStream id ac.allocNext).ht.length
        (htIndex (newStream id ac.allocNext) id) with
      | none => exact hnew
      | some idx =>
        exact hnew.trans (dispatch_quiet (.table ac.nstreams idx (Nat.lt_succ_self _)) rfl)

theorem append (g : Handle) (data : Bytes) (ac : Connection) (ha : ac.view.Accepts g) :
    Spares h ac.view (upstreamAppend g data ac).2.view := by
  obtain ⟨v, hsame, ⟨rfl, -⟩ | rfl⟩ := upstreamAppend_spec g data ac
  · exact same hsame
  · exact (dispatch (.append g data ha.known ha.inOpen) (by simp)).trans (same hsame)

theorem direct (g : Handle) (data : Bytes) (ac : Connection) (ha : ac.view.Accepts g) :
    Spares h ac.view (upstreamDirect g data ac).2.view := by
  unfold upstreamDirect
  split_ifs with hp
  · exact append g data ac ha
  · obtain ⟨bss, hview, -, -⟩ := directLoop_spec g data.length data ac
    have hsent : Spares h ac.view (directLoop g data.length data ac).2.view := by
      rw [hview]
      refine fun hs => ⟨(Handled.directs g bss ac.view ha (not_not.mp hp) hs).1, ?_⟩
      refine .records (bss.map (.upDirect g)) (fun st hm => ?_) rfl le_rfl fun _ => .refl _
      obtain ⟨bs, -, hbs⟩ := List.mem_map.mp hm
      cases hbs
    have ha' : (directLoop g data.length data ac).2.view.Accepts g := by
      rw [hview]
      exact ⟨ha.known, ha.inOpen⟩
    generalize directLoop g data.length data ac = w at hsent ha' ⊢
    obtain ⟨_ | rest, ac'⟩ := w
    · exact hsent
    · have happ := append (h := h) g rest ac'.arm.2 ha'
      rw [arm_view] at happ
      dsimp only
      split_ifs
      · exact hsent
      · exact hsent
      · exact hsent.trans happ

theorem queue (conf : Conf) (g : Handle) (data : Bytes) (ac : Connection)
    (ha : ac.view.Accepts g) :
    Spares h ac.view (upstreamQueue (innerCallbacks conf) g data ac).2.view := by
  refine sane fun hs => ?_
  have hsend : Spares h ac.view _ := (closed_shut h conf).send g sendUnlimited ac
  have hq := Handled.innerSend_spec conf g sendUnlimited ac hs
  unfold upstreamQueue
  dsimp only
  generalize sendPending (innerCallbacks conf) g sendUnlimited ac = r at hsend hq ⊢
  have ha' : r.2.2.view.Accepts g :=
    ⟨hq.nstreams ▸ ha.known, (hq.streams g).inClosed.trans ha.inOpen⟩
  split_ifs
  · exact refl _
  · exact hsend
  · exact hsend.trans (direct g data r.2.2 ha')
  · exact direct g data ac ha
  · exact append g data ac ha

theorem halfClose (g : Handle) (ac : Connection)
    (hstate : (ac.view.streams g).state = .connected) (hfin : ClientFin g ac.view.trace) :
    Spares h ac.view (NgxAnytls.halfClose g ac).view := by
  unfold NgxAnytls.halfClose
  split_ifs with hp
  · rw [setState_view, log_view]
    exact dispatch (.halfClose g hp hstate hfin) (by simp)
  · rw [deferShutdown_view, setState_view, View.upd_upd]
    have hnew : (ac.view.streams g).state.Before .halfClosed := by
      rw [hstate]
      exact ⟨by decide, by decide⟩
    refine (act (.state g .halfClosed hnew)).trans (dispatch ?_ (by simp))
    exact .deferClose (v := ac.view.log _) g hp hstate (hfin.mono (List.subset_append_left _ _))

theorem clientFin (conf : Conf) (g : Handle) (ac : Connection) (hknown : g < ac.nstreams)
    (hc : (ac.streams g).closedByProtocol = false) :
    Spares h ac.view (handleClientFin (innerCallbacks conf) g
      (ac.log (.clientFin g (ac.streams g).state))).view := by
  have hk := closed_shut h conf
  have hview : (markClosedByProtocol g (ac.log (.clientFin g (ac.streams g).state))).view =
      ac.view.finMarked g := markClosedByProtocol_view g _ hc
  have hfin : Spares h ac.view (ac.view.finMarked g) :=
    dispatch (.fin g hknown hc) (by simp [View.finMarked])
  unfold handleClientFin
  dsimp only
  generalize markClosedByProtocol g (ac.log (.clientFin g (ac.streams g).state)) = ac' at hview ⊢
  rw [← hview] at hfin
  have hmem : ClientFin g ac'.view.trace :=
    ⟨(ac.view.streams g).state, by rw [hview]; simp [View.finMarked]⟩
  have hreason : ∀ w : Connection, ClientFin g w.view.trace → w.view.MayClose g :=
    fun w hm => .inr (.inr (.inr (.inr (.inl hm))))
  refine hfin.trans (sane fun hs => ?_)
  have hsend : Spares h ac'.view _ := hk.send g sendUnlimited ac'
  have hq := Handled.innerSend_spec conf g sendUnlimited ac' hs
  have hsub := (hsend hs).1.trace.subset
  generalize sendPending (innerCallbacks conf) g sendUnlimited ac' = r at hsend hq hsub ⊢
  have hmem' : ClientFin g r.2.2.view.trace := hmem.mono hsub
  split_ifs with huot hup
  · have huotClose := hk.act (Act.endLookup (v := ac'.view) g)
    have hclose := hk.close g (uotClose g ac') (hreason _ (by rw [uotClose_view]; exact hmem))
    rw [uotClose_view] at hclose
    exact hk.trans huotClose hclose
  · exact hk.trans hsend (hk.close g r.2.2 (hreason _ hmem'))
  · exact hsend.trans (halfClose g r.2.2 ((hq.streams g).state.trans hup.2) hmem')
  · exact hk.close g ac' (hreason _ hmem)

/-- The lookup that is reported is of another stream. -/
theorem openTcp (conf : Conf) (hg : g ≠ h) (addr : Addr) (ac : Connection)
    (hst : ac.view.Starts g) :
    Spares h ac.view (upstreamOpen (innerCallbacks conf) g addr ac).2.view := by
  have hk := closed_shut h conf
  have hview : (setTarget g addr ac).view = ac.view := setTarget_view g addr ac
  have hres : Spares h (setTarget g addr ac).view _ :=
    hk.resolveAddr g .tcp (setTarget g addr ac) (by
      rw [hview]
      exact fun _ => ⟨hst.seen, hst.upstream, hst.early⟩)
  have hok := resolveAddr_ok (innerCallbacks conf) g .tcp (setTarget g addr ac)
  have hkeeps := Handled.openTcp conf g addr ac hst
  rw [hview] at hres hok
  refine sane fun hs => ?_
  have hkeeps' := (hkeeps hs).1
  unfold upstreamOpen at hkeeps' ⊢
  dsimp only at hkeeps' ⊢
  generalize resolveAddr (innerCallbacks conf) g .tcp (setTarget g addr ac) = r
    at hres hok hkeeps' ⊢
  obtain ⟨rc, ac'⟩ := r
  cases rc with
  | again =>
    dsimp only at hkeeps' ⊢
    refine fun _ => ⟨hkeeps', (hres hs).2.trans ?_⟩
    rw [setState_view]
    -- the stream that starts connecting is not the one that is shut
    refine .records [.opening g (ac'.streams g).state,
      .setState g (ac'.streams g).state .connecting]
      (fun st hm => ?_) ?_ le_rfl fun _ => ?_
    · rcases List.mem_cons.mp hm with he | hm
      · cases he
        exact hg rfl
      · cases List.mem_singleton.mp hm
    · show (ac'.trace ++ [_]) ++ [_] = _
      rw [List.append_assoc]
      rfl
    · rw [View.upd_streams, if_neg hg.symm]
      exact .refl _
  | error => exact hres
  | ok =>
    have ho : ac'.view.Opening g := (hok rfl).symm ▸ hst.toOpening
    exact hres.trans (hk.openResolved g ac' ho)

theorem openUot (g : Handle) (addr : Addr) (ac : Connection) (hst : ac.view.Starts g) :
    Spares h ac.view (uotOpen g addr ac).2.view := by
  have hslot : Spares h ac.view (takeUotSlot g addr.mode ac).view := by
    have hnew : (ac.view.streams g).state.Before .connected :=
      hst.early.elim (fun he => by rw [he]; trivial) fun he => by rw [he]; trivial
    rw [takeUotSlot_view]
    refine (act (.state g .connected hnew)).trans (dispatch ?_ (by simp))
    exact .openUot (v := ac.view.log _) g hst.seen hst.upstream hst.lookup hst.early
      fun hc => hst.fin (clientFin_append (by simp) hc)
  have hn : (takeUotSlot g addr.mode ac).nstreams = ac.nstreams :=
    congrArg View.nstreams (takeUotSlot_view g addr.mode ac)
  unfold uotOpen
  split_ifs
  · exact refl _
  · exact hslot.trans ((closed_shut h ac.conf).synack g [] _ (hn ▸ hst.known))

theorem firstPsh (conf : Conf) (hg : g ≠ h) (addr : Addr) (payload : Bytes) (ac : Connection)
    (hst : ac.view.Starts g) :
    Spares h ac.view (handleFirstPsh (innerCallbacks conf) g addr payload ac).2.view := by
  have hk := closed_shut h conf
  have hqueue : Spares h ac.view _ := queue conf g payload ac hst.toAccepts
  have hst' := fun hne => View.Starts.queue (innerCallbacks conf) g payload ac hst hne
  have huot : Spares h ac.view _ := openUot g addr ac hst
  have hlimit : g < (uotOpen g addr ac).2.nstreams →
      Spares h (uotOpen g addr ac).2.view (synackAndClose (innerCallbacks conf) .uotLimit g
        uotLimitText (uotOpen g addr ac).2).view := fun hknown =>
    hk.synackAndClose .uotLimit g (by decide) (by decide) _ hknown
  unfold handleFirstPsh
  dsimp only
  split_ifs
  · exact openTcp conf hg addr ac hst
  · exact hqueue
  · exact hqueue
  · exact hqueue.trans (openTcp conf hg addr _ (hst' (by assumption)))
  · exact sane fun hs => huot.trans (hlimit (hst.known.trans_le (huot hs).1.nstreams))
  · exact huot
  · exact huot.trans (hk.uotClientPayload g payload _)

theorem keepFirstPsh (g : Handle) (pdata : Bytes) (ac : Connection)
    (hseen : (ac.streams g).firstPshSeen = false) :
    Spares h ac.view (NgxAnytls.keepFirstPsh g pdata ac).2.view := by
  have hstore : ∀ ac : Connection, (ac.streams g).firstPshSeen = false →
      Spares h ac.view (storeFirstPsh g pdata ac).view := fun ac hseen => by
    rw [storeFirstPsh_view]
    exact dispatch (.firstPshAcc g (some pdata) hseen) (by simp)
  unfold NgxAnytls.keepFirstPsh
  split_ifs
  · exact refl _
  · exact refl _
  · exact hstore ac.allocNext hseen
  · exact hstore ac hseen

theorem forwardFirstPsh (conf : Conf) (hg : g ≠ h) (data : Bytes) (ac : Connection)
    (ha : ac.view.Accepts g) (hc : (ac.streams g).closedByProtocol = false)
    (hseen : (ac.streams g).firstPshSeen = false)
    (hstate : (ac.streams g).state ≠ .closing ∧ (ac.streams g).state ≠ .closed) :
    Spares h ac.view (NgxAnytls.forwardFirstPsh (innerCallbacks conf) g data ac).2.view := by
  have hempty : Spares h ac.view (emptyFirstPsh g ac.allocNext).view := by
    rw [emptyFirstPsh_view, View.upd_congr (g := fun st =>
      { st with firstPshAcc := (ac.streams g).firstPshAcc.map fun _ => [] }) _ g rfl]
    exact dispatch (.firstPshAcc g _ hseen) (by simp)
  have ha' : (emptyFirstPsh g ac.allocNext).view.Accepts g := by
    rw [emptyFirstPsh_view]
    exact ⟨ha.known, by simpa using ha.inOpen⟩
  have hc' : ((emptyFirstPsh g ac.allocNext).streams g).closedByProtocol = false := by
    simpa [emptyFirstPsh, Connection.allocNext] using hc
  have hseen' : ((emptyFirstPsh g ac.allocNext).streams g).firstPshSeen = false := by
    simpa [emptyFirstPsh, Connection.allocNext] using hseen
  have hstate' : ((emptyFirstPsh g ac.allocNext).streams g).state ≠ .closing ∧
      ((emptyFirstPsh g ac.allocNext).streams g).state ≠ .closed := by
    simpa [emptyFirstPsh, Connection.allocNext] using hstate
  unfold NgxAnytls.forwardFirstPsh
  dsimp only
  generalize emptyFirstPsh g ac.allocNext = ac' at hempty ha' hc' hseen' hstate' ⊢
  split_ifs
  · exact refl _
  · exact refl _
  · refine hempty.trans (sane fun hs => ?_)
    cases parseSocksaddr (firstPshBytes ((ac.allocNext.streams g).firstPshAcc.getD []) data)
        ac'.allocOk with
    | again => exact keepFirstPsh g _ ac'.allocNext hseen'
    | error => exact refl _
    | ok addr consumed =>
      have hst := Handled.starts g addr ac'.allocNext hs ha' hc' hseen' hstate'
      have hfirst : Spares h ac'.view (setFirstPsh g addr ac'.allocNext).view := by
        rw [setFirstPsh_view]
        exact dispatch (.firstPsh g ha'.known) (by simp)
      exact hfirst.trans (firstPsh conf hg addr _ _ hst)

/-- Payload is forwarded to a stream that the protocol did not close. -/
theorem payload (conf : Conf) (streamId : UInt32) (data : Bytes) (ac : Connection)
    (hshut : (ac.streams h).closedByProtocol = true) :
    Spares h ac.view
      (NgxAnytls.forwardClientPayload (innerCallbacks conf) streamId data ac).2.view := by
  refine sane fun hs => ?_
  unfold NgxAnytls.forwardClientPayload
  cases hfind : streamFind streamId ac with
  | none => exact refl _
  | some g =>
    obtain ⟨hknown, hc, -⟩ := streamFind_some hs hfind
    have hg : g ≠ h := by
      rintro rfl
      rw [hshut] at hc
      cases hc
    dsimp only
    split_ifs with hcan hseen
    · exact refl _
    · have hin : (ac.streams g).inClosed = false := by simp_all [canAcceptPayload]
      have hstate : (ac.streams g).state ≠ .closing ∧ (ac.streams g).state ≠ .closed := by
        simp_all [canAcceptPayload]
      have hpsh : Spares h ac.view (ac.log (.psh g data)).view :=
        dispatch (.psh g data hknown hin) (by simp)
      exact hpsh.trans (forwardFirstPsh conf hg data _ ⟨hknown, hin⟩ hc (by simpa using hseen)
        hstate)
    · have hin : (ac.streams g).inClosed = false := by simp_all [canAcceptPayload]
      have hpsh : Spares h ac.view (ac.log (.psh g data)).view :=
        dispatch (.psh g data hknown hin) (by simp)
      refine hpsh.trans ?_
      unfold handleClientPayload
      split_ifs
      · exact (closed_shut h conf).uotClientPayload g data _
      · exact queue conf g data _ ⟨hknown, hin⟩

theorem control (cmd : Cmd) (id : UInt32) (data : Bytes) (ac : Connection) :
    Spares h ac.view (queueRefFrame none cmd id data ac).2.view :=
  (closed_shut h ac.conf).queueData false none cmd id data ac (by simp) (by simp) (by simp)

theorem finish (conf : Conf) (ac : Connection) :
    Spares h ac.view (endSession (innerCallbacks conf) ac).view := by
  have hk := closed_shut h conf
  have hrest := hk.trans (hk.drain 0 false (ac.log .ending)) (hk.finalize (ends_shut h).ending _)
  exact hk.trans (hk.note .ending trivial ac) hrest

theorem runAction (conf : Conf) (a : Action) (ac : Connection)
    (hshut : (ac.streams h).closedByProtocol = true) :
    Spares h ac.view (NgxAnytls.runAction (innerCallbacks conf) a ac).2.2.view := by
  cases a with
  | queueControl cmd streamId data => exact control cmd streamId data ac
  | openStream streamId => exact openStream streamId ac
  | forwardClientPayload streamId data => exact payload conf streamId data ac hshut
  | clientFin streamId =>
    refine sane fun hs => ?_
    unfold NgxAnytls.runAction
    dsimp only
    cases hfind : streamFind streamId ac with
    | none => exact refl _
    | some g =>
      obtain ⟨hknown, hc, -⟩ := streamFind_some hs hfind
      exact clientFin conf g ac hknown hc
  | clientAlert data => exact finish conf ac
  | protocolError data =>
    unfold NgxAnytls.runAction
    dsimp only
    split_ifs
    · exact (control .alert 0 data ac).trans (finish conf _)
    · exact finish conf ac

/-- Whatever stream an action is for. -/
theorem action (conf : Conf) (a : Action) (ac : Connection) :
    Spares h ac.view (NgxAnytls.runAction (innerCallbacks conf) a ac).2.2.view := fun hs =>
  ⟨(Served.runAction conf a ac hs).1, fun hv => (runAction conf a ac hv.protocol hs).2 hv⟩

theorem sessionActions (conf : Conf) (as : List Action) (rc : Rc) (ac : Connection) :
    Spares h ac.view (sessionActionsRun (innerCallbacks conf) as rc ac).2.2.view := by
  induction as generalizing rc ac with
  | nil => exact refl _
  | cons a as ih =>
    have hone : Spares h ac.view _ := action conf a ac
    unfold sessionActionsRun
    dsimp only
    by_cases hdone : (NgxAnytls.runAction (innerCallbacks conf) a ac).2.1
    · rw [if_pos hdone]
      exact hone
    · rw [if_neg hdone]
      exact hone.trans (ih _ _)

theorem input (o : Obs) (ho : o.IsInput) (hv : v.SameMux v') (ht : v'.trace = v.trace ++ [o]) :
    Spares h v v' := fun hs => by
  refine ⟨(Reached.input o ho hv ht hs).1, .same hv [o] (.one fun st he => ?_) ht⟩
  rw [he] at ho
  exact ho

theorem frame (conf : Conf) (f : Frame) (ac : Connection) :
    Spares h ac.view (processFrame (innerCallbacks conf) f ac).2.view := by
  have hlog : Spares h ac.view (ac.log (.frame f)).view :=
    input (.frame f) trivial ⟨rfl, rfl, rfl, rfl, rfl, rfl, rfl, rfl, rfl, rfl, rfl, rfl⟩ rfl
  have hcore : ∀ core, Spares h (ac.log (.frame f)).view
      (setCore core (ac.log (.frame f)).allocNext).view := fun core =>
    dispatch_quiet (.core core) rfl
  unfold processFrame
  dsimp only
  split_ifs
  · exact hlog.trans ((hcore _).trans (sessionActions conf _ _ _))
  · exact hlog.trans ((hcore _).trans (sessionActions conf _ _ _))

end Spares

/-- A stream that is closing or closed stays so while frames are parsed. -/
theorem parsed_shut (h : Handle) : Parsed (View.KeepsShut h) where
  toSteps := (ends_shut h).toSteps
  act _ ha := ha.keepsShut
  input hm ht := .same hm [] (fun _ => List.not_mem_nil) (by rw [ht, List.append_nil])
  inputLog o ho hm ht := by
    refine .same hm [o] (.one fun st he => ?_) ht
    rw [he] at ho
    exact ho
  frame conf f rest ac := by
    have hframe : Spares h ac.view _ := Spares.frame conf f ac
    have hdrop : ∀ ac : Connection, Spares h ac.view (dropInput rest ac).view := fun ac =>
      .input (.inputDropped rest) trivial
        ⟨rfl, rfl, rfl, rfl, rfl, rfl, rfl, rfl, rfl, rfl, rfl, rfl⟩ rfl
    unfold frameStep
    generalize processFrame (innerCallbacks conf) f ac = r at hframe ⊢
    dsimp only
    split_ifs
    · exact hframe.trans (hdrop r.2)
    · exact hframe

/-- What an event handler calls leaves a stream that is closing or closed so. -/
theorem outer_shut (h : Handle) (conf : Conf) :
    Closed (outerCallbacks conf) (Call (View.KeepsShut h)) := (parsed_shut h).fed.outer conf

section Close

variable {k : Callbacks} {h : Handle}

private theorem delayClose_shut (hk : Closed k (Call (View.KeepsShut h))) (ac : Connection)
    (hs : ac.view.Sane) (hknown : h < ac.nstreams)
    (hmark : (ac.view.streams h).closedByProtocol) (hmay : ac.view.MayClose h)
    (hopen : ac.closing = false) (hstate : (ac.view.streams h).state ≠ .closed) :
    (delayClose k h ac).view.Shut h := by
  have henter := hk.enterClosing h ac hmark hmay hopen hstate
  have hrest := hk.delayClose_rest h ac hmark
  have hshut : (resolverCancel h (enterClosing h ac)).view.Shut h := by
    obtain ⟨queue, -, hview⟩ := Closed.enterClosing_view h ac
    rw [hview]
    refine ⟨hknown, ?_, ?_, ?_⟩
    · simpa using hmark
    · simp [StreamState.Ended]
    · intro st
      simp
  exact (hrest (henter hs).1.sane).2 hshut

private theorem fullClose_shut (hk : Closed k (Call (View.KeepsShut h))) (ac : Connection)
    (hs : ac.view.Sane) (hknown : h < ac.nstreams)
    (hmark : (ac.view.streams h).closedByProtocol) (hmay : ac.view.MayClose h)
    (hq : ac.closing ∨ (ac.view.streams h).queuedFrames = 0) :
    (fullClose k h ac).view.Shut h := by
  have henter := hk.enterClosed h ac hmark hmay
  have hrest := hk.fullClose_rest h ac hmark hq
  have hshut : (resolverCancel h (removeReady h (enterClosed h ac))).view.Shut h := by
    rw [Closed.enterClosed_view h ac]
    refine ⟨hknown, ?_, ?_, ?_⟩
    · simpa using hmark
    · simp [StreamState.Ended]
    · intro st
      simp
  exact (hrest (henter hs).1.sane).2 hshut

/-- A close leaves the stream closing or closed, whatever input it resumes. -/
theorem streamClose_ended (hk : Closed k (Call (View.KeepsShut h))) (ac : Connection)
    (hs : ac.view.Sane) (hknown : h < ac.nstreams) (hmay : ac.view.MayClose h) :
    ((streamClose k h ac).streams h).state.Ended := by
  obtain ⟨ac', hac, hmarked, hflag, hmay', hclosing, hn, hstate⟩ := hk.beforeClose h ac hmay
  have hs' : ac'.view.Sane := (hmarked hs).1.sane
  have hknown' : h < ac'.nstreams := hn ▸ hknown
  unfold streamClose
  dsimp only
  rw [hac]
  split_ifs with hclosed hdelay
  · exact .inr hclosed
  · have hopen : ac'.closing = false := by simpa using hdelay.1
    have hlive : (ac'.view.streams h).state ≠ .closed := by
      rw [hstate]
      exact hclosed
    exact (delayClose_shut hk ac' hs' hknown' hflag hmay' hopen hlive).state
  · have hq : ac'.closing ∨ (ac'.view.streams h).queuedFrames = 0 := by
      by_cases hc : ac'.closing = true
      · exact .inl hc
      · have hnone : (ac'.streams h).queuedFrames = 0 := by simpa [hc] using hdelay
        exact .inr hnone
    exact (fullClose_shut hk ac' hs' hknown' hflag hmay' hq).state

/-- A control frame that is small enough is queued when its frame is allocated and the frames of
the session are below their limit. -/
def CanQueue (data : Bytes) (ac : Connection) : Prop :=
  data.length ≤ maxFrameData ∧ ac.allocOk = true ∧ ac.frames < maxOutFrames

instance (data : Bytes) (ac : Connection) : Decidable (CanQueue data ac) :=
  inferInstanceAs (Decidable (_ ∧ _ ∧ _))

private theorem queuePreparedFrame_control (owner : Option Handle) (f : OutFrame)
    (hf : f.cmd ≠ .psh) (ac : Connection) :
    ((queuePreparedFrame owner f ac).1 = .ok ↔ ac.frames < maxOutFrames) ∧
      ((queuePreparedFrame owner f ac).1 ≠ .ok → (queuePreparedFrame owner f ac).2 = ac) ∧
      ((queuePreparedFrame owner f ac).1 = .ok → ∃ n version,
        (queuePreparedFrame owner f ac).2.trace =
          ac.trace ++ [.queued (f.prepare owner) n version]) := by
  unfold queuePreparedFrame
  split_ifs with hfull hpsh
  · simp [Nat.not_lt.mpr hfull]
  · exact absurd hpsh.1 hf
  · refine ⟨by simp [Nat.lt_of_not_le hfull], by simp, fun _ => ?_⟩
    dsimp only
    have hlink : (countFrame (f.prepare owner) (linkFrame owner (f.prepare owner)
        (countStreamFrame owner (f.prepare owner) ac))).trace = ac.trace :=
      (linkFrame_trace owner _ _).trans (countStreamFrame_trace owner _ ac)
    generalize countFrame (f.prepare owner) (linkFrame owner (f.prepare owner)
      (countStreamFrame owner (f.prepare owner) ac)) = w at hlink ⊢
    have htrace := congrArg View.trace (postWrite_view
      (w.log (.queued (f.prepare owner) w.pendingOutput w.core.peerVersion)))
    exact ⟨w.pendingOutput, w.core.peerVersion, htrace.trans (congrArg (· ++ [_]) hlink)⟩

/-- A control frame is queued and recorded, or only its allocation was tried. -/
theorem queueControl_spec (copy : Bool) (owner : Option Handle) (cmd : Cmd) (hcmd : cmd ≠ .psh)
    (id : UInt32) (data : Bytes) (hcopy : copy = true → data = []) (ac : Connection) :
    (CanQueue data ac ∧ (queueDataFrame copy owner cmd id data ac).1 = .ok ∧
        ∃ f n version, (queueDataFrame copy owner cmd id data ac).2.trace =
          ac.trace ++ [.queued f n version] ∧ f.cmd = cmd ∧ f.stream = owner) ∨
      (¬CanQueue data ac ∧ (queueDataFrame copy owner cmd id data ac).1 ≠ .ok ∧
        ((queueDataFrame copy owner cmd id data ac).2 = ac ∨
          (queueDataFrame copy owner cmd id data ac).2 = ac.allocNext)) := by
  have hnocopy : ¬(copy = true ∧ data ≠ []) := fun hc => hc.2 (hcopy hc.1)
  unfold queueDataFrame
  split_ifs with hlong hroom halloc
  · exact .inr ⟨fun hc => absurd hc.1 (Nat.not_le.mpr hlong), by simp, .inl rfl⟩
  · exact absurd hroom.1 hcmd
  · exact .inr ⟨fun hc => by simp [hc.2.1] at halloc, by simp, .inr rfl⟩
  · have hcan : CanQueue data ac ↔ ac.allocNext.frames < maxOutFrames := by
      have hok : ac.allocOk = true := by simpa using halloc
      exact ⟨fun hc => hc.2.2, fun hc => ⟨Nat.le_of_not_lt hlong, hok, hc⟩⟩
    obtain ⟨hiff, hfail, hqueued⟩ := queuePreparedFrame_control owner
      { cmd := cmd, fin := cmd == .fin, blocked := !(cmd == .psh || cmd == .fin)
        header := writeFrameHeader cmd.toNat id data.length, payload := data
        length := data.length } hcmd ac.allocNext
    dsimp only
    by_cases hframes : ac.allocNext.frames < maxOutFrames
    · obtain ⟨n, version, htrace⟩ := hqueued (hiff.mpr hframes)
      exact .inl ⟨hcan.mpr hframes, hiff.mpr hframes, _, n, version, htrace, rfl, rfl⟩
    · have hno := mt hiff.mp hframes
      exact .inr ⟨mt hcan.mp hframes, hno, .inr (hfail hno)⟩

/-- The stream is closing or closed, or just as before. -/
def FinSettled (h : Handle) (ac ac' : Connection) : Prop :=
  (ac'.streams h).state.Ended ∨ ac'.streams h = ac.streams h

/-- The FIN is there, or can be queued, or there is nothing left to do for it. -/
def FinWorks (h : Handle) (ac : Connection) : Prop :=
  ((ac.streams h).finQueued = true ∨ (ac.streams h).finSent = true) ∨ CanQueue [] ac ∨
    (ac.streams h).state.Ended ∨
    ((ac.streams h).closedByProtocol = true ∧ (ac.streams h).outClosed = true)

/-- For a client of version 2 the flag is set only with a SYNACK that was queued. -/
def SynackKept (h : Handle) (ac ac' : Connection) : Prop :=
  2 ≤ ac.core.peerVersion → (ac'.streams h).synackSent = true →
    (ac.streams h).synackSent = true ∨ ∃ s f n version, ac'.trace = ac.trace ++ s ∧
      .queued f n version ∈ s ∧ f.cmd = .synack ∧ f.stream = some h

/-- The SYNACK was sent, is not for this client, or can be queued. -/
def SynackWorks (h : Handle) (data : Bytes) (ac : Connection) : Prop :=
  (ac.streams h).synackSent = true ∨ ac.core.peerVersion < 2 ∨ CanQueue data ac

private theorem sendSynack_kept (h : Handle) (data : Bytes) (ac : Connection) :
    SynackKept h ac (sendSynack h data ac).2 ↔ SynackWorks h data ac := by
  unfold SynackKept SynackWorks sendSynack
  by_cases hsent : (ac.streams h).synackSent = true
  · simp [hsent]
  · by_cases hold : ac.core.peerVersion < 2
    · simp [hold, Nat.not_le.mpr hold]
    · have hnew : 2 ≤ ac.core.peerVersion := Nat.le_of_not_lt hold
      rw [if_neg hsent]
      dsimp only
      rw [if_neg (show ¬(markSynackSent h ac).core.peerVersion < 2 from hold)]
      have hcan : CanQueue data (markSynackSent h ac) ↔ CanQueue data ac := Iff.rfl
      rcases queueControl_spec false (some h) .synack (by decide)
        ((markSynackSent h ac).streams h).id
        data (by simp) (markSynackSent h ac) with ⟨hc, hok, f, n, version, ht, hcmd, hst⟩ |
          ⟨hc, hno, hsame⟩
      · have hkept : (queueRefFrame (some h) .synack ((markSynackSent h ac).streams h).id data
            (markSynackSent h ac)).1 = .ok := hok
        rw [if_neg (not_not.mpr hkept)]
        refine ⟨fun _ => .inr (.inr (hcan.mp hc)), fun _ _ _ => .inr ?_⟩
        exact ⟨_, f, n, version, ht, List.mem_singleton_self _, hcmd, hst⟩
      · have hlost : (queueRefFrame (some h) .synack ((markSynackSent h ac).streams h).id data
            (markSynackSent h ac)).1 ≠ .ok := hno
        rw [if_pos hlost]
        refine ⟨fun hkept => ?_, fun hw => ?_⟩
        · -- the flag is set, and the only record is that there is no SYNACK
          have hlog : ∀ w : Connection, w = markSynackSent h ac ∨
            w = (markSynackSent h ac).allocNext →
              ((w.log (.synackSkipped h data)).streams h).synackSent = true ∧
                (w.log (.synackSkipped h data)).trace = ac.trace ++ [.synackSkipped h data] := by
            rintro w (rfl | rfl)
            · exact ⟨by simp [markSynackSent], rfl⟩
            · exact ⟨by simp [markSynackSent, Connection.allocNext], rfl⟩
          obtain ⟨hflag, htrace⟩ := hlog _ hsame
          rcases hkept hnew hflag with hw | ⟨s, f, n, version, ht, hm, -⟩
          · exact absurd hw hsent
          · rw [← List.append_cancel_left (htrace.symm.trans ht)] at hm
            cases List.mem_singleton.mp hm
        · rcases hw with hw | hw | hw
          · exact absurd hw hsent
          · exact absurd hw hold
          · exact absurd (hcan.mpr hw) hc

/-- A stream that is marked without a FIN is as before only when nothing is new. -/
theorem closeOutput_marked (h : Handle) (ac : Connection) :
    (closeOutput h (markClosedByProtocol h ac)).streams h = ac.streams h ↔
      (ac.streams h).closedByProtocol = true ∧ (ac.streams h).outClosed = true := by
  unfold closeOutput markClosedByProtocol
  constructor
  · intro he
    refine ⟨?_, ?_⟩
    · rw [← he]
      split_ifs with hc
      · simp [hc]
      · simp
    · rw [← he]
      simp
  · rintro ⟨hc, ho⟩
    rw [if_pos hc, Connection.upd_streams, if_pos rfl]
    cases hst : ac.streams h
    simp_all

/-- The FIN that closes a stream is queued, was queued before, or leaves the stream as it is. -/
theorem sendFinAndClose_closed (hk : Closed k (Call (View.KeepsShut h))) (ac : Connection)
    (hs : ac.view.Sane) (hknown : h < ac.nstreams) :
    FinSettled h ac (sendFinAndClose k h ac).2 ↔ FinWorks h ac := by
  obtain ⟨hmarked, -⟩ := hk.markClosedByProtocol_spec h ac
  have hview := Closed.closeOutput_view h (markClosedByProtocol h ac)
  have hsame := closeOutput_marked h ac
  have hstream : ((closeOutput h (markClosedByProtocol h ac)).streams h).finQueued =
        (ac.streams h).finQueued ∧
      ((closeOutput h (markClosedByProtocol h ac)).streams h).finSent = (ac.streams h).finSent ∧
      ((closeOutput h (markClosedByProtocol h ac)).streams h).state = (ac.streams h).state ∧
      (closeOutput h (markClosedByProtocol h ac)).nstreams = ac.nstreams ∧
      (CanQueue [] (closeOutput h (markClosedByProtocol h ac)) ↔ CanQueue [] ac) := by
    unfold closeOutput markClosedByProtocol
    split_ifs
    · simp [CanQueue, Connection.upd, Connection.allocOk]
    · simp [CanQueue, Connection.upd, Connection.allocOk]
  obtain ⟨hqueued, hsent, hstate, hn, hcan⟩ := hstream
  have hs' : (closeOutput h (markClosedByProtocol h ac)).view.Sane := hview ▸ (hmarked hs).1.sane
  unfold sendFinAndClose FinSettled FinWorks
  dsimp only
  generalize closeOutput h (markClosedByProtocol h ac) = ac'
    at hsame hqueued hsent hstate hn hcan hs' ⊢
  have hknown' : h < ac'.nstreams := hn ▸ hknown
  by_cases hnone : (!(ac'.streams h).finQueued) = true ∧ (!(ac'.streams h).finSent) = true
  · rw [if_pos hnone]
    have hfin : Call (View.KeepsShut h) ac'.view
        (queueFrame (some h) .fin (ac'.streams h).id [] ac').2.view := by
      refine hk.queueData true _ _ _ _ _ (fun g hg => ?_) (fun _ => rfl) (by simp)
      exact Option.some.inj hg ▸ ⟨hknown', rfl⟩
    rcases queueControl_spec true (some h) .fin (by decide) (ac'.streams h).id [] (fun _ => rfl) ac'
      with ⟨hc, hok, f, n, version, ht, hcmd, hst⟩ | ⟨hc, hno, hleft⟩
    · have hqok : (queueFrame (some h) .fin (ac'.streams h).id [] ac').1 = .ok := hok
      rw [if_neg (not_not.mpr hqok)]
      refine ⟨fun _ => .inr (.inl (hcan.mp hc)), fun _ => .inl ?_⟩
      refine streamClose_ended hk _ (hfin hs').1.sane (hknown'.trans_le (hfin hs').1.nstreams) ?_
      refine .inr (.inr (.inl ⟨f, n, version, ?_, hcmd, hst⟩))
      show _ ∈ (queueDataFrame true (some h) .fin (ac'.streams h).id [] ac').2.trace
      rw [ht]
      simp
    · have hqno : (queueFrame (some h) .fin (ac'.streams h).id [] ac').1 ≠ .ok := hno
      rw [if_pos hqno]
      have hkept : (queueFrame (some h) .fin (ac'.streams h).id [] ac').2.streams h =
          ac'.streams h := by
        rcases hleft with he | he
        · exact congrArg (fun w => w.streams h) he
        · exact congrArg (fun w => w.streams h) he
      have hnofin : ¬((ac.streams h).finQueued = true ∨ (ac.streams h).finSent = true) := by
        rw [← hqueued, ← hsent]
        simpa using hnone
      rw [hkept, hstate, hsame]
      have hnocan : ¬CanQueue [] ac := mt hcan.mpr hc
      tauto
  · rw [if_neg hnone]
    have hflag : (ac'.streams h).finQueued = true ∨ (ac'.streams h).finSent = true := by
      by_contra hno
      exact hnone (by simpa using hno)
    refine ⟨fun _ => .inl (hqueued ▸ hsent ▸ hflag), fun _ => .inl ?_⟩
    exact streamClose_ended hk ac' hs' hknown' (.inr (.inr (.inl ((hs'.stream h).finFlag hflag))))

end Close

/-- The first stream is connected. -/
def finSample : Connection := run sampleConf [sampleOpen sampleV2 sampleTarget { connect := [.ok] }]

/-- Its upstream ends when the read buffer can be allocated and the FIN cannot. -/
def finLost : Connection :=
  run sampleConf [sampleOpen sampleV2 sampleTarget { connect := [.ok] },
    (.upstreamRead 0, { recv := [.data []], alloc := [true, false] })]

/-- It is connected when the SYNACK cannot be allocated, and then a byte arrives for the client. -/
def synackLost : Connection :=
  run sampleConf [sampleOpen sampleV2 sampleTarget { connect := [.again] },
    (.upstreamWrite 0 false true, { alloc := [false] }), (.upstreamRead 0, { recv := [.data [7]] })]

end NgxAnytls
