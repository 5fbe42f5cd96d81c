import NgxAnytls.UpstreamRefinement

/-! Complete calls: whatever the single effects of a call add up to, sends, callbacks and the end of
the session add up to it. -/

namespace NgxAnytls

/-- A complete call, with an effect in `P`. -/
def Call (P : View → View → Prop) (v v' : View) : Prop := v.Sane → v.Keeps v' ∧ P v v'

/-- A part of a call, with an effect in `P`. -/
def PartCall (P : View → View → Prop) (v v' : View) : Prop := v.Sane → v'.Sane ∧ P v v'

/-- Effects add up, and those of a send are among them. -/
structure Steps (P : View → View → Prop) : Prop where
  refl : ∀ v, P v v
  trans : ∀ {a b c}, P a b → P b c → P a c
  send : ∀ {v v'}, SendAct v v' → P v v'
  note : ∀ {v} (o : Obs), o.IsNote → P v (v.log o)

/-- The end of the session is among the effects. -/
structure Ends (P : View → View → Prop) : Prop extends Steps P where
  close : ∀ {v v'}, EndAct v v' → P v v'

namespace Steps

variable {P : View → View → Prop} {k : Callbacks}

theorem call_trans (hP : Steps P) {a b c : View} (hab : Call P a b) (hbc : Call P b c) :
    Call P a c := by
  intro hs
  obtain ⟨hk, hp⟩ := hab hs
  obtain ⟨hk', hp'⟩ := hbc hk.sane
  exact ⟨hk.trans hk', hP.trans hp hp'⟩

theorem sending (hP : Steps P) (hresume : ∀ ac, Call P ac.view (k.resume ac).2.view) :
    Sending k (Call P) (PartCall P) where
  refl v hs := ⟨hs, hP.refl v⟩
  trans hab hbc hs := ⟨(hbc (hab hs).1).1, hP.trans (hab hs).2 (hbc (hab hs).1).2⟩
  sane h hs := h hs hs
  send h hs := ⟨h.sane hs, hP.send h⟩
  note o ho hs := ⟨(Act.note o ho).sane hs, hP.note o ho⟩
  full h hs := ⟨(h hs).1.sane, (h hs).2⟩
  keep h hs := (h hs).1
  close h hk hs := ⟨hk hs, (h hs).2⟩
  resume := hresume

/-- A send adds up, whatever else a call of that kind may do. -/
theorem sendPending (hP : Steps P) (hresume : ∀ ac, Call P ac.view (k.resume ac).2.view)
    (h : Handle) (maxBytes : Nat) (ac : Connection) :
    Call P ac.view (NgxAnytls.sendPending k h maxBytes ac).2.2.view :=
  (hP.sending hresume).sendPending h maxBytes ac

/-- The effects of `Act` make the calls of the code below the dispatcher. -/
theorem closed (hP : Steps P) (hact : ∀ {v v'}, v.Sane → Act v v' → P v v')
    (hresume : ∀ ac, Call P ac.view (k.resume ac).2.view)
    (hresolved : ∀ h a ac, Call P ac.view (k.resolved h a ac).view) : Closed k (Call P) where
  refl v hs := ⟨.refl hs, hP.refl v⟩
  trans := hP.call_trans
  act h hs := ⟨h.keeps hs, hact hs h⟩
  sane h hs := h hs hs
  keep h hs := (h hs).1
  resume := hresume
  resolved := hresolved
  send h maxBytes ac := hP.sendPending hresume h maxBytes ac

end Steps

theorem Ends.ending {P : View → View → Prop} (hP : Ends P) {v v' : View} (h : EndAct v v') :
    Call P v v' := fun hs => ⟨h.keeps hs, hP.close h⟩

/-- The callbacks are calls of that kind when the resume is one. -/
theorem Steps.callbacks {P : View → View → Prop} (hP : Steps P)
    (hact : ∀ {v v'}, v.Sane → Act v v' → P v v')
    {process : Bytes → Connection → Rc × Connection}
    (hresume : ∀ ac, Call P ac.view (inputResume process ac).2.view) (depth : Nat) :
    Closed (NgxAnytls.callbacks process depth) (Call P) := by
  induction depth with
  | zero => exact hP.closed hact hresume fun _ _ _ hs => ⟨.refl hs, hP.refl _⟩
  | succ depth ih => exact hP.closed hact hresume fun h a ac => ih.resolveHandler h a ac

section Composition

variable {k : Callbacks} {R : View → View → Prop}

namespace Closed

theorem closeAll (hk : Closed k R) (hs : List Handle) (ac : Connection) (hc : ac.closing) :
    R ac.view (closeStreams k hs ac).view := by
  unfold closeStreams
  induction hs generalizing ac with
  | nil => exact hk.refl _
  | cons h hs ih =>
    rw [List.foldl_cons]
    have hmark := (hk.markClosedByProtocol_spec h ac).1
    have hmay : (markClosedByProtocol h ac).view.MayClose h := by
      unfold markClosedByProtocol
      split_ifs
      · exact .inl hc
      · exact .inl hc
    have hclose := hk.trans hmark (hk.close h _ hmay)
    exact hk.sane fun hsane => hk.trans hclose (ih _ ((hk.keep hclose hsane).closing hc))

theorem finalizeRc (hk : Closed k R) (hend : ∀ {v v'}, EndAct v v' → R v v') (rc : Nat)
    (ac : Connection) : R ac.view (NgxAnytls.finalizeRc k rc ac).view := by
  have hall := hk.closeAll ac.streamList (markClosing ac) rfl
  have hview : ∀ ac : Connection, (closeFallback ac).view = ac.view := fun _ => rfl
  unfold NgxAnytls.finalizeRc
  split_ifs with hc
  · exact hk.refl _
  · have hmark : R ac.view (markClosing ac).view :=
      hend (.finalizing (Bool.eq_false_iff.mpr hc))
    refine hk.trans hmark (hk.sane fun hs => hk.trans hall ?_)
    rw [log_view, hview]
    exact hend (.finalized rc ((hk.keep hall hs).closing rfl))

theorem finalize (hk : Closed k R) (hend : ∀ {v v'}, EndAct v v' → R v v') (ac : Connection) :
    R ac.view (NgxAnytls.finalize k ac).view := hk.finalizeRc hend streamOk ac

end Closed

end Composition

/-- One effect of the code the dispatcher calls. -/
inductive InnerAct : View → View → Prop
  | act {v v'} (h : Act v v') : InnerAct v v'
  | send {v v'} (h : SendAct v v') : InnerAct v v'
  | flags {v v'} (h : v.SameMux v') (hin : v.SameInput v') (ht : v'.trace = v.trace) :
      InnerAct v v'

/-- One effect of a send: nothing but backlogs, records and input flags changes. -/
inductive QuietAct : View → View → Prop
  | note {v} (o : Obs) (ho : o.IsNote) : QuietAct v (v.log o)
  | send {v v'} (h : SendAct v v') : QuietAct v v'
  | flags {v v'} (h : v.SameMux v') (hin : v.SameInput v') (ht : v'.trace = v.trace) :
      QuietAct v v'

/-- What a send leaves of a stream. -/
structure StreamView.Quiet (st st' : StreamView) : Prop where
  id : st'.id = st.id
  state : st'.state = st.state
  upstream : st'.hasUpstream = st.hasUpstream
  inClosed : st'.inClosed = st.inClosed
  closedByProtocol : st'.closedByProtocol = st.closedByProtocol
  seen : st'.firstPshSeen = st.firstPshSeen
  lookup : st'.lookup = st.lookup

theorem StreamView.Quiet.refl (st : StreamView) : st.Quiet st := ⟨rfl, rfl, rfl, rfl, rfl, rfl, rfl⟩

theorem StreamView.Quiet.trans {a b c : StreamView} (hab : a.Quiet b) (hbc : b.Quiet c) :
    a.Quiet c where
  id := hbc.id.trans hab.id
  state := hbc.state.trans hab.state
  upstream := hbc.upstream.trans hab.upstream
  inClosed := hbc.inClosed.trans hab.inClosed
  closedByProtocol := hbc.closedByProtocol.trans hab.closedByProtocol
  seen := hbc.seen.trans hab.seen
  lookup := hbc.lookup.trans hab.lookup

/-- What a send leaves of a session. -/
structure View.Quiet (v v' : View) : Prop where
  streams : ∀ h, (v.streams h).Quiet (v'.streams h)
  nstreams : v'.nstreams = v.nstreams
  fin : ∀ h, ClientFin h v'.trace → ClientFin h v.trace

open Relation

private theorem steps_quiet : Steps (ReflTransGen QuietAct) where
  refl _ := .refl
  trans := .trans
  send h := .single (.send h)
  note o ho := .single (.note o ho)

private theorem steps_inner : Steps (ReflTransGen InnerAct) where
  refl _ := .refl
  trans := .trans
  send h := .single (.send h)
  note o ho := .single (.act (.note o ho))

variable {v v' : View}

/-- A record that is no FIN of the client. -/
theorem clientFin_append {h : Handle} {o : Obs} {t : List Obs} (ho : ∀ g st, o ≠ .clientFin g st)
    (hfin : ClientFin h (t ++ [o])) : ClientFin h t := by
  obtain ⟨st, hm⟩ := hfin
  exact ⟨st, (List.mem_append.mp hm).resolve_right fun hm =>
    ho h st (List.mem_singleton.mp hm).symm⟩

private theorem quiet_upd {w : View} {g : Handle} {f : StreamView → StreamView}
    (hw : v'.streams = (w.upd g f).streams) (hv : w.streams = v.streams)
    (hf : ∀ st : StreamView, st.Quiet (f st)) (h : Handle) :
    (v.streams h).Quiet (v'.streams h) := by
  rw [hw, View.upd_streams, hv]
  split_ifs with hg
  · exact hg ▸ hf _
  · exact .refl _

theorem QuietAct.quiet (hq : QuietAct v v') : v.Quiet v' := by
  cases hq with
  | note o ho =>
    exact ⟨fun _ => .refl _, rfl, fun _ => clientFin_append (by rintro g st rfl; exact ho)⟩
  | send hact =>
    cases hact with
    | chain => exact ⟨fun _ => .refl _, rfl, fun _ => clientFin_append (by simp)⟩
    | account h p ps n =>
      exact ⟨quiet_upd (View.log_streams _ _) rfl fun _ => by constructor <;> rfl, rfl,
        fun _ => clientFin_append (by simp)⟩
    | pop h =>
      exact ⟨quiet_upd rfl rfl fun _ => by constructor <;> rfl, rfl, fun _ => id⟩
    | shutdown h =>
      exact ⟨quiet_upd (View.log_streams _ _) rfl fun _ => by constructor <;> rfl, rfl,
        fun _ => clientFin_append (by simp)⟩
  | flags hmux _ ht => exact ⟨fun _ => hmux.streams ▸ .refl _, hmux.nstreams, fun _ => ht ▸ id⟩

theorem quiet_of_steps (hq : ReflTransGen QuietAct v v') : v.Quiet v' := by
  induction hq with
  | refl => exact ⟨fun _ => .refl _, rfl, fun _ => id⟩
  | tail _ hact ih =>
    exact ⟨fun h => (ih.streams h).trans (hact.quiet.streams h),
      hact.quiet.nstreams.trans ih.nstreams,
      fun h hc => ih.fin h (hact.quiet.fin h hc)⟩

/-- What the code the dispatcher calls leaves of a session. -/
structure View.Inner (v v' : View) : Prop where
  seen : ∀ h, (v'.streams h).firstPshSeen = (v.streams h).firstPshSeen
  nstreams : v'.nstreams = v.nstreams
  fin : ∀ h, ClientFin h v'.trace → ClientFin h v.trace

private theorem seen_upd {w : View} {g : Handle} {f : StreamView → StreamView}
    (hw : v'.streams = (w.upd g f).streams) (hv : w.streams = v.streams)
    (hf : ∀ st, (f st).firstPshSeen = st.firstPshSeen) (h : Handle) :
    (v'.streams h).firstPshSeen = (v.streams h).firstPshSeen := by
  rw [hw, View.upd_streams, hv]
  split_ifs with hg
  · exact hg ▸ hf _
  · rfl

theorem Act.inner (hact : Act v v') : v.Inner v' := by
  cases hact with
  | note o ho =>
    exact ⟨fun _ => rfl, rfl, fun _ => clientFin_append (by rintro g st rfl; exact ho)⟩
  | queue owner f id body route =>
    refine ⟨fun h => ?_, ?_, fun h hc => ?_⟩
    · have hcount : ((v.count owner (f.prepare owner)).streams h).firstPshSeen =
          (v.streams h).firstPshSeen := by
        cases owner with
        | none => rfl
        | some g =>
          simp only [View.count]
          exact seen_upd rfl rfl (fun _ => by rfl) h
      rw [← hcount]
      cases route with
      | control => rfl
      | data => rfl
      | own g =>
        simp only [View.log_streams, View.enqueue, View.place]
        exact seen_upd rfl rfl (fun _ => by rfl) h
    · cases owner <;> cases route <;> rfl
    · have htrace : (v.enqueue owner f route).trace = v.trace := by
        cases owner <;> cases route <;> rfl
      rw [View.log_trace, htrace] at hc
      exact clientFin_append (by simp) hc
  | schedule h f fs =>
    exact ⟨seen_upd rfl rfl fun _ => by rfl, rfl, fun _ => id⟩
  | link =>
    refine ⟨fun _ => rfl, rfl, ?_⟩
    rintro h ⟨st, hm⟩
    exact ⟨st, (List.mem_append.mp hm).resolve_right (by simp)⟩
  | take n => exact ⟨fun _ => rfl, rfl, fun _ => clientFin_append (by simp)⟩
  | retire f fs =>
    unfold View.retire
    cases f.stream with
    | none => exact ⟨fun _ => rfl, rfl, fun _ => id⟩
    | some h => exact ⟨seen_upd rfl rfl fun _ => by rfl, rfl, fun _ => id⟩
  | closing h _ _ _ _ queue =>
    exact ⟨seen_upd (View.log_streams _ _) rfl fun _ => by rfl, rfl,
      fun _ => clientFin_append (by simp)⟩
  | closed h =>
    exact ⟨seen_upd (View.log_streams _ _) rfl fun _ => by rfl, rfl,
      fun _ => clientFin_append (by simp)⟩
  | discard h =>
    exact ⟨seen_upd (View.log_streams _ _) rfl fun _ => by rfl, rfl,
      fun _ => clientFin_append (by simp)⟩
  | openUpstream h =>
    exact ⟨seen_upd (View.log_streams _ _) rfl fun _ => by rfl, rfl,
      fun _ => clientFin_append (by simp)⟩
  | state | clamped => exact ⟨fun _ => rfl, rfl, fun _ => clientFin_append (by simp)⟩
  | unqueueClosing | untable | pause | unblock =>
    exact ⟨fun _ => rfl, rfl, fun _ => id⟩
  | synack h | markClosed h | dropOut h | dropUpstream h | lookup h | endLookup h | connecting h
  | connected h => exact ⟨seen_upd rfl rfl fun _ => by rfl, rfl, fun _ => id⟩

theorem InnerAct.inner (hact : InnerAct v v') : v.Inner v' := by
  cases hact with
  | act h => exact h.inner
  | send h =>
    have hq := (QuietAct.send h).quiet
    exact ⟨fun g => (hq.streams g).seen, hq.nstreams, hq.fin⟩
  | flags h _ ht => exact ⟨fun _ => by rw [h.streams], h.nstreams, fun _ => ht ▸ id⟩

theorem inner_of_steps (hi : ReflTransGen InnerAct v v') : v.Inner v' := by
  induction hi with
  | refl => exact ⟨fun _ => rfl, rfl, fun _ => id⟩
  | tail _ hact ih =>
    have hi := hact.inner
    exact ⟨fun h => (hi.seen h).trans (ih.seen h), hi.nstreams.trans ih.nstreams, fun h hc =>
      ih.fin h (hi.fin h hc)⟩

/-- Only input flags and buffers differ. -/
def View.SameBut (v v' : View) : Prop := v.SameMux v' ∧ v'.trace = v.trace

theorem View.SameBut.refl (v : View) : v.SameBut v :=
  ⟨⟨rfl, rfl, rfl, rfl, rfl, rfl, rfl, rfl, rfl, rfl, rfl, rfl⟩, rfl⟩

theorem View.SameBut.trans {a b c : View} (hab : a.SameBut b) (hbc : b.SameBut c) :
    a.SameBut c := by
  obtain ⟨h, ht⟩ := hab
  obtain ⟨h', ht'⟩ := hbc
  exact ⟨⟨h'.conf.trans h.conf, h'.streams.trans h.streams, h'.nstreams.trans h.nstreams,
    h'.ht.trans h.ht, h'.closingStreams.trans h.closingStreams, h'.controlOut.trans h.controlOut,
    h'.dataOut.trans h.dataOut, h'.sending.trans h.sending, h'.frames.trans h.frames,
    h'.pendingOutput.trans h.pendingOutput, h'.core.trans h.core, h'.closing.trans h.closing⟩,
      ht'.trans ht⟩

/-- Only input flags differ, and no input is held back that was not. -/
structure View.SameFlags (v v' : View) : Prop where
  but : v.SameBut v'
  input : v.SameInput v'

theorem View.SameInput.trans {a b c : View} (hab : a.SameInput b) (hbc : b.SameInput c) :
    a.SameInput c where
  state := hbc.state.trans hab.state
  remnant h := hbc.remnant (hab.remnant h)
  auth := hbc.auth.trans hab.auth
  authenticated := hbc.authenticated.trans hab.authenticated
  authHashMatched := hbc.authHashMatched.trans hab.authHashMatched
  replay := hbc.replay.trans hab.replay
  clientBuf := hbc.clientBuf.trans hab.clientBuf
  blocked hr h := hbc.blocked (hab.remnant hr) (hab.blocked hr h)
  paused h := hbc.paused (hab.paused h)

theorem View.SameFlags.refl (v : View) : v.SameFlags v :=
  ⟨.refl v, ⟨rfl, id, rfl, rfl, rfl, rfl, rfl, fun _ h => h, id⟩⟩

theorem View.SameFlags.trans {a b c : View} (hab : a.SameFlags b) (hbc : b.SameFlags c) :
    a.SameFlags c := ⟨hab.but.trans hbc.but, hab.input.trans hbc.input⟩

@[simp] theorem enableClientRead_view (ac : Connection) :
    (enableClientRead ac).2.view = (setReadBlocked false ac).view := by
  unfold enableClientRead
  dsimp only
  split_ifs
  · rfl
  · rfl
  · rfl

/-- A resume while frames are parsed only changes input flags. -/
theorem innerResume_same (ac : Connection) :
    ac.view.SameFlags (inputResume (fun _ ac => (.error, ac)) ac).2.view := by
  have henable : ac.view.SameFlags (setReadBlocked false (setInputPaused false ac)).view :=
    ⟨⟨⟨rfl, rfl, rfl, rfl, rfl, rfl, rfl, rfl, rfl, rfl, rfl, rfl⟩, rfl⟩,
      ⟨rfl, id, rfl, rfl, rfl, rfl, rfl, fun _ _ => nofun, fun _ => nofun⟩⟩
  unfold inputResume
  dsimp only
  rw [if_pos (show Rc.error ≠ Rc.ok by decide)]
  split_ifs with _ _ _ hheld
  · exact .refl _
  · exact .refl _
  · exact .refl _
  · exact ⟨⟨⟨rfl, rfl, rfl, rfl, rfl, rfl, rfl, rfl, rfl, rfl, rfl, rfl⟩, rfl⟩,
      ⟨rfl, fun _ => rfl, rfl, rfl, rfl, rfl, rfl, fun hr => absurd hr hheld, fun _ => nofun⟩⟩
  · rw [enableClientRead_view]
    exact henable

theorem call_input {P : View → View → Prop} (hP : v.SameMux v' → v'.trace = v.trace → P v v')
    (h : v.SameMux v') (ht : v'.trace = v.trace) : Call P v v' := fun hs =>
  have hs' : v'.Sane := SessionAct.sane (.input h ht) hs
  ⟨h.keeps hs' [] (by simp) (by simpa using ht), hP h ht⟩

/-- The inner callbacks do what `InnerAct` says. -/
theorem closed_inner (conf : Conf) : Closed (innerCallbacks conf) (Call (ReflTransGen InnerAct)) :=
  steps_inner.callbacks (fun _ h => .single (.act h)) (fun ac =>
    have hsame := innerResume_same ac
    call_input (fun h ht => .single (.flags h hsame.input ht)) hsame.but.1 hsame.but.2) _

/-- A send while frames are parsed does what `QuietAct` says. -/
theorem innerSend_quiet (conf : Conf) (h : Handle) (maxBytes : Nat) (ac : Connection) :
    Call (ReflTransGen QuietAct) ac.view
      (sendPending (innerCallbacks conf) h maxBytes ac).2.2.view :=
  steps_quiet.sendPending (fun ac =>
    have hsame := innerResume_same ac
    call_input (fun h ht => .single (.flags h hsame.input ht)) hsame.but.1 hsame.but.2)
      h maxBytes ac

end NgxAnytls
