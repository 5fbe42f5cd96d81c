import NgxAnytls.View

/-! What holds in every reachable session, whatever the order of effects. -/

namespace NgxAnytls

/-- The stream whose client data, socket data or frames a record of the trace is about. -/
def Obs.stream? : Obs → Option Handle
  | .psh h _ | .clientFin h _ | .upDirect h _ | .upAppend h _ | .upChain h _ | .upAccount h _
  | .upShutdown h => some h
  | .queued f _ _ => f.stream
  | _ => none

/-- The close of the stream is in the trace. -/
def CloseBegun (h : Handle) (t : List Obs) : Prop := .streamClosing h ∈ t ∨ .streamClosed h ∈ t

/-- The bookkeeping of one stream. -/
structure StreamView.Sane (st : StreamView) (h : Handle) (t : List Obs) : Prop where
  unseen : st.firstPshSeen = false → st.hasUpstream = false ∧ st.lookup = false ∧
    st.state ≠ .connecting ∧ ¬st.IsOpen
  lookup : st.lookup → st.hasUpstream = false ∧ st.IsEarly
  marked : ClientFin h t → st.closedByProtocol
  halfClosed : st.state = .halfClosed → ClientFin h t
  deferred : st.pendingShutdown → st.state = .halfClosed ∨ CloseBegun h t
  closingState : st.state = .closing → .streamClosing h ∈ t
  finFlag : st.finQueued ∨ st.finSent → FinQueued h t
  finOut : ∀ f ∈ st.out, f.fin → ∀ g, f.stream = some g → FinQueued g t

/-- What a handle that names no stream yet stands for. -/
structure StreamView.Untouched (st : StreamView) : Prop where
  seen : st.firstPshSeen = false
  pending : st.pendingIn = []
  out : st.out = []
  shutdown : st.pendingShutdown = false

theorem FinQueued.mono {h : Handle} {t t' : List Obs} (hf : FinQueued h t) (ht : t ⊆ t') :
    FinQueued h t' := by
  obtain ⟨f, n, version, hmem, hrest⟩ := hf
  exact ⟨f, n, version, ht hmem, hrest⟩

theorem ClientFin.mono {h : Handle} {t t' : List Obs} (hf : ClientFin h t) (ht : t ⊆ t') :
    ClientFin h t' := by
  obtain ⟨s, hmem⟩ := hf
  exact ⟨s, ht hmem⟩

theorem CloseReason.mono {h : Handle} {t t' : List Obs} (hr : CloseReason h t) (ht : t ⊆ t') :
    CloseReason h t' := by
  rcases hr with hf | ⟨f, n, version, hm, hrest⟩ | hc | ⟨cause, version, sent, room, hm, huntold⟩
  · exact .inl (hf.mono ht)
  · exact .inr (.inl ⟨f, n, version, ht hm, hrest⟩)
  · exact .inr (.inr (.inl (hc.mono ht)))
  · exact .inr (.inr (.inr ⟨cause, version, sent, room, ht hm, huntold⟩))

theorem CloseBegun.mono {h : Handle} {t t' : List Obs} (hc : CloseBegun h t) (ht : t ⊆ t') :
    CloseBegun h t' := hc.imp (fun hm => ht hm) fun hm => ht hm

theorem StreamView.Sane.mono {st : StreamView} {h : Handle} {t t' : List Obs}
    (hs : st.Sane h t) (ht : t ⊆ t') (hfin : ClientFin h t' → ClientFin h t) : st.Sane h t' where
  unseen := hs.unseen
  lookup := hs.lookup
  marked hc := hs.marked (hfin hc)
  halfClosed hst := (hs.halfClosed hst).mono ht
  deferred hp := (hs.deferred hp).imp_right fun hc => hc.mono ht
  closingState hst := ht (hs.closingState hst)
  finFlag hf := (hs.finFlag hf).mono ht
  finOut f hf hfin g hg := (hs.finOut f hf hfin g hg).mono ht

/-- The frames on their way to the client that have left their stream. -/
def View.flight (v : View) : List OutFrame := v.controlOut ++ v.dataOut ++ v.sending

/-- A FIN frame of a stream is in the trace. -/
def OutFrame.FinLogged (f : OutFrame) (t : List Obs) : Prop :=
  f.fin → ∀ h, f.stream = some h → FinQueued h t

theorem OutFrame.FinLogged.mono {f : OutFrame} {t t' : List Obs} (hf : f.FinLogged t)
    (ht : t ⊆ t') : f.FinLogged t' := fun hfin h hh => (hf hfin h hh).mono ht

/-- The bookkeeping of streams, closes and FIN frames. -/
structure View.Sane (v : View) : Prop where
  stream : ∀ h, (v.streams h).Sane h v.trace
  fresh : ∀ h, v.nstreams ≤ h → (v.streams h).Untouched
  known : ∀ o ∈ v.trace, ∀ h, o.stream? = some h → h < v.nstreams
  table : ∀ h, .used h ∈ v.ht → h < v.nstreams
  closingQueue : ∀ h ∈ v.closingStreams, .streamClosing h ∈ v.trace
  finFrame : ∀ f ∈ v.flight, f.FinLogged v.trace

namespace View.Sane

variable {v v' : View}

theorem known_of_seen (hs : v.Sane) {h : Handle} (hseen : (v.streams h).firstPshSeen) :
    h < v.nstreams := by
  by_contra hle
  rw [(hs.fresh h (not_lt.mp hle)).seen] at hseen
  exact absurd hseen (by decide)

theorem seen_of_upstream (hs : v.Sane) {h : Handle} (hup : (v.streams h).hasUpstream) :
    (v.streams h).firstPshSeen := by
  by_contra hseen
  rw [((hs.stream h).unseen (Bool.eq_false_iff.mpr hseen)).1] at hup
  exact absurd hup (by decide)

theorem seen_of_lookup (hs : v.Sane) {h : Handle} (hlook : (v.streams h).lookup) :
    (v.streams h).firstPshSeen := by
  by_contra hseen
  rw [((hs.stream h).unseen (Bool.eq_false_iff.mpr hseen)).2.1] at hlook
  exact absurd hlook (by decide)

theorem seen_of_open (hs : v.Sane) {h : Handle} (hopen : (v.streams h).IsOpen) :
    (v.streams h).firstPshSeen := by
  by_contra hseen
  exact ((hs.stream h).unseen (Bool.eq_false_iff.mpr hseen)).2.2.2 hopen

theorem known_of_pending (hs : v.Sane) {h : Handle} (hp : (v.streams h).pendingIn ≠ []) :
    h < v.nstreams := by
  by_contra hle
  exact hp (hs.fresh h (not_lt.mp hle)).pending

theorem known_of_fin (hs : v.Sane) {h : Handle} (hfin : ClientFin h v.trace) :
    h < v.nstreams := by
  obtain ⟨s, hmem⟩ := hfin
  exact hs.known _ hmem h rfl

/-- A change of at most one stream, seen from the records it adds to the trace. -/
theorem next (hs : v.Sane) (h : Handle) (s : List Obs)
    (hself : (v'.streams h).Sane h v'.trace)
    (hfresh : v.nstreams ≤ h → (v'.streams h).Untouched)
    (hother : ∀ g, g ≠ h → v'.streams g = v.streams g)
    (hn : v'.nstreams = v.nstreams)
    (htr : v'.trace = v.trace ++ s)
    (hknown : ∀ o ∈ s, ∀ g, o.stream? = some g → g < v.nstreams)
    (hfin : ∀ g, g ≠ h → ∀ st, .clientFin g st ∉ s)
    (hht : ∀ g, .used g ∈ v'.ht → .used g ∈ v.ht)
    (hqueue : ∀ g ∈ v'.closingStreams, g ∈ v.closingStreams ∨ .streamClosing g ∈ v'.trace)
    (hframes : ∀ f ∈ v'.flight, f ∈ v.flight ∨ f.FinLogged v'.trace) : v'.Sane where
  stream g := by
    by_cases hg : g = h
    · exact hg ▸ hself
    · rw [hother g hg, htr]
      refine (hs.stream g).mono (List.subset_append_left _ _) ?_
      rintro ⟨st, hmem⟩
      exact ⟨st, (List.mem_append.mp hmem).resolve_right (hfin g hg st)⟩
  fresh g hg := by
    by_cases hgh : g = h
    · exact hgh ▸ hfresh (by rw [← hgh, ← hn]; exact hg)
    · rw [hother g hgh]
      exact hs.fresh g (hn ▸ hg)
  known o ho g hg := by
    rw [hn]
    rw [htr] at ho
    exact (List.mem_append.mp ho).elim (fun hm => hs.known o hm g hg) fun hm => hknown o hm g hg
  table g hg := hn ▸ hs.table g (hht g hg)
  closingQueue g hg := by
    refine (hqueue g hg).elim (fun hm => ?_) id
    rw [htr]
    exact List.mem_append_left _ (hs.closingQueue g hm)
  finFrame f hf := by
    refine (hframes f hf).elim (fun hm => ?_) id
    exact (hs.finFrame f hm).mono (htr ▸ List.subset_append_left _ _)

/-- A record about the data of streams that exist, other than a FIN, changes nothing. -/
theorem logKnown (hs : v.Sane) (o : Obs) (ho : ∀ h, o.stream? = some h → h < v.nstreams)
    (hno : ∀ g st, o ≠ .clientFin g st) : (v.log o).Sane := by
  refine hs.next 0 [o] ((hs.stream 0).mono (List.subset_append_left _ _) ?_) (hs.fresh 0)
    (fun _ _ => rfl) rfl rfl ?_ (fun g _ st hm => hno g st (List.mem_singleton.mp hm).symm)
    (fun _ hm => hm) (fun _ hm => .inl hm) fun _ hm => .inl hm
  · rintro ⟨st, hmem⟩
    exact ⟨st, (List.mem_append.mp hmem).resolve_right fun hm =>
      hno 0 st (List.mem_singleton.mp hm).symm⟩
  · intro o' ho' g hg
    exact ho g (List.mem_singleton.mp ho' ▸ hg)

/-- A record that is about no stream's data changes nothing. -/
theorem log (hs : v.Sane) (o : Obs) (ho : o.stream? = none) : (v.log o).Sane :=
  hs.logKnown o (by simp [ho]) (by rintro g st rfl; cases ho)

/-- Frames move on, closed streams leave their queue and table. -/
theorem lists (hs : v.Sane) (hstreams : v'.streams = v.streams) (hn : v'.nstreams = v.nstreams)
    (htr : v'.trace = v.trace) (hht : ∀ g, .used g ∈ v'.ht → .used g ∈ v.ht)
    (hqueue : ∀ g ∈ v'.closingStreams, g ∈ v.closingStreams)
    (hframes : ∀ f ∈ v'.flight, f ∈ v.flight ∨ f.FinLogged v.trace) : v'.Sane :=
  hs.next 0 [] (by rw [hstreams, htr]; exact hs.stream 0) (by rw [hstreams]; exact hs.fresh 0)
    (fun _ _ => by rw [hstreams]) hn (by simpa using htr) (by simp) (by simp) hht
    (fun g hg => .inl (hqueue g hg)) (by rwa [htr])

/-- A change of one stream. -/
theorem upd (hs : v.Sane) (h : Handle) (f : StreamView → StreamView)
    (hself : (f (v.streams h)).Sane h v.trace)
    (hfresh : v.nstreams ≤ h → (f (v.streams h)).Untouched) : (v.upd h f).Sane := by
  refine hs.next h [] ?_ ?_ (fun g hg => ?_) rfl (by simp) (by simp) (by simp)
    (fun _ hm => hm) (fun _ hm => .inl hm) fun _ hm => .inl hm
  · simpa using hself
  · simpa using hfresh
  · simp [hg]

/-- A change of one stream that its bookkeeping does not show. -/
theorem updQuiet (hs : v.Sane) (h : Handle) (f : StreamView → StreamView)
    (hself : ∀ st t, st.Sane h t → (f st).Sane h t)
    (hfresh : ∀ st, st.Untouched → (f st).Untouched) : (v.upd h f).Sane :=
  hs.upd h f (hself _ _ (hs.stream h)) fun hn => hfresh _ (hs.fresh h hn)

end View.Sane

section Effects

variable {v v' : View}

/-- A frame whose FIN, if it is one, is in the trace can be counted and linked. -/
theorem View.Sane.enqueue (hs : v.Sane) {owner : Option Handle} {f : OutFrame} {route : Route}
    (hknown : ∀ h, owner = some h → h < v.nstreams)
    (hfin : f.fin → ∀ h, owner = some h → FinQueued h v.trace)
    (hroute : ∀ h, route = .own h → owner = some h) : (v.enqueue owner f route).Sane := by
  have hlogged : (f.prepare owner).FinLogged v.trace := hfin
  have htotal : View.Sane { v with
      frames := v.frames + 1
      pendingOutput := v.pendingOutput + (f.prepare owner).length } := { hs with }
  have hcount : (v.count owner (f.prepare owner)).Sane := by
    cases owner with
    | none => exact htotal
    | some h =>
      refine htotal.upd h (fun st => { st with
          queuedFrames := st.queuedFrames + 1
          pendingOut := st.pendingOut + (f.prepare (some h)).length
          finQueued := st.finQueued || (f.prepare (some h)).fin })
        { htotal.stream h with finFlag := fun hq => ?_ } fun hn => { htotal.fresh h hn with }
      simp only [Bool.or_eq_true] at hq
      exact hq.elim (fun hq => hq.elim (fun hq => (hs.stream h).finFlag (.inl hq)) fun hf =>
        hfin hf h rfl) fun hsent => (hs.stream h).finFlag (.inr hsent)
  have htrace : (v.count owner (f.prepare owner)).trace = v.trace := by cases owner <;> rfl
  have hn : (v.count owner (f.prepare owner)).nstreams = v.nstreams := by cases owner <;> rfl
  unfold View.enqueue
  generalize v.count owner (f.prepare owner) = w at hcount htrace hn
  rw [← htrace] at hlogged
  cases route with
  | control =>
    refine hcount.lists rfl rfl rfl (fun _ hm => hm) (fun _ hm => hm) fun g hg => ?_
    simp only [View.flight, View.place, List.mem_append, List.mem_singleton] at hg ⊢
    rcases hg with ((hg | rfl) | hg) | hg
    all_goals tauto
  | data =>
    refine hcount.lists rfl rfl rfl (fun _ hm => hm) (fun _ hm => hm) fun g hg => ?_
    simp only [View.flight, View.place, List.mem_append, List.mem_singleton] at hg ⊢
    rcases hg with (hg | hg | rfl) | hg
    all_goals tauto
  | own h =>
    refine hcount.upd h (fun st => { st with out := st.out ++ [f.prepare owner] })
      { hcount.stream h with finOut := fun g hg => ?_ } fun hle =>
        absurd (hknown h (hroute h rfl)) (by rw [← hn]; exact not_lt.mpr hle)
    rcases List.mem_append.mp hg with hg | hg
    · exact (hcount.stream h).finOut g hg
    · exact List.mem_singleton.mp hg ▸ hlogged

theorem View.Sane.queue (hs : v.Sane) {owner : Option Handle} {f : OutFrame} {id : UInt32}
    {body : Bytes} {route : Route}
    (howner : ∀ h, owner = some h → h < v.nstreams ∧ id = (v.streams h).id)
    (hroute : ∀ h, route = .own h → owner = some h) (hf : f.Built id body v.trace)
    (n version : Nat) :
    ((v.enqueue owner f route).log (.queued (f.prepare owner) n version)).Sane := by
  have hcomm : (v.enqueue owner f route).log (.queued (f.prepare owner) n version) =
      (v.log (.queued (f.prepare owner) n version)).enqueue owner f route := by
    cases owner <;> cases route <;> rfl
  rw [hcomm]
  refine (hs.logKnown (.queued (f.prepare owner) n version) (fun h hh => (howner h hh).1)
    (by simp)).enqueue (fun h hh => (howner h hh).1) (fun hfin h hh => ?_) hroute
  have hcmd : f.cmd = .fin := by simpa [hf.fin] using hfin
  exact ⟨f.prepare owner, n, version, by simp, hcmd, hh⟩

theorem View.Sane.schedule (hs : v.Sane) {h : Handle} {f : OutFrame} {fs : List OutFrame}
    (hout : (v.streams h).out = f :: fs) :
    ({ v with dataOut := v.dataOut ++ [f] }.upd h fun st => { st with out := fs }).Sane := by
  have hlogged : f.FinLogged v.trace := fun hfin g hg =>
    (hs.stream h).finOut f (by rw [hout]; exact List.mem_cons_self) hfin g hg
  have hdata : View.Sane { v with dataOut := v.dataOut ++ [f] } := by
    refine hs.lists rfl rfl rfl (fun _ hm => hm) (fun _ hm => hm) fun g hg => ?_
    simp only [View.flight, List.mem_append, List.mem_singleton] at hg ⊢
    rcases hg with (hg | hg | rfl) | hg
    all_goals tauto
  refine hdata.upd h _ { hs.stream h with finOut := fun g hg => ?_ } fun hn =>
    absurd (hs.fresh h hn).out (by simp [hout])
  exact (hs.stream h).finOut g (by rw [hout]; exact List.mem_cons_of_mem _ hg)

theorem View.Sane.link (hs : v.Sane) : View.Sane { v with
    sending := v.sending ++ (v.controlOut ++ v.dataOut), controlOut := [], dataOut := []
    trace := v.trace ++ (v.controlOut ++ v.dataOut).map .linked } := by
  have hno : ∀ h st, Obs.clientFin h st ∉ (v.controlOut ++ v.dataOut).map Obs.linked := by simp
  refine hs.next 0 ((v.controlOut ++ v.dataOut).map .linked)
    ((hs.stream 0).mono (List.subset_append_left _ _) ?_) (hs.fresh 0) (fun _ _ => rfl) rfl rfl
    ?_ (fun g _ st => hno g st) (fun _ hm => hm) (fun _ hm => .inl hm) fun f hf => .inl ?_
  · rintro ⟨st, hmem⟩
    exact ⟨st, (List.mem_append.mp hmem).resolve_right (hno 0 st)⟩
  · intro o ho g hg
    obtain ⟨f, -, rfl⟩ := List.mem_map.mp ho
    cases hg
  · simp only [View.flight, List.mem_append, List.not_mem_nil, false_or] at hf ⊢
    tauto

private theorem mem_takeSent {n : Nat} {fs : List OutFrame} {f : OutFrame}
    (hf : f ∈ takeSent n fs) :
    ∃ g ∈ fs, f.fin = g.fin ∧ f.stream = g.stream := by
  induction fs generalizing n with
  | nil => cases hf
  | cons g gs ih =>
    rcases List.mem_cons.mp hf with rfl | hf
    · exact ⟨g, by simp, rfl, rfl⟩
    · obtain ⟨g', hg', hrest⟩ := ih hf
      exact ⟨g', List.mem_cons_of_mem _ hg', hrest⟩

theorem View.Sane.take (hs : v.Sane) (n : Nat) (bs : Bytes) :
    ({ v with sending := takeSent n v.sending }.log (.clientSend bs)).Sane := by
  have htake : View.Sane { v with sending := takeSent n v.sending } := by
    refine hs.lists rfl rfl rfl (fun _ hm => hm) (fun _ hm => hm) fun f hf => ?_
    simp only [View.flight, List.mem_append] at hf
    rcases hf with hf | hf
    · exact .inl (by simp only [View.flight, List.mem_append]; tauto)
    · obtain ⟨g, hg, hfin, hst⟩ := mem_takeSent hf
      have hlogged := hs.finFrame g (by simp only [View.flight, List.mem_append]; tauto)
      exact .inr fun h1 h h2 => hlogged (hfin ▸ h1) h (hst ▸ h2)
  exact htake.log (.clientSend bs) rfl

theorem View.Sane.retire (hs : v.Sane) {f : OutFrame} {fs : List OutFrame}
    (hsend : v.sending = f :: fs) : (v.retire f fs).Sane := by
  have hlogged := hs.finFrame f (by simp [View.flight, hsend])
  have hrest : View.Sane { v with
      sending := fs, frames := v.frames - 1, pendingOutput := v.pendingOutput - f.length } := by
    refine hs.lists rfl rfl rfl (fun _ hm => hm) (fun _ hm => hm) fun g hg => .inl ?_
    simp only [View.flight, List.mem_append, hsend, List.mem_cons] at hg ⊢
    tauto
  unfold View.retire
  cases hst : f.stream with
  | none => exact hrest
  | some h =>
    refine hrest.upd h _ { hs.stream h with finFlag := fun hq => ?_ } fun hn =>
      { hs.fresh h hn with }
    simp only [Bool.or_eq_true] at hq
    exact hq.elim (fun hq => (hs.stream h).finFlag (.inl hq)) fun hq => hq.elim
      (fun hq => (hs.stream h).finFlag (.inr hq)) fun hf => hlogged hf h hst

theorem StreamView.Sane.endLookup {st : StreamView} {h : Handle} {t : List Obs}
    (hs : st.Sane h t) : StreamView.Sane { st with lookup := false } h t :=
  { hs with
    unseen := fun hf => ⟨(hs.unseen hf).1, rfl, (hs.unseen hf).2.2⟩, lookup := by simp }

/-- A stream's state changes while its close or its FIN stands in the trace. -/
theorem StreamView.Sane.setState {st : StreamView} {h : Handle} {t : List Obs}
    (hs : st.Sane h t) (state : StreamState)
    (hseen : st.firstPshSeen = false → state ≠ .connecting ∧ state ≠ .connected ∧
      state ≠ .halfClosed)
    (hlook : st.lookup → state = .init ∨ state = .connecting)
    (hhalf : state = .halfClosed → ClientFin h t)
    (hdefer : st.pendingShutdown → state = .halfClosed ∨ CloseBegun h t)
    (hclosing : state = .closing → .streamClosing h ∈ t) :
    StreamView.Sane { st with state := state } h t where
  unseen hf := ⟨(hs.unseen hf).1, (hs.unseen hf).2.1, (hseen hf).1, fun ho =>
    ho.elim (hseen hf).2.1 (hseen hf).2.2⟩
  lookup hl := ⟨(hs.lookup hl).1, hlook hl⟩
  marked := hs.marked
  halfClosed := hhalf
  deferred := hdefer
  closingState := hclosing
  finFlag := hs.finFlag
  finOut := hs.finOut

theorem View.Sane.closing (hs : v.Sane) (h : Handle) (queue : List Handle)
    (hqueue : queue = v.closingStreams ∨ queue = v.closingStreams ++ [h]) :
    (({ v with closingStreams := queue }.upd h fun st =>
      { st with state := .closing, lookup := false }).log (.streamClosing h)).Sane := by
  have hlog := hs.log (.streamClosing h) rfl
  have hlists : View.Sane { v.log (.streamClosing h) with closingStreams := queue } := by
    refine hlog.next h [] (hlog.stream h) (hlog.fresh h) (fun _ _ => rfl) rfl (by simp) (by simp)
      (by simp) (fun _ hm => hm) (fun g hg => ?_) fun _ hm => .inl hm
    rcases hqueue with rfl | rfl
    · exact .inl hg
    · rcases List.mem_append.mp hg with hg | hg
      · exact .inl hg
      · exact .inr (by simp [List.mem_singleton.mp hg])
  refine hlists.upd h (fun st => { st with state := .closing, lookup := false })
    ((hlists.stream h).endLookup.setState .closing (by simp) (by simp) (by simp) (fun _ => ?_)
      fun _ => ?_) fun hn => { hlists.fresh h hn with }
  · exact .inr (.inl (by simp))
  · simp

theorem View.Sane.closed (hs : v.Sane) (h : Handle) :
    ((v.upd h fun st => { st with state := .closed, lookup := false }).log
      (.streamClosed h)).Sane := by
  have hlog := hs.log (.streamClosed h) rfl
  refine hlog.upd h (fun st => { st with state := .closed, lookup := false })
    ((hlog.stream h).endLookup.setState .closed (by simp) (by simp) (by simp) (fun _ => ?_)
      (by simp)) fun hn => { hlog.fresh h hn with }
  exact .inr (.inr (by simp))

theorem View.Sane.connecting (hs : v.Sane) (h : Handle) (hseen : (v.streams h).firstPshSeen)
    (hfin : ¬ClientFin h v.trace) :
    (v.upd h fun st => { st with state := .connecting }).Sane := by
  refine hs.upd h (fun st => { st with state := .connecting })
    ((hs.stream h).setState .connecting (by simp [hseen]) (by simp) (by simp) (fun hp => .inr ?_)
      (by simp)) fun hn => { hs.fresh h hn with }
  exact ((hs.stream h).deferred hp).resolve_left fun hst => hfin ((hs.stream h).halfClosed hst)

theorem View.Sane.openUpstream (hs : v.Sane) (h : Handle) (hseen : (v.streams h).firstPshSeen)
    (hlook : (v.streams h).lookup = false) (hearly : (v.streams h).IsEarly) :
    ((v.upd h fun st => { st with hasUpstream := true, state := .connecting }).log
      (.upConnect h)).Sane := by
  have hlog := hs.log (.upConnect h) rfl
  have hdefer : (v.streams h).pendingShutdown → CloseBegun h (v.log (.upConnect h)).trace :=
    fun hp => (((hs.stream h).deferred hp).resolve_left fun hst =>
      hearly.elim (fun he => by simp [he] at hst) fun he => by simp [he] at hst).mono
      (List.subset_append_left _ _)
  have hstate := (hlog.stream h).setState .connecting (by simp [hseen]) (by simp) (by simp)
    (fun hp => .inr (hdefer hp)) (by simp)
  refine hlog.upd h (fun st => { st with hasUpstream := true, state := .connecting })
    { hstate with
      unseen := fun hf => absurd (hseen.symm.trans hf) (by simp)
      lookup := fun hl => absurd (hlook.symm.trans hl) (by simp) }
    fun hn => { hlog.fresh h hn with }

theorem View.Sane.connected (hs : v.Sane) (h : Handle) (hup : (v.streams h).hasUpstream)
    (hstate : (v.streams h).state = .connecting) :
    (v.upd h fun st => { st with state := .connected }).Sane := by
  have hseen := hs.seen_of_upstream hup
  refine hs.upd h (fun st => { st with state := .connected })
    ((hs.stream h).setState .connected (by simp [hseen]) (fun hl => ?_) (by simp)
      (fun hp => .inr ?_) (by simp)) fun hn => { hs.fresh h hn with }
  · exact absurd (((hs.stream h).lookup hl).1.symm.trans hup) (by simp)
  · exact ((hs.stream h).deferred hp).resolve_left (by simp [hstate])

/-- `Act` keeps the bookkeeping. -/
theorem Act.sane (h : Act v v') (hs : v.Sane) : v'.Sane := by
  cases h with
  | note o ho => exact hs.log o (by cases o <;> first | rfl | exact ho.elim)
  | state h new => exact hs.log _ rfl
  | clamped => exact hs.log .clamped rfl
  | queue owner f id body route howner hroute _ _ _ hf => exact hs.queue howner hroute hf _ _
  | schedule h f fs hout => exact hs.schedule hout
  | link => exact hs.link
  | take n => exact hs.take n _
  | retire f fs hsend => exact hs.retire hsend
  | synack h =>
    exact hs.updQuiet h _ (fun _ _ hst => { hst with }) fun _ hst => { hst with }
  | markClosed h =>
    exact hs.updQuiet h _ (fun _ _ hst => { hst with marked := fun _ => rfl })
      fun _ hst => { hst with }
  | closing h _ _ _ _ queue hqueue => exact hs.closing h queue hqueue
  | closed h => exact hs.closed h
  | unqueueClosing h =>
    exact hs.lists rfl rfl rfl (fun _ hm => hm) (fun _ hm => List.mem_of_mem_erase hm)
      fun _ hm => .inl hm
  | untable idx =>
    exact hs.lists rfl rfl rfl (fun g hm => (List.mem_or_eq_of_mem_set hm).resolve_right (by simp))
      (fun _ hm => hm) fun _ hm => .inl hm
  | dropOut h =>
    have htotal : View.Sane { v with
        frames := v.frames - (v.streams h).out.length
        pendingOutput := (v.streams h).out.foldl (fun n (f : OutFrame) => n - f.length)
          v.pendingOutput } := { hs with }
    exact htotal.updQuiet h _ (fun _ _ hst => { hst with finOut := by simp }) fun _ hst =>
      { hst with out := rfl }
  | dropUpstream h =>
    exact hs.updQuiet h _ (fun _ _ hst => { hst with
      unseen := fun hf => ⟨rfl, (hst.unseen hf).2⟩, lookup := fun hl => ⟨rfl, (hst.lookup hl).2⟩ })
      fun _ hst => { hst with }
  | discard h =>
    exact (hs.log (.upDiscard h) rfl).updQuiet h (fun st => { st with pendingIn := [] })
      (fun _ _ hst => { hst with }) fun _ hst => { hst with pending := rfl }
  | lookup h hseen hup hearly =>
    exact hs.upd h _ { hs.stream h with
      unseen := fun hf => absurd (hseen.symm.trans hf) (by simp)
      lookup := fun _ => ⟨hup, hearly⟩ } fun hn => { hs.fresh h hn with }
  | endLookup h =>
    exact hs.updQuiet h _ (fun _ _ hst => hst.endLookup) fun _ hst => { hst with }
  | connecting h hseen hfin => exact hs.connecting h hseen hfin
  | openUpstream h hseen _ hlook hearly => exact hs.openUpstream h hseen hlook hearly
  | connected h hup hstate => exact hs.connected h hup hstate
  | pause => exact { hs with }
  | unblock => exact { hs with }

/-- `EndAct` keeps the bookkeeping. -/
theorem EndAct.sane (h : EndAct v v') (hs : v.Sane) : v'.Sane := by
  cases h with
  | finalizing => exact { hs with }
  | finalized rc => exact hs.log (.finalize rc) rfl

/-- `SendAct` keeps the bookkeeping. -/
theorem SendAct.sane (h : SendAct v v') (hs : v.Sane) : v'.Sane := by
  cases h with
  | chain h bs _ hp =>
    refine hs.logKnown (.upChain h bs) (fun g hg => ?_) (by simp)
    exact Option.some.inj hg ▸ hs.known_of_pending hp
  | account h p ps n hp =>
    have hlog := hs.logKnown (.upAccount h n) (fun g hg =>
      Option.some.inj hg ▸ hs.known_of_pending (by simp [hp])) (by simp)
    exact hlog.updQuiet h (fun st => { st with pendingIn := accountHead n st.pendingIn })
      (fun _ _ hst => { hst with }) fun st hst =>
        { hst with pending := by show accountHead n st.pendingIn = []; rw [hst.pending]; rfl }
  | pop h =>
    exact hs.updQuiet h (fun st => { st with pendingIn := st.pendingIn.tail })
      (fun _ _ hst => { hst with }) fun st hst =>
        { hst with pending := by show st.pendingIn.tail = []; rw [hst.pending]; rfl }
  | shutdown h _ _ hu =>
    have hlog := hs.logKnown (.upShutdown h) (fun g hg =>
      Option.some.inj hg ▸ hs.known_of_seen (hs.seen_of_upstream hu)) (by simp)
    exact hlog.updQuiet h (fun st => { st with pendingShutdown := false })
      (fun _ _ hst => { hst with deferred := by simp }) fun _ hst => { hst with shutdown := rfl }

theorem View.Sane.fin (hs : v.Sane) (h : Handle) (hknown : h < v.nstreams) :
    ((v.log (.clientFin h (v.streams h).state)).upd h fun st =>
      { st with closedByProtocol := true, inClosed := true }).Sane := by
  have hsub : v.trace ⊆ v.trace ++ [.clientFin h (v.streams h).state] :=
    List.subset_append_left _ _
  have hst := hs.stream h
  refine hs.next h [.clientFin h (v.streams h).state] ?_ (fun hn => absurd hknown (not_lt.mpr hn))
    (fun g hg => by simp [hg]) rfl rfl ?_ ?_ (fun _ hm => hm) (fun _ hm => .inl hm)
    fun _ hm => .inl hm
  · simp only [View.upd_streams, if_true, View.log_streams, View.upd_trace, View.log_trace]
    exact { unseen := hst.unseen, lookup := hst.lookup, marked := fun _ => rfl
            halfClosed := fun hh => (hst.halfClosed hh).mono hsub
            deferred := fun hp => (hst.deferred hp).imp_right fun hc => hc.mono hsub
            closingState := fun hc => hsub (hst.closingState hc)
            finFlag := fun hf => (hst.finFlag hf).mono hsub
            finOut := fun f hf hfin g hg => (hst.finOut f hf hfin g hg).mono hsub }
  · intro o ho g hg
    cases List.mem_singleton.mp ho
    exact Option.some.inj hg ▸ hknown
  · intro g hg st hm
    cases List.mem_singleton.mp hm
    exact hg rfl

/-- A stream of its own handle starts afresh. -/
theorem View.Sane.create (hs : v.Sane) (id : UInt32) :
    (({ v with nstreams := v.nstreams + 1 }.upd v.nstreams fun _ =>
      Stream.view { id := id }).log (.streamOpen v.nstreams id)).Sane := by
  have hsub : v.trace ⊆ v.trace ++ [.streamOpen v.nstreams id] := List.subset_append_left _ _
  have hfin : ∀ g, ClientFin g (v.trace ++ [.streamOpen v.nstreams id]) → ClientFin g v.trace := by
    rintro g ⟨st, hm⟩
    exact ⟨st, by simpa using hm⟩
  constructor
  · intro g
    simp only [View.log_streams, View.upd_streams, View.log_trace, View.upd_trace]
    split_ifs with hg
    · subst hg
      refine { unseen := fun _ => ⟨rfl, rfl, by simp [Stream.view], by
                 simp [Stream.view, StreamView.IsOpen]⟩
               lookup := by simp [Stream.view], marked := fun hc => ?_
               halfClosed := by simp [Stream.view], deferred := by simp [Stream.view]
               closingState := by simp [Stream.view], finFlag := by simp [Stream.view]
               finOut := by simp [Stream.view] }
      exact absurd (hs.known_of_fin (hfin _ hc)) (lt_irrefl _)
    · exact (hs.stream g).mono hsub (hfin g)
  · intro g hg
    have hlt : v.nstreams < g := hg
    simp only [View.log_streams, View.upd_streams, if_neg hlt.ne']
    exact hs.fresh g hlt.le
  · intro o ho g hg
    refine Nat.lt_succ_of_lt ?_
    rcases List.mem_append.mp ho with ho | ho
    · exact hs.known o ho g hg
    · cases List.mem_singleton.mp ho
      cases hg
  · exact fun g hg => Nat.lt_succ_of_lt (hs.table g hg)
  · exact fun g hg => hsub (hs.closingQueue g hg)
  · exact fun f hf => (hs.finFrame f hf).mono hsub

/-- A connected stream of the client's FIN becomes half-closed. -/
theorem View.Sane.halfClose (hs : v.Sane) (h : Handle) (deferred : Bool)
    (hstate : (v.streams h).state = .connected) (hfin : ClientFin h v.trace) :
    (v.upd h fun st => { st with
      state := .halfClosed, pendingShutdown := st.pendingShutdown || deferred }).Sane := by
  have hst := hs.stream h
  have hopen : (v.streams h).IsOpen := .inl hstate
  have hseen := hs.seen_of_open hopen
  refine hs.upd h (fun st => { st with
      state := .halfClosed, pendingShutdown := st.pendingShutdown || deferred })
    { hst with
      unseen := fun hf => absurd (hseen.symm.trans hf) (by simp)
      lookup := fun hl => (hst.lookup hl).2.elim (fun he => by simp [hstate] at he) fun he => by
        simp [hstate] at he
      halfClosed := fun _ => hfin
      deferred := fun _ => .inl rfl
      closingState := by simp } fun hn => ?_
  exact absurd (hs.known_of_seen hseen) (not_lt.mpr hn)

/-- `DispatchAct` keeps the bookkeeping. -/
theorem DispatchAct.sane (h : DispatchAct v v') (hs : v.Sane) : v'.Sane := by
  cases h with
  | psh h data hknown =>
    exact hs.logKnown (.psh h data) (fun g hg => Option.some.inj hg ▸ hknown) (by simp)
  | fin h hknown => exact hs.fin h hknown
  | core => exact { hs with }
  | opening h => exact (hs.log (.opening h _) rfl).log _ rfl
  | create id => exact hs.create id
  | table h idx hknown =>
    refine { hs with table := fun g hg => ?_ }
    rcases List.mem_or_eq_of_mem_set hg with hm | he
    · exact hs.table g hm
    · cases he
      exact hknown
  | firstPshAcc h acc =>
    exact hs.updQuiet h _ (fun _ _ hst => { hst with }) fun _ hst => { hst with }
  | firstPsh h hknown =>
    exact hs.upd h _ { hs.stream h with unseen := by simp } fun hn =>
      absurd hknown (not_lt.mpr hn)
  | openUot h hseen hup hlook _ hfin =>
    have hst := hs.stream h
    refine hs.upd h (fun st => { st with upstreamType := .uot, state := .connected })
      { hst with
        unseen := fun hf => absurd (hseen.symm.trans hf) (by simp)
        lookup := fun hl => absurd (hlook.symm.trans hl) (by simp)
        halfClosed := by simp, closingState := by simp
        deferred := fun hp => .inr ((hst.deferred hp).resolve_left fun hh =>
          hfin (hst.halfClosed hh)) } fun hn => { hs.fresh h hn with }
  | direct h bs hknown =>
    exact hs.logKnown (.upDirect h bs) (fun g hg => Option.some.inj hg ▸ hknown) (by simp)
  | append h bs hknown =>
    have hlog := hs.logKnown (.upAppend h bs) (fun g hg => Option.some.inj hg ▸ hknown) (by simp)
    exact hlog.upd h (fun st => { st with pendingIn := st.pendingIn ++ [{ data := bs }] })
      { hlog.stream h with } fun hn => absurd hknown (not_lt.mpr hn)
  | halfClose h _ hstate hfin =>
    have hopen : (v.streams h).IsOpen := .inl hstate
    have hlog := hs.logKnown (.upShutdown h) (fun g hg =>
      Option.some.inj hg ▸ hs.known_of_seen (hs.seen_of_open hopen)) (by simp)
    have hlog' := hlog.log (.setState h (v.streams h).state .halfClosed) rfl
    simpa using hlog'.halfClose h false hstate ((hfin.mono (List.subset_append_left _ _)).mono
      (List.subset_append_left _ _))
  | deferClose h _ hstate hfin => simpa using hs.halfClose h true hstate hfin

/-- `SessionAct` keeps the bookkeeping. -/
theorem SessionAct.sane (h : SessionAct v v') (hs : v.Sane) : v'.Sane := by
  have hinput : ∀ w : View, w.Sane → w.trace = v'.trace → w.SameMux v' → v'.Sane := by
    intro w hw ht hsame
    have hframes : v'.flight = w.flight := by
      simp only [View.flight, hsame.controlOut, hsame.dataOut, hsame.sending]
    exact hw.lists hsame.streams hsame.nstreams ht.symm (fun _ hm => hsame.ht ▸ hm)
      (fun _ hm => hsame.closingStreams ▸ hm) fun _ hm => .inl (hframes ▸ hm)
  cases h with
  | act h => exact h.sane hs
  | close h => exact h.sane hs
  | send h => exact h.sane hs
  | dispatch h => exact h.sane hs
  | input h ht => exact hinput v hs ht.symm h
  | inputLog o ho h ht =>
    refine hinput (v.log o) (hs.log o ?_) ht.symm { h with }
    cases o <;> first | rfl | exact ho.elim

end Effects

/-- The half-close that waited for the backlog can be done. -/
structure StreamView.Due (st : StreamView) : Prop where
  empty : st.pendingIn = []
  deferred : st.pendingShutdown
  upstream : st.hasUpstream

/-- The half-close of an open stream is due, and no failed resume took the send away before its
end. -/
structure View.Owed (v : View) (h : Handle) : Prop where
  due : (v.streams h).Due
  resumed : .resumeFailed h ∉ v.trace
  live : ¬CloseBegun h v.trace

/-- Calls only add to the trace and the streams; when they return, no bytes are accounted that the
socket did not take on the way, and no half-close is due that was not before. -/
structure View.Keeps (v v' : View) : Prop where
  sane : v'.Sane
  trace : v.trace <+: v'.trace
  nstreams : v.nstreams ≤ v'.nstreams
  closing : v.closing → v'.closing
  unacc : ∀ h, unacc h v.trace ≤ unacc h v'.trace
  owed : ∀ h, v'.Owed h → v.Owed h

namespace View.Keeps

variable {a b c v v' : View}

theorem refl (hs : v.Sane) : v.Keeps v where
  sane := hs
  trace := List.prefix_refl _
  nstreams := le_refl _
  closing := id
  unacc _ := le_refl _
  owed _ ho := ho

theorem trans (hab : a.Keeps b) (hbc : b.Keeps c) : a.Keeps c where
  sane := hbc.sane
  trace := hab.trace.trans hbc.trace
  nstreams := hab.nstreams.trans hbc.nstreams
  closing hc := hbc.closing (hab.closing hc)
  unacc h := (hab.unacc h).trans (hbc.unacc h)
  owed h ho := hab.owed h (hbc.owed h ho)

/-- An effect that adds records about no backlog, and after which a half-close that is due was
due before. -/
theorem of_step (s : List Obs) (hs : v'.Sane) (htr : v'.trace = v.trace ++ s)
    (hn : v.nstreams ≤ v'.nstreams) (hclosing : v.closing → v'.closing)
    (hquiet : ∀ o ∈ s, ∀ h n, unaccStep h n o = n)
    (hdue : ∀ h, v'.Owed h → (v.streams h).Due) : v.Keeps v' where
  sane := hs
  trace := htr ▸ List.prefix_append _ _
  nstreams := hn
  closing := hclosing
  unacc h := by
    have hfold : ∀ n, s.foldl (unaccStep h) n = n := by
      clear htr
      induction s with
      | nil => exact fun _ => rfl
      | cons o s ih =>
        intro n
        rw [List.foldl_cons, hquiet o (by simp)]
        exact ih (fun o' ho' => hquiet o' (List.mem_cons_of_mem _ ho')) n
    rw [htr, NgxAnytls.unacc, NgxAnytls.unacc, List.foldl_append, hfold]
  owed h ho := by
    have hsub : v.trace ⊆ v'.trace := htr ▸ List.subset_append_left _ _
    exact ⟨hdue h ho, fun hm => ho.resumed (hsub hm), fun hc => ho.live (hc.mono hsub)⟩

theorem due_upd {h g : Handle} {f : StreamView → StreamView} {st : StreamView}
    (hdue : ((v.upd h f).streams g).Due) (hf : ∀ st, (f st).Due → st.Due)
    (hst : v.streams g = st) : st.Due := by
  rw [View.upd_streams] at hdue
  split_ifs at hdue with hg
  · exact hst ▸ hg ▸ hf _ hdue
  · exact hst ▸ hdue

theorem due_upd_log {h g : Handle} {f : StreamView → StreamView} {o : Obs} {st : StreamView}
    (hdue : (((v.upd h f).log o).streams g).Due) (hf : ∀ st, (f st).Due → st.Due)
    (hst : v.streams g = st) : st.Due := due_upd hdue hf hst

end View.Keeps

section Effects

variable {v v' : View}

theorem View.due_enqueue {owner : Option Handle} {f : OutFrame} {route : Route} {g : Handle}
    (hdue : ((v.enqueue owner f route).streams g).Due) : (v.streams g).Due := by
  have hcount : ((v.count owner (f.prepare owner)).streams g).Due → (v.streams g).Due := by
    cases owner with
    | none => exact id
    | some h =>
      intro hd
      simp only [View.count] at hd
      exact Keeps.due_upd hd (fun _ hd => ⟨hd.empty, hd.deferred, hd.upstream⟩) rfl
  unfold View.enqueue at hdue
  cases route with
  | control => exact hcount hdue
  | data => exact hcount hdue
  | own h =>
    simp only [View.place] at hdue
    exact hcount (Keeps.due_upd hdue (fun _ hd => ⟨hd.empty, hd.deferred, hd.upstream⟩) rfl)

theorem View.due_retire {f : OutFrame} {fs : List OutFrame} {g : Handle}
    (hdue : ((v.retire f fs).streams g).Due) : (v.streams g).Due := by
  unfold View.retire at hdue
  cases hst : f.stream with
  | none => rw [hst] at hdue; exact hdue
  | some h =>
    rw [hst] at hdue
    simp only at hdue
    exact Keeps.due_upd hdue (fun _ hd => ⟨hd.empty, hd.deferred, hd.upstream⟩) rfl

/-- `Act` keeps what a call keeps. -/
theorem Act.keeps (h : Act v v') (hs : v.Sane) : v.Keeps v' := by
  have hs' := h.sane hs
  cases h with
  | note o ho =>
    refine .of_step [o] hs' rfl (le_refl _) id (fun o' ho' h n => ?_) fun h hd => hd.due
    rw [List.mem_singleton.mp ho']
    cases o <;> first | rfl | exact ho.elim
  | state h new =>
    exact .of_step [.setState h _ new] hs' rfl (le_refl _) id (by simp [unaccStep])
      fun g hd => hd.due
  | clamped =>
    exact .of_step [.clamped] hs' rfl (le_refl _) id (by simp [unaccStep]) fun g hd => hd.due
  | queue owner f id body route =>
    refine .of_step [.queued (f.prepare owner) (v.pendingOutput + (f.prepare owner).length)
      v.core.peerVersion] hs' (by simp) (by simp [View.log]) (fun hc => ?_)
      (by simp [unaccStep]) fun h hd => View.due_enqueue hd.due
    simpa [View.log] using hc
  | schedule h f fs =>
    exact .of_step [] hs' (by simp) (le_refl _) id (by simp) fun g hd =>
      View.Keeps.due_upd hd.due (fun _ hd => ⟨hd.empty, hd.deferred, hd.upstream⟩) rfl
  | link =>
    refine .of_step _ hs' rfl (le_refl _) id (fun o ho h n => ?_) fun g hd => hd.due
    obtain ⟨f, -, rfl⟩ := List.mem_map.mp ho
    rfl
  | take n =>
    exact .of_step [.clientSend _] hs' rfl (le_refl _) id (by simp [unaccStep]) fun g hd => hd.due
  | retire f fs =>
    exact .of_step [] hs' (by simp) (by simp) (by simp) (by simp) fun g hd =>
      View.due_retire hd.due
  | closing h _ _ _ _ queue =>
    exact .of_step [.streamClosing h] hs' rfl (le_refl _) id (by simp [unaccStep]) fun g hd =>
      View.Keeps.due_upd_log hd.due (fun _ hd => ⟨hd.empty, hd.deferred, hd.upstream⟩) rfl
  | closed h =>
    exact .of_step [.streamClosed h] hs' rfl (le_refl _) id (by simp [unaccStep]) fun g hd =>
      View.Keeps.due_upd_log hd.due (fun _ hd => ⟨hd.empty, hd.deferred, hd.upstream⟩) rfl
  | dropUpstream h =>
    exact .of_step [] hs' (by simp) (le_refl _) id (by simp) fun g hd =>
      View.Keeps.due_upd hd.due (fun _ hd => absurd hd.upstream (by simp)) rfl
  | discard h _ hup hstate =>
    refine .of_step [.upDiscard h] hs' rfl (le_refl _) id (by simp [unaccStep]) fun g hd => ?_
    have hdue := hd.due
    simp only [View.log_streams, View.upd_streams] at hdue
    split_ifs at hdue with hg
    · exact absurd (hup.symm.trans hdue.upstream) (by simp)
    · exact hdue
  | openUpstream h =>
    refine .of_step [.upConnect h] hs' rfl (le_refl _) id (by simp [unaccStep]) fun g hd => ?_
    have hdue := hd.due
    simp only [View.log_streams, View.upd_streams] at hdue
    split_ifs at hdue with hg
    · subst hg
      refine absurd ?_ hd.live
      exact ((hs'.stream g).deferred hd.due.deferred).resolve_left (by simp)
    · exact hdue
  | pause => exact .of_step [] hs' (by simp) (le_refl _) id (by simp) fun g hd => hd.due
  | unblock => exact .of_step [] hs' (by simp) (le_refl _) id (by simp) fun g hd => hd.due
  | unqueueClosing h => exact .of_step [] hs' (by simp) (le_refl _) id (by simp) fun g hd => hd.due
  | untable idx => exact .of_step [] hs' (by simp) (le_refl _) id (by simp) fun g hd => hd.due
  | dropOut h =>
    exact .of_step [] hs' (by simp [View.dropOut]) (le_refl _) id (by simp) fun g hd =>
      View.Keeps.due_upd hd.due (fun _ hd => ⟨hd.empty, hd.deferred, hd.upstream⟩) rfl
  | synack | markClosed | lookup | endLookup | connecting | connected =>
    exact .of_step [] hs' (by simp) (le_refl _) id (by simp) fun g hd =>
      View.Keeps.due_upd hd.due (fun _ hd => ⟨hd.empty, hd.deferred, hd.upstream⟩) rfl

/-- `EndAct` keeps what a call keeps. -/
theorem EndAct.keeps (h : EndAct v v') (hs : v.Sane) : v.Keeps v' := by
  have hs' := h.sane hs
  cases h with
  | finalizing =>
    exact .of_step [] hs' (by simp) (le_refl _) (fun _ => rfl) (by simp) fun g hd => hd.due
  | finalized rc =>
    exact .of_step [.finalize rc] hs' rfl (le_refl _) id (by simp [unaccStep]) fun g hd => hd.due

/-- Sending only adds to the trace. -/
theorem SendAct.trace_le (h : SendAct v v') : v.trace <+: v'.trace ∧ v'.nstreams = v.nstreams := by
  cases h <;> exact ⟨by simp, rfl⟩

/-- `DispatchAct` keeps what a call keeps. -/
theorem DispatchAct.keeps (h : DispatchAct v v') (hs : v.Sane) : v.Keeps v' := by
  have hs' := h.sane hs
  cases h with
  | psh h data =>
    exact .of_step [.psh h data] hs' rfl (le_refl _) id (by simp [unaccStep]) fun g hd => hd.due
  | fin h =>
    exact .of_step [.clientFin h _] hs' rfl (le_refl _) id (by simp [unaccStep]) fun g hd =>
      View.Keeps.due_upd hd.due (fun _ hd => ⟨hd.empty, hd.deferred, hd.upstream⟩) rfl
  | core => exact .of_step [] hs' (by simp) (le_refl _) id (by simp) fun g hd => hd.due
  | opening h =>
    exact .of_step [.opening h (v.streams h).state, .setState h (v.streams h).state .connecting]
      hs' (by simp [View.log]) (le_refl _) id
      (by simp [unaccStep]) fun g hd => hd.due
  | create id =>
    refine .of_step [.streamOpen v.nstreams id] hs' rfl (Nat.le_succ _) (fun hc => hc)
      (by simp [unaccStep])
      fun g hd => ?_
    exact View.Keeps.due_upd_log hd.due (fun _ hd => absurd hd.deferred (by simp [Stream.view])) rfl
  | table h idx => exact .of_step [] hs' (by simp) (le_refl _) id (by simp) fun g hd => hd.due
  | direct h bs =>
    exact .of_step [.upDirect h bs] hs' rfl (le_refl _) id (by simp [unaccStep]) fun g hd => hd.due
  | append h bs =>
    exact .of_step [.upAppend h bs] hs' rfl (le_refl _) id (by simp [unaccStep]) fun g hd =>
      View.Keeps.due_upd_log hd.due (fun _ hd => absurd hd.empty (by simp)) rfl
  | halfClose h =>
    exact .of_step [.upShutdown h, .setState h (v.streams h).state .halfClosed] hs'
      (by simp [View.log, View.upd]) (le_refl _) id (by simp [unaccStep]) fun g hd =>
      View.Keeps.due_upd hd.due (fun _ hd => ⟨hd.empty, hd.deferred, hd.upstream⟩) rfl
  | deferClose h hp =>
    refine .of_step [] hs' (by simp) (le_refl _) id (by simp) fun g hd => ?_
    have hdue := hd.due
    rw [View.upd_streams] at hdue
    split_ifs at hdue with hg
    · exact absurd hdue.empty hp
    · exact hdue
  | firstPshAcc | firstPsh | openUot =>
    exact .of_step [] hs' (by simp) (le_refl _) id (by simp) fun g hd =>
      View.Keeps.due_upd hd.due (fun _ hd => ⟨hd.empty, hd.deferred, hd.upstream⟩) rfl

theorem Act.nstreams (h : Act v v') : v'.nstreams = v.nstreams := by
  cases h with
  | queue => simp [View.log]
  | retire => simp
  | _ => rfl

/-- Effects only add to the trace. -/
theorem SessionAct.trace_le (h : SessionAct v v') (hs : v.Sane) : v.trace <+: v'.trace := by
  cases h with
  | act h => exact (h.keeps hs).trace
  | close h => exact (h.keeps hs).trace
  | send h => exact h.trace_le.1
  | dispatch h => exact (h.keeps hs).trace
  | input _ ht => exact ht ▸ List.prefix_refl _
  | inputLog o _ _ ht => exact ht ▸ List.prefix_append _ _

/-- Streams stay allocated. -/
theorem SessionAct.nstreams_le (h : SessionAct v v') (hs : v.Sane) : v.nstreams ≤ v'.nstreams := by
  cases h with
  | act h => exact (h.keeps hs).nstreams
  | close h => exact (h.keeps hs).nstreams
  | send h => exact h.trace_le.2.ge
  | dispatch h => exact (h.keeps hs).nstreams
  | input h _ => exact h.nstreams.ge
  | inputLog _ _ h _ => exact h.nstreams.ge

/-- Input handling keeps what a call keeps. -/
theorem View.SameMux.keeps (h : v.SameMux v') (hs' : v'.Sane) (s : List Obs)
    (hin : ∀ o ∈ s, o.IsInput) (ht : v'.trace = v.trace ++ s) : v.Keeps v' := by
  refine .of_step s hs' ht (le_of_eq h.nstreams.symm) (fun hc => h.closing ▸ hc)
    (fun o ho g n => ?_) fun g hd =>
    h.streams ▸ hd.due
  have := hin o ho
  cases o <;> first | rfl | exact this.elim

end Effects

end NgxAnytls
