import NgxAnytls.OutputLists

/-! The counters of the output say what is on its way to the client. -/

namespace NgxAnytls

open Library

/-- A frame without the bytes still to be sent. -/
def OutFrame.entry (f : OutFrame) : OutFrame := { f with rest := [] }

@[simp] theorem OutFrame.entry_stream (f : OutFrame) : f.entry.stream = f.stream := rfl
@[simp] theorem OutFrame.entry_length (f : OutFrame) : f.entry.length = f.length := rfl
@[simp] theorem OutFrame.entry_cmd (f : OutFrame) : f.entry.cmd = f.cmd := rfl

/-- The counters of the session and of its streams. -/
def View.ledger (v : View) : Ledger Handle where
  count := v.frames
  total := v.pendingOutput
  ownCount h := (v.streams h).queuedFrames
  ownTotal h := (v.streams h).pendingOut

/-- The frames in the lists of the session and of its streams. -/
def View.held (v : View) : Multiset OutFrame := (v.waiting + ↑v.sending).map OutFrame.entry

/-- The counters of an open session are right. -/
structure View.Accounted (v : View) : Prop where
  ledger : v.ledger.Accounts OutFrame.stream OutFrame.length v.held
  owned : ∀ h, ∀ f ∈ (v.streams h).out, f.stream = some h
  known : ∀ f ∈ v.held, ∀ h, f.stream = some h → h < v.nstreams ∧ frameStrongRef f.cmd

/-- A stream keeps its frames and counters. -/
structure StreamView.SameOut (st st' : StreamView) : Prop where
  out : st'.out = st.out
  queuedFrames : st'.queuedFrames = st.queuedFrames
  pendingOut : st'.pendingOut = st.pendingOut

private theorem sameOut_refl (st : StreamView) : st.SameOut st := ⟨rfl, rfl, rfl⟩

section Effects

variable {v v' : View}

theorem View.Accounted.next (hi : v.Accounted) (hledger : v'.ledger = v.ledger)
    (hheld : v'.held = v.held) (hn : v'.nstreams = v.nstreams)
    (hout : ∀ h, (v'.streams h).out = (v.streams h).out) : v'.Accounted where
  ledger := hledger ▸ hheld ▸ hi.ledger
  owned h f hf := hi.owned h f (hout h ▸ hf)
  known f hf h hh := by
    rw [hn]
    exact hi.known f (hheld ▸ hf) h hh

/-- An effect on other things. -/
theorem View.Accounted.quiet (hi : v.Accounted) (hn : v'.nstreams = v.nstreams)
    (hframes : v'.frames = v.frames) (hpending : v'.pendingOutput = v.pendingOutput)
    (hcontrol : v'.controlOut = v.controlOut) (hdata : v'.dataOut = v.dataOut)
    (hsending : v'.sending = v.sending) (hst : ∀ h, (v.streams h).SameOut (v'.streams h)) :
    v'.Accounted := by
  refine hi.next ?_ ?_ hn fun h => (hst h).out
  · simp [View.ledger, hframes, hpending, (hst _).queuedFrames, (hst _).pendingOut]
  · rw [View.held, View.waiting_same hn hcontrol hdata fun h => (hst h).out, hsending, View.held]

theorem View.ledger_enqueue (owner : Option Handle) (f : OutFrame) (route : Route) :
    (v.enqueue owner f route).ledger =
      v.ledger.add OutFrame.stream OutFrame.length (f.prepare owner).entry := by
  have hcount : (v.count owner (f.prepare owner)).ledger =
      v.ledger.add OutFrame.stream OutFrame.length (f.prepare owner).entry := by
    cases owner with
    | none => rfl
    | some g =>
      have hstream : (f.prepare (some g)).stream = some g := rfl
      ext h
      · rfl
      · rfl
      · by_cases hh : g = h
        · subst hh; simp [View.count, View.ledger, Ledger.add, hstream]
        · simp [View.count, View.ledger, Ledger.add, hstream, hh, Ne.symm hh]
      · by_cases hh : g = h
        · subst hh; simp [View.count, View.ledger, Ledger.add, hstream]
        · simp [View.count, View.ledger, Ledger.add, hstream, hh, Ne.symm hh]
  rw [← hcount]
  cases route with
  | control => rfl
  | data => rfl
  | own g =>
    ext h
    · rfl
    · rfl
    · by_cases hh : h = g <;> simp [View.enqueue, View.place, View.ledger, hh]
    · by_cases hh : h = g <;> simp [View.enqueue, View.place, View.ledger, hh]

theorem View.Accounted.enqueue (hi : v.Accounted) {owner : Option Handle} {f : OutFrame}
    {route : Route} (howner : ∀ h, owner = some h → h < v.nstreams)
    (hroute : ∀ h, route = .own h → owner = some h)
    (hcmd : owner.isSome → frameStrongRef f.cmd) : (v.enqueue owner f route).Accounted := by
  have hsending : (v.enqueue owner f route).sending = v.sending := by
    cases owner <;> cases route <;> rfl
  have hheld : (v.enqueue owner f route).held = (f.prepare owner).entry ::ₘ v.held := by
    rw [View.held, View.waiting_enqueue howner hroute, hsending, Multiset.cons_add,
      Multiset.map_cons, View.held]
  refine ⟨?_, fun h g hg => ?_, fun g hg h hh => ?_⟩
  · rw [View.ledger_enqueue, hheld]
    exact hi.ledger.add
  · have hcounted : ((v.count owner (f.prepare owner)).streams h).out = (v.streams h).out := by
      cases owner with
      | none => rfl
      | some i => by_cases hh : h = i <;> simp [View.count, hh]
    cases route with
    | control | data => exact hi.owned h g (hcounted ▸ hg)
    | own i =>
      simp only [View.enqueue, View.place, View.upd_streams] at hg
      split_ifs at hg with hh
      · subst hh
        rcases List.mem_append.mp hg with hg | hg
        · exact hi.owned h g (hcounted ▸ hg)
        · rw [List.mem_singleton.mp hg]
          exact hroute h rfl
      · exact hi.owned h g (hcounted ▸ hg)
  · rw [View.enqueue_nstreams]
    rw [hheld, Multiset.mem_cons] at hg
    rcases hg with rfl | hg
    · obtain rfl : owner = some h := hh
      exact ⟨howner h rfl, hcmd rfl⟩
    · exact hi.known g hg h hh

theorem View.Accounted.schedule (hi : v.Accounted) {h : Handle} {f : OutFrame} {fs : List OutFrame}
    (hknown : h < v.nstreams) (hout : (v.streams h).out = f :: fs) :
    View.Accounted ({ v with dataOut := v.dataOut ++ [f] }.upd h fun st =>
      { st with out := fs }) := by
  have hheld : ({ v with dataOut := v.dataOut ++ [f] }.upd h fun st =>
      { st with out := fs }).held = v.held := by
    rw [View.held, View.waiting_schedule hknown hout, View.held]
    rfl
  refine ⟨?_, fun i g hg => ?_, fun g hg i hh => hi.known g (hheld ▸ hg) i hh⟩
  · rw [hheld]
    refine (congrArg (fun l => Ledger.Accounts _ _ l _) ?_).mp hi.ledger
    ext i
    · rfl
    · rfl
    · by_cases hh : i = h <;> simp [View.ledger, hh]
    · by_cases hh : i = h <;> simp [View.ledger, hh]
  · simp only [View.upd_streams] at hg
    split_ifs at hg with hh
    · exact hh ▸ hi.owned h g (by rw [hout]; exact List.mem_cons_of_mem _ hg)
    · exact hi.owned i g hg

theorem map_entry_takeSent (n : Nat) (fs : List OutFrame) :
    (takeSent n fs).map OutFrame.entry = fs.map OutFrame.entry := by
  induction fs generalizing n with
  | nil => rfl
  | cons f fs ih => rw [takeSent, List.map_cons, List.map_cons, ih]; rfl

theorem View.ledger_retire (f : OutFrame) (fs : List OutFrame) :
    (v.retire f fs).ledger = v.ledger.remove OutFrame.stream OutFrame.length f.entry := by
  unfold View.retire
  cases hst : f.stream with
  | none => simp [View.ledger, Ledger.remove, hst]
  | some g =>
    ext h
    · rfl
    · rfl
    · by_cases hh : g = h
      · subst hh; simp [View.ledger, Ledger.remove, hst]
      · simp [View.ledger, Ledger.remove, hst, hh, Ne.symm hh]
    · by_cases hh : g = h
      · subst hh; simp [View.ledger, Ledger.remove, hst]
      · simp [View.ledger, Ledger.remove, hst, hh, Ne.symm hh]

theorem View.held_retire {f : OutFrame} {fs : List OutFrame} (hs : v.sending = f :: fs) :
    v.held = f.entry ::ₘ (v.retire f fs).held := by
  rw [View.held, View.held, View.waiting_retire, View.retire_sending, hs, ← Multiset.cons_coe,
    Multiset.add_cons, Multiset.map_cons]

theorem View.Accounted.retire (hi : v.Accounted) {f : OutFrame} {fs : List OutFrame}
    (hs : v.sending = f :: fs) : (v.retire f fs).Accounted where
  ledger := by
    rw [View.ledger_retire]
    exact (View.held_retire hs ▸ hi.ledger).remove
  owned h g hg := by
    rw [View.out_retire] at hg
    exact hi.owned h g hg
  known g hg h hh := by
    rw [View.retire_nstreams]
    exact hi.known g (View.held_retire hs ▸ Multiset.mem_cons_of_mem hg) h hh

theorem View.out_le_held {h : Handle} (hknown : h < v.nstreams) :
    (↑((v.streams h).out.map OutFrame.entry) : Multiset OutFrame) ≤ v.held := by
  rw [← Multiset.map_coe]
  exact Multiset.map_le_map ((View.out_le_waiting hknown).trans (Multiset.le_add_right _ _))

/-- The counters cover the list of a stream. -/
theorem View.Accounted.out_covered (hi : v.Accounted) {h : Handle} (hknown : h < v.nstreams) :
    (v.streams h).out.length ≤ v.frames ∧
      ((v.streams h).out.map OutFrame.length).sum ≤ v.pendingOutput ∧
      (v.streams h).out.length ≤ (v.streams h).queuedFrames := by
  have hle := View.out_le_held hknown
  have hall := hi.ledger.weight_le hle
  have hown := hi.ledger.own_le hle (i := h) fun a ha => by
    obtain ⟨f, hf, rfl⟩ := List.mem_map.mp (Multiset.mem_coe.mp ha)
    exact hi.owned h f hf
  have hlength : OutFrame.length ∘ OutFrame.entry = OutFrame.length := rfl
  simp only [Multiset.coe_card, Multiset.map_coe, List.length_map, List.map_map, hlength,
    Multiset.sum_coe] at hall hown
  exact ⟨hall.1, hall.2, hown.1⟩

/-- No counter is too small for what is taken from it. -/
theorem View.Accounted.not_clamped (hi : v.Accounted) (hs : v.Sane) :
    ¬((∃ f fs, v.sending = f :: fs ∧ v.RetireClamps f) ∨ ∃ h, v.DropClamps h) := by
  rintro (⟨f, fs, hsend, hclamps⟩ | ⟨h, hclamps⟩)
  · have hle : {f.entry} ≤ v.held := Multiset.singleton_le.mpr
      (View.held_retire hsend ▸ Multiset.mem_cons_self _ _)
    have hall := hi.ledger.weight_le hle
    simp only [Multiset.card_singleton, Multiset.map_singleton, Multiset.sum_singleton,
      OutFrame.entry_length, View.ledger] at hall
    rcases hclamps with hc | hc | ⟨h, hst, hc⟩
    · omega
    · omega
    · have hown := hi.ledger.own_le hle (i := h) fun a ha => by
        rw [Multiset.mem_singleton.mp ha]
        exact hst
      simp only [Multiset.card_singleton, Multiset.map_singleton, Multiset.sum_singleton,
        OutFrame.entry_length, View.ledger] at hown
      omega
  · by_cases hknown : h < v.nstreams
    · obtain ⟨hframes, hpending, hqueued⟩ := hi.out_covered hknown
      unfold View.DropClamps at hclamps
      omega
    · have hout := (hs.fresh h (not_lt.mp hknown)).out
      simp [View.DropClamps, hout] at hclamps

/-- Giving up the list of a stream with no frame counted gives up nothing. -/
theorem View.Accounted.dropOut (hi : v.Accounted) (hs : v.Sane) {h : Handle}
    (hq : (v.streams h).queuedFrames = 0) : (v.dropOut h).Accounted := by
  have hout : (v.streams h).out = [] := by
    by_cases hknown : h < v.nstreams
    · have hlen := (hi.out_covered hknown).2.2
      exact List.length_eq_zero_iff.mp (by omega)
    · exact (hs.fresh h (not_lt.mp hknown)).out
  have hpending : (v.streams h).pendingOut = 0 := by
    have hnone := hi.ledger.ownCount h
    have htotal := hi.ledger.ownTotal h
    simp only [View.ledger] at hnone htotal
    rw [htotal, Multiset.card_eq_zero.mp (hnone.symm.trans hq)]
    rfl
  refine hi.quiet rfl ?_ ?_ rfl rfl rfl fun i => ?_
  · simp [View.dropOut, hout, View.upd]
  · simp [View.dropOut, hout, View.upd]
  · simp only [View.dropOut, View.upd_streams]
    refine View.rel_ite (v := v) (r := StreamView.SameOut) sameOut_refl ?_ i
    exact ⟨hout.symm, by simp [hout], hpending.symm⟩

/-- A new stream has no frames. -/
theorem View.Accounted.create (hi : v.Accounted) (id : UInt32) :
    View.Accounted (({ v with nstreams := v.nstreams + 1 }.upd v.nstreams fun _ =>
      Stream.view { id := id }).log (.streamOpen v.nstreams id)) := by
  have hnone : v.held.filter (fun f => f.stream = some v.nstreams) = 0 :=
    Multiset.filter_eq_nil.mpr fun f hf hst => absurd (hi.known f hf _ hst).1 (lt_irrefl _)
  have hheld : View.held (({ v with nstreams := v.nstreams + 1 }.upd v.nstreams fun _ =>
      Stream.view { id := id }).log (.streamOpen v.nstreams id)) = v.held := by
    rw [View.held, View.waiting_create, View.held]
    rfl
  refine ⟨?_, fun h f hf => ?_, fun f hf h hh => ?_⟩
  · rw [hheld]
    refine (congrArg (fun l => Ledger.Accounts _ _ l _) ?_).mp hi.ledger
    have hcount := hi.ledger.ownCount v.nstreams
    have htotal := hi.ledger.ownTotal v.nstreams
    rw [hnone] at hcount htotal
    ext h
    · rfl
    · rfl
    · by_cases hh : h = v.nstreams
      · subst hh; simpa [View.ledger, Stream.view] using hcount
      · simp [View.ledger, hh]
    · by_cases hh : h = v.nstreams
      · subst hh; simpa [View.ledger, Stream.view] using htotal
      · simp [View.ledger, hh]
  · simp only [View.log_streams, View.upd_streams] at hf
    split_ifs at hf
    · cases hf
    · exact hi.owned h f hf
  · obtain ⟨hlt, hcmd⟩ := hi.known f (hheld ▸ hf) h hh
    exact ⟨Nat.lt_succ_of_lt hlt, hcmd⟩

theorem Act.accounted (ha : Act v v') (hs : v.Sane) (hopen : v.closing = false)
    (hi : v.Accounted) : v'.Accounted := by
  cases ha with
  | queue owner f id body route howner hroute hcmd =>
    exact (hi.enqueue (fun h hh => (howner h hh).1) hroute hcmd).quiet rfl rfl rfl rfl rfl rfl
      fun _ => sameOut_refl _
  | schedule h f fs hout =>
    have hknown : h < v.nstreams := by
      by_contra hn
      simp [(hs.fresh h (not_lt.mp hn)).out] at hout
    exact hi.schedule hknown hout
  | link =>
    refine hi.next rfl ?_ rfl fun _ => rfl
    simp only [View.held, View.waiting, ← Multiset.coe_add, Multiset.coe_nil, List.append_nil]
    congr 1
    abel
  | take n =>
    refine hi.next rfl ?_ rfl fun _ => rfl
    simp only [View.held, Multiset.map_add, Multiset.map_coe, View.log, map_entry_takeSent]
    rfl
  | retire f fs hsend => exact hi.retire hsend
  | dropOut h hq => exact hi.dropOut hs (hq.resolve_left (by simp [hopen]))
  | note | state | clamped | unqueueClosing | untable | pause | unblock =>
    exact hi.quiet rfl rfl rfl rfl rfl rfl fun _ => sameOut_refl _
  | synack g | markClosed g | closing g | closed g | dropUpstream g | discard g | lookup g
  | endLookup g | connecting g | openUpstream g | connected g =>
    refine hi.quiet rfl rfl rfl rfl rfl rfl fun h => ?_
    simp only [View.log_streams, View.upd_streams]
    refine View.rel_ite sameOut_refl ?_ h
    exact ⟨rfl, rfl, rfl⟩

theorem SendAct.accounted (ha : SendAct v v') (hi : v.Accounted) : v'.Accounted := by
  cases ha with
  | chain => exact hi.quiet rfl rfl rfl rfl rfl rfl fun _ => sameOut_refl _
  | account g | pop g | shutdown g =>
    refine hi.quiet rfl rfl rfl rfl rfl rfl fun h => ?_
    simp only [View.log_streams, View.upd_streams]
    refine View.rel_ite sameOut_refl ?_ h
    exact ⟨rfl, rfl, rfl⟩

theorem DispatchAct.accounted (ha : DispatchAct v v') (hi : v.Accounted) : v'.Accounted := by
  cases ha with
  | create id => exact hi.create id
  | psh | core | table | direct | opening =>
    exact hi.quiet rfl rfl rfl rfl rfl rfl fun _ => sameOut_refl _
  | fin g | firstPshAcc g | firstPsh g | openUot g | append g | halfClose g | deferClose g =>
    refine hi.quiet rfl rfl rfl rfl rfl rfl fun h => ?_
    simp only [View.log_streams, View.upd_streams]
    refine View.rel_ite sameOut_refl ?_ h
    exact ⟨rfl, rfl, rfl⟩

/-- The counters stay right while the session is open. -/
theorem SessionAct.accounted (ha : SessionAct v v') (hs : v.Sane)
    (hi : v.closing = false → v.Accounted) : v'.closing = false → v'.Accounted := by
  intro hopen'
  have hopen := ha.open_before hs hopen'
  have hi := hi hopen
  cases ha with
  | act ha => exact ha.accounted hs hopen hi
  | close ha => cases ha <;> exact hi.quiet rfl rfl rfl rfl rfl rfl fun _ => sameOut_refl _
  | send ha => exact ha.accounted hi
  | dispatch ha => exact ha.accounted hi
  | input hm | inputLog _ _ hm =>
    refine hi.quiet hm.nstreams hm.frames hm.pendingOutput hm.controlOut hm.dataOut hm.sending
      fun h => ?_
    rw [hm.streams]
    exact sameOut_refl _

end Effects

theorem Reaches.accounted {v v' : View} (hr : Reaches v v') (hs : v.Sane)
    (hi : v.closing = false → v.Accounted) : v'.closing = false → v'.Accounted :=
  hr.invariant (I := fun v => v.closing = false → v.Accounted)
    (fun hs ha hi => ha.accounted hs hi) hs hi

theorem init_accounted (conf : Conf) : (Connection.init conf).view.Accounted where
  ledger := ⟨rfl, rfl, fun _ => rfl, fun _ => rfl⟩
  owned h f hf := by cases hf
  known f hf := absurd hf (by simp [View.held, View.waiting, Connection.view, Connection.init])

/-- The frames in the output lists of the connection and of its streams. -/
def Connection.live (ac : Connection) : List OutFrame :=
  ac.controlOut ++ ac.dataOut ++ ac.sending ++
    (List.range ac.nstreams).flatMap fun h => (ac.streams h).out

/-- The live PSH, FIN and SYNACK frames of a stream. -/
def Connection.liveOf (ac : Connection) (h : Handle) : List OutFrame :=
  ac.live.filter fun f => f.stream = some h && frameStrongRef f.cmd

/-- The output counters say what is in the output lists. -/
structure Connection.OutputAccounted (ac : Connection) : Prop where
  pendingOutput : ac.pendingOutput = (ac.live.map OutFrame.length).sum
  frames : ac.frames = ac.live.length
  queuedFrames : ∀ h < ac.nstreams, (ac.streams h).queuedFrames = (ac.liveOf h).length
  pendingOut : ∀ h < ac.nstreams,
    (ac.streams h).pendingOut = ((ac.liveOf h).map OutFrame.length).sum

private theorem coe_flatMap_range {α : Type*} (n : Nat) (f : Nat → List α) :
    (↑((List.range n).flatMap f) : Multiset α) = ∑ i ∈ Finset.range n, ↑(f i) := by
  induction n with
  | zero => rfl
  | succ n ih =>
    rw [List.range_succ, List.flatMap_append, ← Multiset.coe_add, ih, Finset.sum_range_succ]
    simp

theorem Connection.held_view (ac : Connection) :
    ac.view.held = ↑(ac.live.map OutFrame.entry) := by
  rw [View.held, View.waiting, ← Multiset.map_coe]
  congr 1
  simp only [Connection.live, ← Multiset.coe_add, coe_flatMap_range]
  change _ + _ + ∑ h ∈ Finset.range ac.nstreams, (↑(ac.streams h).out : Multiset OutFrame) + _ = _
  rw [add_right_comm]
  rfl

theorem Connection.filter_live (ac : Connection) (h : Handle) (hi : ac.view.Accounted) :
    ac.view.held.filter (fun f => f.stream = some h) = ↑((ac.liveOf h).map OutFrame.entry) := by
  rw [ac.held_view, Multiset.filter_coe, List.filter_map]
  refine congrArg _ (congrArg _ (List.filter_congr fun f hf => ?_))
  by_cases hst : f.stream = some h
  · have hheld : f.entry ∈ ac.view.held := by
      rw [ac.held_view]
      exact List.mem_map_of_mem hf
    have hcmd : frameStrongRef f.cmd = true := (hi.known f.entry hheld h hst).2
    simp [hst, hcmd]
  · simp [hst]

theorem View.Accounted.connection {ac : Connection} (hi : ac.view.Accounted) :
    ac.OutputAccounted := by
  have hlength : OutFrame.length ∘ OutFrame.entry = OutFrame.length := rfl
  refine ⟨?_, ?_, fun h _ => ?_, fun h _ => ?_⟩
  · have htotal := hi.ledger.total
    rw [ac.held_view] at htotal
    simpa [View.ledger, hlength, Connection.view] using htotal
  · have hcount := hi.ledger.count
    rw [ac.held_view] at hcount
    simpa [View.ledger, Connection.view] using hcount
  · have hown := hi.ledger.ownCount h
    rw [ac.filter_live h hi] at hown
    simpa [View.ledger, Connection.view, Stream.view] using hown
  · have hown := hi.ledger.ownTotal h
    rw [ac.filter_live h hi] at hown
    simpa [View.ledger, hlength, Connection.view, Stream.view] using hown

/-- The output is accounted in every open session: the counters are right, none was ever set to
zero for being too small, and no PSH frame was accepted beyond the limit. -/
theorem run_output_accounted (conf : Conf) (es : List (Event × Env))
    (hopen : (run conf es).closing = false) :
    (run conf es).OutputAccounted ∧ .clamped ∉ (run conf es).trace ∧
      ∀ f n version, .queued f n version ∈ (run conf es).trace → f.cmd = .psh →
        n ≤ conf.maxPendingOutput := by
  have hinit := init_sane conf
  refine ⟨((run_reaches conf es).accounted hinit (fun _ => init_accounted conf) hopen).connection,
    fun hm => ?_, fun f n version hm hcmd => ?_⟩
  · obtain ⟨t₁, t₂, ht⟩ := List.append_of_mem hm
    obtain ⟨w, hw, hrest, -, hclamps⟩ := run_record conf es ht
    have hsane := hw.sane hinit
    have hacc := hw.accounted hinit (fun _ => init_accounted conf) (hrest.open_before hsane hopen)
    exact hacc.not_clamped hsane hclamps
  · obtain ⟨t₁, t₂, ht⟩ := List.append_of_mem hm
    obtain ⟨w, hw, -, -, owner, f₀, id, body, rfl, rfl, -, -, -, -, hroom⟩ := run_record conf es ht
    have hconf : w.conf = conf := hw.conf hinit
    have hle := hconf ▸ hroom hcmd
    simp only [OutFrame.prepare]
    omega

theorem run_output_accounted_open :
    (run sampleConf [sampleOpen sampleV2 sampleDomain {}]).OutputAccounted ∧
      .clamped ∉ (run sampleConf [sampleOpen sampleV2 sampleDomain {}]).trace ∧
      ∀ f n version, .queued f n version ∈
        (run sampleConf [sampleOpen sampleV2 sampleDomain {}]).trace → f.cmd = .psh →
        n ≤ sampleConf.maxPendingOutput :=
  run_output_accounted sampleConf _ (by decide)

end NgxAnytls
