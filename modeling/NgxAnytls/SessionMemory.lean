import NgxAnytls.Accounting

/-! The payload that waits for a client that does not read is bounded. -/

namespace NgxAnytls

open Library

/-- The bytes of the PSH frames in a collection of frames, headers included. -/
def pshLength (m : Multiset OutFrame) : Nat :=
  ((m.filter fun f => f.cmd = .psh).map OutFrame.length).sum

private theorem pshLength_le {m m' : Multiset OutFrame} (h : m ≤ m') : pshLength m ≤ pshLength m' :=
  Ledger.Accounts.sum_map_le (Multiset.filter_le_filter _ h)

private theorem pshLength_le_all (m : Multiset OutFrame) :
    pshLength m ≤ (m.map OutFrame.length).sum :=
  Ledger.Accounts.sum_map_le (Multiset.filter_le _ m)

private theorem pshLength_cons {f : OutFrame} (hcmd : f.cmd = .psh) (m : Multiset OutFrame) :
    pshLength (f ::ₘ m) = f.length + pshLength m := by simp [pshLength, hcmd]

private theorem pshLength_cons_other {f : OutFrame} (hcmd : f.cmd ≠ .psh) (m : Multiset OutFrame) :
    pshLength (f ::ₘ m) = pshLength m := by simp [pshLength, hcmd]

section Effects

variable {v v' : View}

/-- An effect holds no more frames than before, or it queues one, with room for it if it is a
PSH. -/
def View.HoldsFrames (v v' : View) : Prop :=
  v'.held ≤ v.held ∨ ∃ f : OutFrame, v'.held = f ::ₘ v.held ∧
    (f.cmd = .psh → v.pendingOutput + f.length ≤ v.conf.maxPendingOutput)

theorem View.HoldsFrames.of_eq (h : v'.held = v.held) : v.HoldsFrames v' := .inl h.le

/-- A change of one stream that leaves its list alone. -/
theorem View.out_one {g : Handle} {st : StreamView} (h : Handle)
    (hst : st.out = (v.streams g).out) :
    (if h = g then st else v.streams h).out = (v.streams h).out := by
  split_ifs with hg
  · rw [hst, hg]
  · rfl

/-- An effect on other things. -/
theorem View.HoldsFrames.quiet (hn : v'.nstreams = v.nstreams)
    (hcontrol : v'.controlOut = v.controlOut) (hdata : v'.dataOut = v.dataOut)
    (hsending : v'.sending = v.sending) (hout : ∀ h, (v'.streams h).out = (v.streams h).out) :
    v.HoldsFrames v' := by
  refine .of_eq ?_
  rw [View.held, View.waiting_same hn hcontrol hdata hout, hsending, View.held]

theorem Act.holdsFrames (ha : Act v v') (hs : v.Sane) : v.HoldsFrames v' := by
  cases ha with
  | queue owner f id body route howner hroute _ hroom =>
    have hsending : (v.enqueue owner f route).sending = v.sending := by
      cases owner <;> cases route <;> rfl
    have hlog : ((v.enqueue owner f route).log (.queued (f.prepare owner)
        (v.pendingOutput + (f.prepare owner).length) v.core.peerVersion)).held =
        (v.enqueue owner f route).held := rfl
    refine .inr ⟨(f.prepare owner).entry, ?_, fun hcmd => ?_⟩
    · rw [hlog, View.held, View.waiting_enqueue (fun h hh => (howner h hh).1) hroute, hsending,
        Multiset.cons_add, Multiset.map_cons, View.held]
    · have hle := hroom hcmd
      have hlen : (f.prepare owner).entry.length = f.length + frameHeaderLen := rfl
      omega
  | schedule h f fs hout =>
    have hknown : h < v.nstreams := by
      by_contra hn
      simp [(hs.fresh h (not_lt.mp hn)).out] at hout
    refine .of_eq ?_
    rw [View.held, View.waiting_schedule hknown hout, View.held]
    rfl
  | link =>
    refine .of_eq ?_
    simp only [View.held, View.waiting, ← Multiset.coe_add, Multiset.coe_nil, List.append_nil]
    congr 1
    abel
  | take n =>
    refine .of_eq ?_
    simp only [View.held, Multiset.map_add, Multiset.map_coe, View.log, map_entry_takeSent]
    rfl
  | retire f fs hsend =>
    refine .inl ?_
    rw [View.held_retire hsend]
    exact Multiset.le_cons_self _ _
  | dropOut h =>
    refine .inl (Multiset.map_le_map (add_le_add (View.waiting_dropOut h) ?_))
    exact le_refl _
  | note | state | clamped | unqueueClosing | untable | pause | unblock =>
    exact .quiet rfl rfl rfl rfl fun _ => rfl
  | synack g | markClosed g | closing g | closed g | dropUpstream g | discard g | lookup g
  | endLookup g | connecting g | openUpstream g | connected g =>
    refine .quiet rfl rfl rfl rfl fun h => ?_
    simp only [View.log_streams, View.upd_streams]
    exact View.out_one h rfl

theorem SessionAct.holdsFrames (ha : SessionAct v v') (hs : v.Sane) : v.HoldsFrames v' := by
  cases ha with
  | act ha => exact ha.holdsFrames hs
  | close ha => cases ha <;> exact .quiet rfl rfl rfl rfl fun _ => rfl
  | input hm | inputLog _ _ hm =>
    exact .quiet hm.nstreams hm.controlOut hm.dataOut hm.sending fun h => by rw [hm.streams]
  | send ha =>
    cases ha with
    | chain => exact .quiet rfl rfl rfl rfl fun _ => rfl
    | account g | pop g | shutdown g =>
      refine .quiet rfl rfl rfl rfl fun h => ?_
      simp only [View.log_streams, View.upd_streams]
      exact View.out_one h rfl
  | dispatch ha =>
    cases ha with
    | create id =>
      refine .of_eq ?_
      rw [View.held, View.waiting_create, View.held]
      rfl
    | psh | core | table | direct | opening => exact .quiet rfl rfl rfl rfl fun _ => rfl
    | fin g | firstPshAcc g | firstPsh g | openUot g | append g | halfClose g | deferClose g =>
      refine .quiet rfl rfl rfl rfl fun h => ?_
      simp only [View.log_streams, View.upd_streams]
      exact View.out_one h rfl

/-- The counters of an open session are right, and its PSH frames are within the limit. -/
structure View.Bounded (v : View) : Prop where
  accounted : v.Accounted
  psh : pshLength v.held ≤ v.conf.maxPendingOutput

theorem SessionAct.bounded (ha : SessionAct v v') (hs : v.Sane)
    (hi : v.closing = false → v.Bounded) : v'.closing = false → v'.Bounded := by
  intro hopen'
  have hopen := ha.open_before hs hopen'
  have hi := hi hopen
  refine ⟨ha.accounted hs (fun _ => hi.accounted) hopen', ?_⟩
  rw [ha.conf]
  rcases ha.holdsFrames hs with hle | ⟨f, hheld, hroom⟩
  · exact (pshLength_le hle).trans hi.psh
  · rw [hheld]
    by_cases hcmd : f.cmd = .psh
    · rw [pshLength_cons hcmd]
      have htotal : v.pendingOutput = (v.held.map OutFrame.length).sum := hi.accounted.ledger.total
      have hall := pshLength_le_all v.held
      have hfits := hroom hcmd
      omega
    · rw [pshLength_cons_other hcmd]
      exact hi.psh

end Effects

/-- However many streams there are and however fast their upstreams send: while a session is open,
the PSH frames that wait for its client, headers included, take no more than the limit. -/
theorem run_psh_bounded (conf : Conf) (es : List (Event × Env))
    (hopen : (run conf es).closing = false) :
    (((run conf es).live.filter fun f => f.cmd = .psh).map OutFrame.length).sum ≤
      conf.maxPendingOutput := by
  have hinit : (Connection.init conf).view.closing = false →
      (Connection.init conf).view.Bounded := fun _ => by
    refine ⟨init_accounted conf, ?_⟩
    simp [pshLength, View.held, View.waiting, Connection.view, Connection.init]
  have hbounded := run_invariant (I := fun v => v.closing = false → v.Bounded)
    (fun hs ha hi => ha.bounded hs hi) conf hinit es hopen
  have hconf : (run conf es).conf = conf := Reaches.conf (run_reaches conf es) (init_sane conf)
  have hpsh := hbounded.psh
  have hfilter : ((run conf es).live.map OutFrame.entry).filter (fun f => f.cmd = .psh) =
      ((run conf es).live.filter fun f => f.cmd = .psh).map OutFrame.entry := List.filter_map
  have hlength : OutFrame.length ∘ OutFrame.entry = OutFrame.length := rfl
  rw [show (run conf es).view.conf = conf from hconf, Connection.held_view, pshLength,
    Multiset.filter_coe, hfilter, Multiset.map_coe, Multiset.sum_coe, List.map_map, hlength] at hpsh
  exact hpsh

/-- The upstream sends while the client's socket takes nothing. -/
def stalledRun : List (Event × Env) :=
  [sampleOpen sampleV2 sampleTarget { connect := [.ok], chain := [.again] },
    (.upstreamRead 0, { recv := [.data [1, 2, 3], .data [4], .again] })]

theorem run_psh_bounded_stalled :
    (((run sampleConf stalledRun).live.filter fun f => f.cmd = .psh).map OutFrame.length).sum ≤
      sampleConf.maxPendingOutput :=
  run_psh_bounded sampleConf stalledRun (by decide)

end NgxAnytls
