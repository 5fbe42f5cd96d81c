import NgxAnytls.Sane

/-! The functions below the frame dispatcher refine the abstract session: whatever relation
contains the effects of `Act` and the two callbacks contains each function. -/

namespace NgxAnytls

/-- A relation that holds of every effect and of the two callbacks. It may speak about sane
sessions only. -/
structure Effects (k : Callbacks) (R : View → View → Prop) : Prop where
  refl : ∀ v, R v v
  trans : ∀ {a b c}, R a b → R b c → R a c
  act : ∀ {v v'}, Act v v' → R v v'
  sane : ∀ {v v'}, (v.Sane → R v v') → R v v'
  keep : ∀ {v v'}, R v v' → v.Sane → v.Keeps v'
  resume : ∀ ac, R ac.view (k.resume ac).2.view
  resolved : ∀ h a ac, R ac.view (k.resolved h a ac).view

/-- A relation that holds of everything the code below the dispatcher does: sending a backlog
counts as one effect. -/
structure Closed (k : Callbacks) (R : View → View → Prop) : Prop extends Effects k R where
  send : ∀ h maxBytes ac, R ac.view (sendPending k h maxBytes ac).2.2.view

theorem upd_view {ac : Connection} {v : View} (hv : ac.view = v) {h : Handle}
    {f : Stream → Stream} {g : StreamView → StreamView} (hfg : ∀ st, (f st).view = g st.view) :
    (ac.upd h f).view = v.upd h g := by
  subst hv
  have hs : (fun h' => ((ac.upd h f).streams h').view) = (ac.view.upd h g).streams := by
    funext h'
    simp only [Connection.upd_streams, View.upd_streams]
    split
    · exact hfg _
    · rfl
  calc (ac.upd h f).view
      = { ac.view with streams := fun h' => ((ac.upd h f).streams h').view } := rfl
    _ = ac.view.upd h g := by rw [hs]; rfl

theorem View.upd_id (v : View) (h : Handle) : (v.upd h fun st => st) = v := by
  simp [View.upd]

/-- A change of a stream that its view does not show. -/
theorem upd_view_same {ac : Connection} {h : Handle} {f : Stream → Stream}
    (hf : ∀ st, (f st).view = st.view) : (ac.upd h f).view = ac.view := by
  rw [upd_view rfl (g := fun st => st) hf, View.upd_id]

@[simp] theorem allocNext_view (ac : Connection) : ac.allocNext.view = ac.view := rfl
@[simp] theorem arm_view (ac : Connection) : ac.arm.2.view = ac.view := rfl
@[simp] theorem log_view (ac : Connection) (o : Obs) : (ac.log o).view = ac.view.log o := rfl

@[simp] theorem markReady_view (h : Handle) (ac : Connection) :
    (markReady h ac).view = ac.view := by
  unfold markReady
  split
  · rfl
  · exact upd_view_same fun _ => rfl

@[simp] theorem setDirectCount_view (h : Handle) (n : Nat) (ac : Connection) :
    (setDirectCount h n ac).view = ac.view := upd_view_same fun _ => rfl

@[simp] theorem postWrite_view (ac : Connection) : (postWrite ac).view = ac.view := by
  unfold postWrite armWriteTimer
  split
  · rfl
  · dsimp only
    split <;> rfl

@[simp] theorem unblockInput_view (h : Handle) (ac : Connection) :
    (unblockInput h ac).view = ac.view := by
  unfold unblockInput
  split
  · exact upd_view_same fun _ => rfl
  · rfl

@[simp] theorem removeReady_view (h : Handle) (ac : Connection) :
    (removeReady h ac).view = ac.view := by
  unfold removeReady
  split
  · exact upd_view_same fun _ => rfl
  · rfl

@[simp] theorem unblockRead_view (h : Handle) (ac : Connection) :
    (unblockRead h ac).view = ac.view := by
  unfold unblockRead
  split
  · exact upd_view_same fun _ => rfl
  · rfl

@[simp] theorem cancelConnect_view (h : Handle) (ac : Connection) :
    (cancelConnect h ac).view = ac.view := by
  unfold cancelConnect
  split
  · exact upd_view_same fun _ => rfl
  · rfl

@[simp] theorem unlinkReadReady_view (h : Handle) (ac : Connection) :
    (unlinkReadReady h ac).view = ac.view := by
  unfold unlinkReadReady
  split
  · exact upd_view_same fun _ => rfl
  · rfl

@[simp] theorem unlinkWriteReady_view (h : Handle) (ac : Connection) :
    (unlinkWriteReady h ac).view = ac.view := by
  unfold unlinkWriteReady
  split
  · exact upd_view_same fun _ => rfl
  · rfl

@[simp] theorem muxStreamClosing_view (h : Handle) (ac : Connection) :
    (muxStreamClosing h ac).view = ac.view := by simp [muxStreamClosing]

/-- The TCP lookup of a stream is over. -/
def View.endLookup (v : View) (h : Handle) : View := v.upd h fun st => { st with lookup := false }

@[simp] theorem resolverCancel_view (h : Handle) (ac : Connection) :
    (resolverCancel h ac).view = ac.view.endLookup h := upd_view rfl fun st => by simp [Stream.view]

@[simp] theorem clearUotPending_view (h : Handle) (ac : Connection) :
    (clearUotPending h ac).view = ac.view := upd_view_same fun _ => rfl

@[simp] theorem clearResolverTarget_view (h : Handle) (ac : Connection) :
    (clearResolverTarget h ac).view = ac.view.endLookup h :=
  upd_view rfl fun st => by simp [Stream.view]

@[simp] theorem releaseUotSlot_view (h : Handle) (ac : Connection) :
    (releaseUotSlot h ac).view = ac.view := by
  unfold releaseUotSlot
  split
  · exact upd_view_same fun _ => rfl
  · rfl

@[simp] theorem closeUdp_view (h : Handle) (ac : Connection) :
    (closeUdp h ac).view = ac.view := upd_view_same fun _ => rfl

@[simp] theorem uotClose_view (h : Handle) (ac : Connection) :
    (uotClose h ac).view = ac.view.endLookup h := by simp [uotClose]

private theorem htRemove_view (h : Handle) (ac : Connection) :
    (htRemove h ac).view = ac.view ∨
      ∃ idx, (htRemove h ac).view = { ac.view with ht := ac.ht.set idx .tomb } := by
  unfold htRemove
  split
  · exact .inl rfl
  · exact .inr ⟨_, rfl⟩

private theorem uotCloseIfCounted_view (h : Handle) (ac : Connection) :
    (uotCloseIfCounted h ac).view = ac.view ∨
      (uotCloseIfCounted h ac).view = ac.view.endLookup h := by
  unfold uotCloseIfCounted
  split
  · exact .inr (uotClose_view h ac)
  · exact .inl rfl

/-- The close of a stream has begun and its upstream connection is gone. -/
structure View.Settled (v : View) (h : Handle) : Prop where
  marked : (v.streams h).closedByProtocol
  upstream : (v.streams h).hasUpstream = false
  begun : CloseBegun h v.trace

section Composition

variable {k : Callbacks} {R : View → View → Prop}

private theorem linkFrame_view (owner : Option Handle) (f : OutFrame) (ac : Connection) :
    ∃ route, (∀ h, route = Route.own h → owner = some h) ∧
      (linkFrame owner f ac).view = ac.view.place f route := by
  unfold linkFrame
  cases owner with
  | none => exact ⟨.control, by simp, rfl⟩
  | some h =>
    dsimp only
    split_ifs
    · exact ⟨.control, by simp, rfl⟩
    · exact ⟨.data, by simp, by rw [setDirectCount_view]; rfl⟩
    · refine ⟨.own h, by simp, ?_⟩
      rw [setDirectCount_view, markReady_view]
      exact upd_view (g := fun st => { st with out := st.out ++ [f] }) rfl fun _ => rfl

/-- The frame in the totals of the session, before that of its stream. -/
theorem countStreamFrame_view (owner : Option Handle) (f : OutFrame) (ac : Connection)
    (hcmd : owner.isSome → frameStrongRef f.cmd) :
    { (countStreamFrame owner f ac).view with
      frames := ac.frames + 1, pendingOutput := ac.pendingOutput + f.length } =
      ac.view.count owner f := by
  unfold countStreamFrame
  cases owner with
  | none => rfl
  | some h =>
    dsimp only
    rw [if_pos (hcmd rfl), upd_view rfl (g := fun st => { st with
      queuedFrames := st.queuedFrames + 1
      pendingOut := st.pendingOut + f.length
      finQueued := st.finQueued || f.fin }) fun _ => rfl]
    rfl

/-- The view of a frame that is counted and linked. -/
theorem countFrame_view (owner : Option Handle) (f : OutFrame) (ac : Connection)
    (hcmd : owner.isSome → frameStrongRef f.cmd) :
    ∃ route, (∀ h, route = Route.own h → owner = some h) ∧
      (countFrame (f.prepare owner) (linkFrame owner (f.prepare owner)
        (countStreamFrame owner (f.prepare owner) ac))).view = ac.view.enqueue owner f route := by
  obtain ⟨route, hroute, hlink⟩ :=
    linkFrame_view owner (f.prepare owner) (countStreamFrame owner (f.prepare owner) ac)
  refine ⟨route, hroute, ?_⟩
  have hcount := countStreamFrame_view owner (f.prepare owner) ac hcmd
  have hframes : (countStreamFrame owner (f.prepare owner) ac).frames = ac.frames ∧
      (countStreamFrame owner (f.prepare owner) ac).pendingOutput = ac.pendingOutput := by
    unfold countStreamFrame
    cases owner with
    | none => exact ⟨rfl, rfl⟩
    | some h => dsimp only; split_ifs <;> exact ⟨rfl, rfl⟩
  generalize countStreamFrame owner (f.prepare owner) ac = w at hlink hcount hframes ⊢
  generalize linkFrame owner (f.prepare owner) w = w' at hlink ⊢
  have hw' : w'.frames = ac.frames ∧ w'.pendingOutput = ac.pendingOutput := by
    have hf := congrArg View.frames hlink
    have hp := congrArg View.pendingOutput hlink
    cases route <;> exact ⟨hf.trans hframes.1, hp.trans hframes.2⟩
  have hcounted : (countFrame (f.prepare owner) w').view = { w'.view with
      frames := ac.frames + 1, pendingOutput := ac.pendingOutput + (f.prepare owner).length } := by
    rw [← hw'.1, ← hw'.2]
    rfl
  rw [hcounted, hlink, View.enqueue, ← hcount]
  cases route <;> rfl

namespace Closed

/-- One effect, then the rest. -/
theorem step (hk : Closed k R) {a b c : View} (hab : Act a b) (hbc : R b c) : R a c :=
  hk.trans (hk.act hab) hbc

theorem queuePrepared (hk : Closed k R) (owner : Option Handle) (f : OutFrame) (id : UInt32)
    (body : Bytes) (ac : Connection)
    (howner : ∀ h, owner = some h → h < ac.nstreams ∧ id = (ac.streams h).id)
    (hcmd : owner.isSome → frameStrongRef f.cmd)
    (hroom : f.cmd = .psh → ac.pendingOutput + frameHeaderLen + f.length ≤ ac.conf.maxPendingOutput)
    (hversion : owner.isSome → f.cmd = .synack → 2 ≤ ac.core.peerVersion)
    (hf : f.Built id body ac.trace) :
    R ac.view (queuePreparedFrame owner f ac).2.view := by
  unfold queuePreparedFrame
  split_ifs
  · exact hk.refl _
  · exact hk.refl _
  · obtain ⟨route, hroute, hview⟩ := countFrame_view owner f ac hcmd
    dsimp only
    generalize countFrame (f.prepare owner) (linkFrame owner (f.prepare owner)
      (countStreamFrame owner (f.prepare owner) ac)) = w at hview ⊢
    have hpending : w.pendingOutput = ac.view.pendingOutput + (f.prepare owner).length :=
      (congrArg View.pendingOutput hview).trans (by cases owner <;> cases route <;> rfl)
    have hcore : w.core = ac.view.core :=
      (congrArg View.core hview).trans (by cases owner <;> cases route <;> rfl)
    rw [postWrite_view, log_view, hview, hpending, hcore]
    exact hk.act (.queue owner f id body route howner hroute hcmd hroom hversion hf)

/-- A frame `queueDataFrame` builds. -/
theorem dataFrame_built (cmd : Cmd) (id : UInt32) (data : Bytes) (blocked : Bool) (t : List Obs)
    (hlen : data.length ≤ maxFrameData) :
    ({ cmd := cmd, fin := cmd == .fin, blocked := blocked,
       header := writeFrameHeader cmd.toNat id data.length,
       payload := data, length := data.length } : OutFrame).Built id data t where
  header := rfl
  payload := rfl
  length := .inl rfl
  le := hlen
  fin := by cases cmd <;> rfl
  rest := rfl

/-- The room a PSH frame needs was found. -/
theorem room_of_not {cmd : Cmd} {len : Nat} {ac : Connection}
    (h : ¬(cmd = .psh ∧ (!hasRoom len ac) = true)) (hc : cmd = .psh) :
    ac.pendingOutput + frameHeaderLen + len ≤ ac.conf.maxPendingOutput := by
  simpa [hc, hasRoom] using h

theorem queueData (hk : Closed k R) (copy : Bool) (owner : Option Handle) (cmd : Cmd)
    (id : UInt32) (data : Bytes) (ac : Connection)
    (howner : ∀ h, owner = some h → h < ac.nstreams ∧ id = (ac.streams h).id)
    (hcmd : owner.isSome → frameStrongRef cmd)
    (hversion : owner.isSome → cmd = .synack → 2 ≤ ac.core.peerVersion) :
    R ac.view (queueDataFrame copy owner cmd id data ac).2.view := by
  unfold queueDataFrame
  dsimp only
  split_ifs with hlen hnoroom
  · exact hk.refl _
  · exact hk.refl _
  · exact hk.refl _
  · exact hk.refl _
  · exact hk.queuePrepared owner _ id data ac.allocNext.allocNext howner hcmd
      (room_of_not hnoroom) hversion (dataFrame_built cmd id data _ _ (by omega))
  · exact hk.queuePrepared owner _ id data ac.allocNext howner hcmd
      (room_of_not hnoroom) hversion (dataFrame_built cmd id data _ _ (by omega))

/-- The payload's buffer holds `len` bytes, or it is that of an empty datagram. -/
def ChainOk (cmd : Cmd) (buf : ReadBuf) (len : Nat) (t : List Obs) : Prop :=
  len = buf.data.length ∨ (len = 2 ∧ buf.data = [] ∧ cmd = .psh ∧ ∃ h, Obs.udpRecv h [] ∈ t)

theorem queueChain (hk : Closed k R) (owner : Option Handle) (cmd : Cmd) (id : UInt32)
    (buf : ReadBuf) (len : Nat) (checked : Bool) (ac : Connection)
    (howner : ∀ h, owner = some h → h < ac.nstreams ∧ id = (ac.streams h).id)
    (hcmd : cmd = .psh) (hroom : checked → hasRoom len ac)
    (hbuf : ChainOk cmd buf len ac.trace) :
    R ac.view (queueChainFrame owner cmd id buf len checked ac).2.view := by
  subst hcmd
  have hnosynack : Cmd.psh ≠ .synack := by decide
  unfold queueChainFrame
  dsimp only
  split_ifs with hlen hnoroom
  · exact hk.refl _
  · exact hk.refl _
  · exact hk.refl _
  · have hfits : ac.pendingOutput + frameHeaderLen + len ≤ ac.conf.maxPendingOutput := by
      cases checked with
      | false => simpa [hasRoom] using hnoroom
      | true => simpa [hasRoom] using hroom rfl
    exact hk.queuePrepared owner _ id buf.data ac.allocNext howner (fun _ => rfl) (fun _ => hfits)
      (fun _ hc => absurd hc hnosynack)
      { header := rfl, payload := rfl, length := hbuf, le := by show len ≤ maxFrameData; omega,
        fin := rfl, rest := rfl }
  · have hfits : ac.pendingOutput + frameHeaderLen + len ≤ ac.conf.maxPendingOutput := by
      cases checked with
      | false => simpa [hasRoom] using hnoroom
      | true => simpa [hasRoom] using hroom rfl
    exact hk.queuePrepared owner _ id buf.data ac.allocNext howner (fun _ => rfl) (fun _ => hfits)
      (fun _ hc => absurd hc hnosynack)
      { header := rfl, payload := rfl, length := hbuf, le := by show len ≤ maxFrameData; omega,
        fin := rfl, rest := rfl }

theorem note (hk : Closed k R) (o : Obs) (ho : o.IsNote) (ac : Connection) :
    R ac.view (ac.log o).view := hk.act (.note o ho)

theorem markSynack (hk : Closed k R) (h : Handle) (ac : Connection) :
    R ac.view (markSynackSent h ac).view := by
  have hview : (markSynackSent h ac).view =
      ac.view.upd h fun st => { st with synackSent := true } := upd_view rfl fun _ => rfl
  rw [hview]
  exact hk.act (.synack h)

theorem synack (hk : Closed k R) (h : Handle) (data : Bytes) (ac : Connection)
    (hknown : h < ac.nstreams) : R ac.view (sendSynack h data ac).2.view := by
  have hq : ¬(markSynackSent h ac).core.peerVersion < 2 →
      R (markSynackSent h ac).view (queueRefFrame (some h) .synack
        ((markSynackSent h ac).streams h).id data (markSynackSent h ac)).2.view := by
    intro hversion
    refine hk.queueData false _ _ _ _ _ (fun g hg => ?_) (fun _ => rfl) fun _ _ =>
      not_lt.mp hversion
    exact Option.some.inj hg ▸ ⟨hknown, rfl⟩
  unfold sendSynack
  dsimp only
  split_ifs with hsent hversion
  · exact hk.note (.synackSkipped h data) trivial _
  · exact hk.trans (hk.markSynack h ac) (hk.note (.synackSkipped h data) trivial _)
  · exact hk.trans (hk.markSynack h ac)
      (hk.trans (hq hversion) (hk.note (.synackSkipped h data) trivial _))
  · exact hk.trans (hk.markSynack h ac) (hq hversion)

theorem pause (hk : Closed k R) (ac : Connection) : R ac.view (clientInputPause ac).2.view := by
  unfold clientInputPause
  dsimp only
  split_ifs with hb
  · have hview : (setInputPaused true ac).view =
        { ac.view with inputPaused := true, clientReadBlocked := true } := by
      have hb' : ac.clientReadBlocked = true := hb
      simp only [Connection.view, setInputPaused, hb']
    rw [hview]
    exact hk.act .pause
  · rw [arm_view]
    exact hk.act .pause

@[simp] theorem markInputBlocked_view (h : Handle) (ac : Connection) :
    (markInputBlocked h ac).view = ac.view := by
  unfold markInputBlocked
  split
  · rfl
  · exact upd_view_same fun _ => rfl

theorem blockInput (hk : Closed k R) (h : Handle) (ac : Connection) :
    R ac.view (NgxAnytls.blockInput h ac).2.view := by
  have hp := hk.pause (markInputBlocked h ac)
  rwa [markInputBlocked_view] at hp

theorem updateInput (hk : Closed k R) (h : Handle) (ac : Connection) :
    R ac.view (updateInputState k h ac).2.view := by
  have hr := hk.resume (unblockInput h ac)
  rw [unblockInput_view] at hr
  unfold updateInputState
  split_ifs
  · exact hk.refl _
  · exact hk.refl _
  · exact hr

theorem dropPending_view (h : Handle) (ac : Connection) :
    (dropPending h ac).view =
      (ac.view.upd h fun st => { st with pendingIn := [] }).log (.upDiscard h) := by
  rw [dropPending, log_view]
  congr 1
  exact upd_view rfl fun _ => rfl

theorem discard (hk : Closed k R) (h : Handle) (ac : Connection) (hset : ac.view.Settled h) :
    R ac.view (discardPending k h ac).view := by
  have hr := hk.resume (unblockInput h (dropPending h ac))
  rw [unblockInput_view, dropPending_view] at hr
  exact hk.step (.discard h hset.marked hset.upstream hset.begun) hr

theorem cancelLookup (hk : Closed k R) (h : Handle) (ac : Connection) :
    R ac.view (resolverCancel h ac).view := by
  rw [resolverCancel_view]
  exact hk.act (.endLookup h)

theorem uotCloseIfCounted (hk : Closed k R) (h : Handle) (ac : Connection) :
    R ac.view (NgxAnytls.uotCloseIfCounted h ac).view := by
  rcases uotCloseIfCounted_view h ac with he | he
  · rw [he]
    exact hk.refl _
  · rw [he]
    exact hk.act (.endLookup h)

theorem settled_uotClose (h : Handle) (ac : Connection) (hset : ac.view.Settled h) :
    (NgxAnytls.uotCloseIfCounted h ac).view.Settled h := by
  rcases uotCloseIfCounted_view h ac with he | he
  · rwa [he]
  · rw [he]
    exact ⟨by simpa [View.endLookup] using hset.marked,
      by simpa [View.endLookup] using hset.upstream, hset.begun⟩

theorem markClosedByProtocol_spec (hk : Closed k R) (h : Handle) (ac : Connection) :
    R ac.view (markClosedByProtocol h ac).view ∧
      ((markClosedByProtocol h ac).streams h).closedByProtocol := by
  unfold markClosedByProtocol
  split_ifs with hc
  · exact ⟨hk.refl _, hc⟩
  · have hview : (ac.upd h fun st => { st with closedByProtocol := true, inClosed := true }).view =
        ac.view.upd h fun st => { st with closedByProtocol := true, inClosed := true } :=
      upd_view rfl fun _ => rfl
    refine ⟨?_, by simp⟩
    rw [hview]
    exact hk.act (.markClosed h)

theorem enterClosing_view (h : Handle) (ac : Connection) :
    ∃ queue, (queue = ac.closingStreams ∨ queue = ac.closingStreams ++ [h]) ∧
      (resolverCancel h (enterClosing h ac)).view =
        ({ ac.view.log (.setState h (ac.view.streams h).state .closing) with
          closingStreams := queue }.upd h fun st =>
          { st with state := .closing, lookup := false }).log (.streamClosing h) := by
  refine ⟨if (ac.streams h).closing then ac.closingStreams else ac.closingStreams ++ [h], ?_, ?_⟩
  · split_ifs <;> simp
  · have hview : (enterClosing h ac).view =
        ({ ac.view.log (.setState h (ac.view.streams h).state .closing) with
          closingStreams := if (ac.streams h).closing then ac.closingStreams
            else ac.closingStreams ++ [h] }.upd h fun st =>
          { st with state := .closing }).log (.streamClosing h) := by
      rw [enterClosing, log_view]
      congr 1
      exact upd_view rfl fun _ => rfl
    rw [resolverCancel_view, hview]
    simp [View.endLookup, View.upd, View.log]

theorem dropUpstream_view (h : Handle) (ac : Connection) :
    (NgxAnytls.dropUpstream h ac).view =
      ac.view.upd h fun st => { st with hasUpstream := false } := upd_view rfl fun _ => rfl

theorem dropUpstream (hk : Closed k R) (h : Handle) (ac : Connection) :
    R ac.view (NgxAnytls.dropUpstream h ac).view := by
  rw [dropUpstream_view]
  exact hk.act (.dropUpstream h)

theorem noteClamped_view (clamped : Bool) (ac : Connection) :
    (noteClamped clamped ac).view = if clamped then ac.view.log .clamped else ac.view := by
  unfold noteClamped
  split_ifs <;> rfl

theorem dropClamps_iff (h : Handle) (ac : Connection) :
    dropClamps h ac ↔ ac.view.DropClamps h := by
  simp only [dropClamps, View.DropClamps, Bool.or_eq_true, decide_eq_true_eq, or_assoc]
  rfl

theorem dropOut (hk : Closed k R) (h : Handle) (ac : Connection)
    (hq : ac.closing ∨ (ac.view.streams h).queuedFrames = 0) :
    R ac.view (NgxAnytls.dropOut h ac).view := by
  have hnote : R ac.view (noteClamped (dropClamps h ac) ac).view := by
    rw [noteClamped_view]
    split_ifs with hc
    · exact hk.act (.clamped (.inr ⟨h, (dropClamps_iff h ac).mp hc⟩))
    · exact hk.refl _
  have hsame : ∀ ac' : Connection, ac' = noteClamped (dropClamps h ac) ac →
      ac'.closing = ac.closing ∧ ac'.streams = ac.streams := by
    rintro _ rfl
    unfold noteClamped
    split_ifs <;> exact ⟨rfl, rfl⟩
  obtain ⟨hclosing, hstreams⟩ := hsame _ rfl
  unfold NgxAnytls.dropOut
  dsimp only
  generalize noteClamped (dropClamps h ac) ac = ac' at hnote hclosing hstreams ⊢
  have hview : ({ ac' with
      pendingOutput := (ac'.streams h).out.foldl (fun n (f : OutFrame) => n - f.length)
        ac'.pendingOutput
      frames := ac'.frames - (ac'.streams h).out.length }.upd h fun st =>
        { st with out := [], pendingOut := 0,
                  queuedFrames := st.queuedFrames - (ac'.streams h).out.length }).view =
      ac'.view.dropOut h := by
    unfold View.dropOut
    rw [View.upd_congr (g := fun st => { st with
      out := [], pendingOut := 0, queuedFrames := st.queuedFrames - (ac'.streams h).out.length })
      _ h rfl]
    exact upd_view rfl fun _ => rfl
  rw [hview]
  refine hk.trans hnote (hk.act (.dropOut h ?_))
  rw [show ac'.view.closing = ac.closing from hclosing,
    show ac'.view.streams h = ac.view.streams h from congrArg (fun s => (s h).view) hstreams]
  exact hq

theorem dropOut_stream (h : Handle) (ac : Connection) :
    ((NgxAnytls.dropOut h ac).view.streams h).closedByProtocol =
      (ac.view.streams h).closedByProtocol ∧
    (NgxAnytls.dropOut h ac).trace ⊇ ac.trace := by
  have hn : ∀ b, (noteClamped b ac).streams = ac.streams ∧ (noteClamped b ac).trace ⊇ ac.trace := by
    intro b
    unfold noteClamped
    split_ifs
    · exact ⟨rfl, List.subset_append_left _ _⟩
    · exact ⟨rfl, List.Subset.refl _⟩
  obtain ⟨hstreams, htrace⟩ := hn (dropClamps h ac)
  unfold NgxAnytls.dropOut
  dsimp only
  generalize noteClamped (dropClamps h ac) ac = ac' at hstreams htrace ⊢
  exact ⟨by simp [Connection.view, Stream.view, hstreams], htrace⟩

theorem enterClosed_view (h : Handle) (ac : Connection) :
    (resolverCancel h (removeReady h (enterClosed h ac))).view =
      ((ac.view.log (.setState h (ac.view.streams h).state .closed)).upd h fun st =>
        { st with state := .closed, lookup := false }).log (.streamClosed h) := by
  have hview : (enterClosed h ac).view =
      ((ac.view.log (.setState h (ac.view.streams h).state .closed)).upd h fun st =>
        { st with state := .closed }).log (.streamClosed h) := by
    rw [enterClosed, log_view]
    congr 1
    exact upd_view rfl fun _ => rfl
  rw [resolverCancel_view, removeReady_view, hview]
  simp [View.endLookup, View.upd, View.log]

/-- A close that is allowed is allowed once the change of state is recorded. -/
theorem mayClose_log {v : View} {h : Handle} (hmay : v.MayClose h) (o : Obs) :
    (v.log o).MayClose h := by
  have hsub : v.trace ⊆ (v.log o).trace := List.subset_append_left _ _
  exact hmay.imp id (Or.imp (fun hm => hsub hm) fun hr => hr.mono hsub)

/-- What a delayed close does once its stream is closing. -/
theorem delayClose_rest (hk : Closed k R) (h : Handle) (ac : Connection)
    (hmark : (ac.view.streams h).closedByProtocol) :
    R (resolverCancel h (enterClosing h ac)).view (NgxAnytls.delayClose k h ac).view := by
  obtain ⟨queue, hqueue, hview⟩ := enterClosing_view h ac
  have hset : (NgxAnytls.dropUpstream h (resolverCancel h (enterClosing h ac))).view.Settled h := by
    rw [dropUpstream_view, hview]
    exact ⟨by simpa using hmark, by simp, .inl (by simp)⟩
  have hdrop := hk.dropUpstream h (resolverCancel h (enterClosing h ac))
  have huot := hk.uotCloseIfCounted h (NgxAnytls.dropUpstream h (resolverCancel h
    (enterClosing h ac)))
  have hdiscard := hk.discard h _ (settled_uotClose h _ hset)
  unfold NgxAnytls.delayClose
  rw [cancelConnect_view, unblockRead_view]
  exact hk.trans hdrop (hk.trans huot hdiscard)

theorem enterClosing (hk : Closed k R) (h : Handle) (ac : Connection)
    (hmark : (ac.view.streams h).closedByProtocol) (hmay : ac.view.MayClose h)
    (hopen : ac.closing = false) (hstate : (ac.view.streams h).state ≠ .closed) :
    R ac.view (resolverCancel h (NgxAnytls.enterClosing h ac)).view := by
  obtain ⟨queue, hqueue, hview⟩ := enterClosing_view h ac
  have hnew : (ac.view.streams h).state.Before .closing := by
    cases hs : (ac.view.streams h).state <;> simp_all [StreamState.Before]
  rw [hview]
  refine hk.step (.state h .closing hnew) (hk.act ?_)
  exact .closing (v := ac.view.log _) h hmark (mayClose_log hmay _) hopen hstate queue hqueue

theorem delayClose (hk : Closed k R) (h : Handle) (ac : Connection)
    (hmark : (ac.view.streams h).closedByProtocol) (hmay : ac.view.MayClose h)
    (hopen : ac.closing = false) (hstate : (ac.view.streams h).state ≠ .closed) :
    R ac.view (NgxAnytls.delayClose k h ac).view :=
  hk.trans (hk.enterClosing h ac hmark hmay hopen hstate) (hk.delayClose_rest h ac hmark)

theorem forget (hk : Closed k R) (wasClosing : Bool) (h : Handle) (ac : Connection) :
    R ac.view (forgetStream wasClosing h ac).view := by
  have hunlink : R ac.view (if wasClosing then unlinkClosing h ac else ac).view := by
    cases wasClosing with
    | false => exact hk.refl _
    | true => exact hk.act (.unqueueClosing h)
  refine hk.trans hunlink ?_
  unfold forgetStream
  rcases htRemove_view h (unlinkStream h (if wasClosing then unlinkClosing h ac else ac)) with
    he | ⟨idx, he⟩
  · rw [he]
    exact hk.refl _
  · rw [he]
    exact hk.act (.untable idx)

theorem enterClosed (hk : Closed k R) (h : Handle) (ac : Connection)
    (hmark : (ac.view.streams h).closedByProtocol) (hmay : ac.view.MayClose h) :
    R ac.view (resolverCancel h (removeReady h (NgxAnytls.enterClosed h ac))).view := by
  have hnew : (ac.view.streams h).state.Before .closed := by
    cases (ac.view.streams h).state <;> simp [StreamState.Before]
  rw [enterClosed_view h ac]
  refine hk.step (.state h .closed hnew) (hk.act ?_)
  exact .closed (v := ac.view.log _) h hmark (mayClose_log hmay _)

/-- What a close does once its stream is closed. -/
theorem fullClose_rest (hk : Closed k R) (h : Handle) (ac : Connection)
    (hmark : (ac.view.streams h).closedByProtocol)
    (hq : ac.closing ∨ (ac.view.streams h).queuedFrames = 0) :
    R (resolverCancel h (removeReady h (NgxAnytls.enterClosed h ac))).view
      (NgxAnytls.fullClose k h ac).view := by
  have hview := enterClosed_view h ac
  unfold NgxAnytls.fullClose
  generalize (ac.streams h).closing = wasClosing
  generalize resolverCancel h (removeReady h (NgxAnytls.enterClosed h ac)) = ac₁ at hview ⊢
  have hq₁ : ac₁.closing ∨ (ac₁.view.streams h).queuedFrames = 0 := by
    have hclosing : ac₁.closing = ac.closing := congrArg View.closing hview
    rw [hview, hclosing]
    simpa using hq
  have hout := hk.dropOut h ac₁ hq₁
  obtain ⟨hflag, hsub⟩ := dropOut_stream h ac₁
  generalize NgxAnytls.dropOut h ac₁ = ac₂ at hout hflag hsub ⊢
  have hdrop := hk.dropUpstream h ac₂
  have hset : (NgxAnytls.dropUpstream h ac₂).view.Settled h := by
    rw [dropUpstream_view]
    refine ⟨?_, by simp, .inr (hsub ?_)⟩
    · have hmark₁ : (ac₁.view.streams h).closedByProtocol := by rw [hview]; simpa using hmark
      simpa [hflag] using hmark₁
    · have htrace : ac₁.trace = _ := congrArg View.trace hview
      rw [htrace]
      simp
  generalize NgxAnytls.dropUpstream h ac₂ = ac₃ at hdrop hset ⊢
  have huot := hk.uotCloseIfCounted h ac₃
  have hdiscard := hk.discard h (clearUotPending h (NgxAnytls.uotCloseIfCounted h ac₃))
    (by rw [clearUotPending_view]; exact settled_uotClose h _ hset)
  rw [clearUotPending_view] at hdiscard
  have hforget := hk.forget wasClosing h (cancelConnect h (discardPending k h
    (clearUotPending h (NgxAnytls.uotCloseIfCounted h ac₃))))
  rw [cancelConnect_view] at hforget
  exact hk.trans hout (hk.trans hdrop (hk.trans huot (hk.trans hdiscard hforget)))

theorem fullClose (hk : Closed k R) (h : Handle) (ac : Connection)
    (hmark : (ac.view.streams h).closedByProtocol) (hmay : ac.view.MayClose h)
    (hq : ac.closing ∨ (ac.view.streams h).queuedFrames = 0) :
    R ac.view (NgxAnytls.fullClose k h ac).view :=
  hk.trans (hk.enterClosed h ac hmark hmay) (hk.fullClose_rest h ac hmark hq)

/-- The stream as its close finds it: marked, and out of the queues. -/
theorem beforeClose (hk : Closed k R) (h : Handle) (ac : Connection) (hmay : ac.view.MayClose h) :
    ∃ ac', muxStreamClosing h (markClosedByProtocol h ac) = ac' ∧ R ac.view ac'.view ∧
      (ac'.view.streams h).closedByProtocol ∧ ac'.view.MayClose h ∧
      ac'.closing = ac.closing ∧ ac'.nstreams = ac.nstreams ∧
      (ac'.view.streams h).state = (ac.streams h).state := by
  obtain ⟨hmarked, hflag⟩ := hk.markClosedByProtocol_spec h ac
  have hview := muxStreamClosing_view h (markClosedByProtocol h ac)
  have hsame : (markClosedByProtocol h ac).view.MayClose h ∧
      (markClosedByProtocol h ac).closing = ac.closing ∧
      (markClosedByProtocol h ac).nstreams = ac.nstreams ∧
      ((markClosedByProtocol h ac).view.streams h).state = (ac.streams h).state := by
    unfold markClosedByProtocol
    split_ifs
    · exact ⟨hmay, rfl, rfl, rfl⟩
    · exact ⟨hmay, rfl, rfl, by simp [Connection.view, Stream.view]⟩
  obtain ⟨hmay', hclosing, hn, hstate⟩ := hsame
  refine ⟨_, rfl, hview ▸ hmarked, ?_, hview ▸ hmay', ?_, ?_, ?_⟩
  · rw [hview]
    exact hflag
  · exact (congrArg View.closing hview).trans hclosing
  · exact (congrArg View.nstreams hview).trans hn
  · rw [hview]
    exact hstate

theorem close (hk : Closed k R) (h : Handle) (ac : Connection) (hmay : ac.view.MayClose h) :
    R ac.view (streamClose k h ac).view := by
  obtain ⟨ac', hac, hmarked, hflag, hmay', hclosing, -, hstate⟩ := hk.beforeClose h ac hmay
  unfold streamClose
  dsimp only
  rw [hac]
  split_ifs with hclosed hdelay
  · exact hk.refl _
  · exact hk.trans hmarked (hk.delayClose h ac' hflag hmay' (by simpa [hclosing] using hdelay.1)
      (by rw [hstate]; exact hclosed))
  · refine hk.trans hmarked (hk.fullClose h ac' hflag hmay' ?_)
    by_cases hc : ac'.closing = true
    · exact .inl hc
    · have hnone : (ac'.streams h).queuedFrames = 0 := by simpa [hc] using hdelay
      exact .inr hnone

theorem logClose (hk : Closed k R) (cause : CloseCause) (h : Handle) (ac : Connection) :
    R ac.view (NgxAnytls.logClose cause h ac).view :=
  hk.note (.closeCall h cause ac.core.peerVersion (ac.streams h).synackSent (hasFrame ac))
    trivial ac

theorem closeFailed (hk : Closed k R) (cause : CloseCause) (hc : cause.hasText = false)
    (h : Handle) (ac : Connection) : R ac.view (NgxAnytls.closeFailed k cause h ac).view := by
  have huntold : UntoldClose h (NgxAnytls.logClose cause h ac).trace :=
    ⟨cause, ac.core.peerVersion, (ac.streams h).synackSent, hasFrame ac,
      List.mem_append_right _ List.mem_cons_self, CloseCause.not_tells hc⟩
  exact hk.trans (hk.logClose cause h ac) (hk.close h _ (.inr (.inr (.inr (.inr (.inr huntold))))))

@[simp] theorem closeOutput_view (h : Handle) (ac : Connection) :
    (closeOutput h ac).view = ac.view := upd_view_same fun _ => rfl

end Closed

/-- A frame that the queue accepts is in the trace. -/
theorem queuePreparedFrame_queued {owner : Option Handle} {f : OutFrame} {ac : Connection}
    (hok : (queuePreparedFrame owner f ac).1 = .ok) :
    ∃ n version, .queued (f.prepare owner) n version ∈ (queuePreparedFrame owner f ac).2.trace := by
  unfold queuePreparedFrame at hok ⊢
  split_ifs at hok ⊢
  dsimp only
  generalize countFrame (f.prepare owner) (linkFrame owner (f.prepare owner)
    (countStreamFrame owner (f.prepare owner) ac)) = w
  have htrace := congrArg View.trace (postWrite_view
    (w.log (.queued (f.prepare owner) w.pendingOutput w.core.peerVersion)))
  refine ⟨w.pendingOutput, w.core.peerVersion, ?_⟩
  show _ ∈ (Connection.view _).trace
  rw [htrace]
  simp [Connection.log, Connection.view]

private theorem queueDataFrame_queued {copy : Bool} {owner : Option Handle} {cmd : Cmd}
    {id : UInt32} {data : Bytes} {ac : Connection}
    (hok : (queueDataFrame copy owner cmd id data ac).1 = .ok) :
    ∃ f n version, .queued f n version ∈ (queueDataFrame copy owner cmd id data ac).2.trace ∧
      f.cmd = cmd ∧ f.stream = owner ∧ f.payload = data := by
  unfold queueDataFrame at hok ⊢
  dsimp only at hok ⊢
  split_ifs at hok ⊢
  · obtain ⟨n, version, hm⟩ := queuePreparedFrame_queued hok
    exact ⟨_, n, version, hm, rfl, rfl, rfl⟩
  · obtain ⟨n, version, hm⟩ := queuePreparedFrame_queued hok
    exact ⟨_, n, version, hm, rfl, rfl, rfl⟩

/-- A control frame is queued when there is room and memory for it. -/
theorem queueRefFrame_ok {owner : Option Handle} {cmd : Cmd} {id : UInt32} {data : Bytes}
    {ac : Connection} (hcmd : cmd ≠ .psh) (hlen : data.length ≤ maxFrameData)
    (hframe : hasFrame ac = true) : (queueRefFrame owner cmd id data ac).1 = .ok := by
  simp only [hasFrame, Bool.and_eq_true, decide_eq_true_eq] at hframe
  obtain ⟨hframes, halloc⟩ := hframe
  unfold queueRefFrame queueDataFrame
  rw [if_neg (not_lt.mpr hlen), if_neg fun hpsh => hcmd hpsh.1, if_neg (by simp [halloc])]
  dsimp only
  rw [if_neg fun hcopy => Bool.false_ne_true hcopy.1]
  unfold queuePreparedFrame
  rw [if_neg (show ¬maxOutFrames ≤ ac.allocNext.frames from not_le.mpr hframes),
    if_neg fun hpsh => hcmd hpsh.1]

/-- A refused frame leaves no record. -/
theorem queueDataFrame_refused {copy : Bool} {owner : Option Handle} {cmd : Cmd} {id : UInt32}
    {data : Bytes} {ac : Connection} (hne : (queueDataFrame copy owner cmd id data ac).1 ≠ .ok) :
    (queueDataFrame copy owner cmd id data ac).2.trace = ac.trace := by
  unfold queueDataFrame queuePreparedFrame at hne ⊢
  dsimp only at hne ⊢
  split_ifs at hne ⊢ <;> first | rfl | exact absurd rfl hne

/-- Either a SYNACK is queued, or the record of the close says why not. -/
theorem sendSynack_reason (cause : CloseCause) (h : Handle) {text : Bytes} (htext : text ≠ [])
    (hlen : text.length ≤ maxFrameData) (ac : Connection) :
    CloseReason h (sendSynack h text (logClose cause h ac)).2.trace := by
  have hcall : .closeCall h cause ac.core.peerVersion (ac.streams h).synackSent (hasFrame ac) ∈
      (logClose cause h ac).trace := List.mem_append_right _ List.mem_cons_self
  have hsame : (logClose cause h ac).streams = ac.streams := rfl
  unfold sendSynack
  dsimp only
  split_ifs with hsent hversion hrefused
  · refine .inr (.inr (.inr ⟨_, _, _, _, List.mem_append_left _ hcall, fun htells => ?_⟩))
    rw [hsame, htells.2.2.1] at hsent
    exact absurd hsent Bool.false_ne_true
  · exact .inr (.inr (.inr ⟨_, _, _, _, List.mem_append_left _ hcall, fun htells =>
      absurd htells.2.1 (not_le.mpr hversion)⟩))
  · have hkept : .closeCall h cause ac.core.peerVersion (ac.streams h).synackSent (hasFrame ac) ∈
        (queueRefFrame (some h) .synack ((markSynackSent h (logClose cause h ac)).streams h).id text
          (markSynackSent h (logClose cause h ac))).2.trace :=
      (queueDataFrame_refused hrefused).symm ▸ hcall
    refine .inr (.inr (.inr ⟨_, _, _, _, List.mem_append_left _ hkept, fun htells => ?_⟩))
    exact hrefused (queueRefFrame_ok (by decide) hlen htells.2.2.2)
  · obtain ⟨f, n, version, hf, hcmd, hst, hpay⟩ := queueDataFrame_queued (not_not.mp hrefused)
    exact .inr (.inl ⟨f, n, version, hf, hcmd, hst, hpay ▸ htext⟩)

namespace Closed

theorem synackAndClose (hk : Closed k R) (cause : CloseCause) (h : Handle) {text : Bytes}
    (htext : text ≠ []) (hlen : text.length ≤ maxFrameData) (ac : Connection)
    (hknown : h < ac.nstreams) : R ac.view (NgxAnytls.synackAndClose k cause h text ac).view :=
  hk.trans (hk.logClose cause h ac) (hk.trans (hk.synack h text _ hknown)
    (hk.close h _ (.inr (.inr (sendSynack_reason cause h htext hlen ac)))))

theorem finAndClose (hk : Closed k R) (h : Handle) (ac : Connection) (hknown : h < ac.nstreams) :
    R ac.view (sendFinAndClose k h ac).2.view := by
  have hn : (closeOutput h (markClosedByProtocol h ac)).nstreams = ac.nstreams := by
    unfold closeOutput markClosedByProtocol
    split <;> rfl
  have hfin : R (closeOutput h (markClosedByProtocol h ac)).view (queueFrame (some h) .fin
      ((closeOutput h (markClosedByProtocol h ac)).streams h).id []
      (closeOutput h (markClosedByProtocol h ac))).2.view := by
    refine hk.queueData true _ _ _ _ _ (fun g hg => ?_) (fun _ => rfl) (by simp)
    exact Option.some.inj hg ▸ ⟨hn ▸ hknown, rfl⟩
  have hmark : R ac.view (closeOutput h (markClosedByProtocol h ac)).view := by
    rw [closeOutput_view]
    exact (hk.markClosedByProtocol_spec h ac).1
  unfold sendFinAndClose
  dsimp only
  split_ifs with hnone hok
  · exact hk.trans hmark hfin
  · refine hk.trans hmark (hk.trans hfin (hk.close h _ ?_))
    obtain ⟨f, n, version, hf, hcmd, hst, -⟩ := queueDataFrame_queued (not_not.mp hok)
    exact .inr (.inr (.inl ⟨f, n, version, hf, hcmd, hst⟩))
  · refine hk.trans hmark (hk.sane fun hs => hk.close h _ ?_)
    refine .inr (.inr (.inl ((hs.stream h).finFlag ?_)))
    by_contra hno
    obtain ⟨hq, hsent⟩ := not_or.mp hno
    exact hnone ⟨(Bool.not_eq_true' _).mpr (Bool.eq_false_iff.mpr hq),
      (Bool.not_eq_true' _).mpr (Bool.eq_false_iff.mpr hsent)⟩

@[simp] theorem markReadBlocked_view (h : Handle) (ac : Connection) :
    (markReadBlocked h ac).view = ac.view := upd_view_same fun _ => rfl

@[simp] theorem blockRead_view (h : Handle) (ac : Connection) :
    (blockRead h ac).2.view = ac.view := by
  unfold blockRead
  split_ifs
  · rfl
  · rw [arm_view, markReadBlocked_view]

@[simp] theorem takeReadReady_view (h : Handle) (ac : Connection) :
    (takeReadReady h ac).view = ac.view := upd_view_same fun _ => rfl

@[simp] theorem suspendRead_view (ac : Connection) (h : Handle) :
    (suspendRead ac h).view = ac.view := by
  unfold suspendRead
  dsimp only
  split_ifs
  · exact takeReadReady_view h ac
  · rw [blockRead_view, takeReadReady_view]

@[simp] theorem suspendReads_view (ac : Connection) : (suspendReads ac).view = ac.view := by
  have hfold : ∀ hs : List Handle, ∀ ac : Connection, (hs.foldl suspendRead ac).view = ac.view := by
    intro hs
    induction hs with
    | nil => exact fun _ => rfl
    | cons h hs ih => intro ac; rw [List.foldl_cons, ih, suspendRead_view]
  exact hfold _ _

theorem processBlockedLoop (hk : Closed k R) (hs : List Handle) (ac : Connection) :
    R ac.view (NgxAnytls.processBlockedLoop k hs ac).view := by
  induction hs generalizing ac with
  | nil => exact hk.refl _
  | cons h hs ih =>
    have hun := unblockRead_view h ac
    unfold NgxAnytls.processBlockedLoop
    dsimp only
    split_ifs
    · have hrest := ih (unblockRead h ac)
      rwa [hun] at hrest
    · exact hk.refl _
    · exact hk.refl _
    · have hfail := hk.closeFailed .armFailed rfl h (unblockRead h ac).arm.2
      rwa [arm_view, hun] at hfail
    · have hrest := ih (setResumed ((unblockRead h ac).arm.2.resumedStreams + 1)
        (unblockRead h ac).arm.2)
      exact hun ▸ hrest

theorem clientMuxResult (hk : Closed k R) (released : Bool) (ac : Connection) :
    R ac.view (onClientMuxResult k released ac).view := by
  unfold onClientMuxResult
  split_ifs
  · exact hk.trans (hk.processBlockedLoop _ (setPressure false ac)) (hk.processBlockedLoop _ _)
  · exact hk.processBlockedLoop _ ac

theorem retire (hk : Closed k R) (f : OutFrame) (fs : List OutFrame) (ac : Connection)
    (hs : ac.sending = f :: fs) (hr : f.rest = []) :
    R ac.view (retireFrame f (setSending fs ac)).view := by
  have hnone : ∀ ac : Connection, f.stream = none →
      (uncountFrame f (setSending fs ac)).view = ac.view.retire f fs := by
    intro ac hstream
    unfold View.retire
    rw [hstream]
    rfl
  have hsome : ∀ (ac : Connection) (h : Handle), f.stream = some h →
      ((uncountFrame f (setSending fs ac)).upd h fun st => { st with
          queuedFrames := st.queuedFrames - 1
          pendingOut := st.pendingOut - f.length
          finSent := st.finSent || f.fin
          outClosed := st.outClosed || f.fin }).view = ac.view.retire f fs := by
    intro ac h hstream
    unfold View.retire
    rw [hstream]
    exact upd_view rfl fun _ => rfl
  have hclamps : retireClamps f (setSending fs ac) ↔ ac.view.RetireClamps f := by
    unfold retireClamps View.RetireClamps
    cases f.stream with
    | none =>
      simp only [Bool.or_eq_true, decide_eq_true_eq, Bool.false_eq_true, or_false,
        reduceCtorEq, false_and, exists_false]
      rfl
    | some h =>
      simp only [Bool.or_eq_true, decide_eq_true_eq, or_assoc, Option.some.injEq,
        exists_eq_left']
      rfl
  unfold retireFrame
  dsimp only
  unfold noteClamped
  split_ifs with hc
  · have hclamped : R ac.view (ac.log .clamped).view :=
      hk.act (.clamped (.inl ⟨f, fs, hs, hclamps.mp hc⟩))
    refine hk.trans hclamped ?_
    have hlast := hk.act (.retire (v := (ac.log .clamped).view) f fs hs hr)
    cases hstream : f.stream with
    | none =>
      rw [← hnone _ hstream] at hlast
      exact hlast
    | some h =>
      rw [← hsome _ h hstream] at hlast
      exact hlast
  · have hlast := hk.act (.retire (v := ac.view) f fs hs hr)
    cases hstream : f.stream with
    | none =>
      rw [← hnone _ hstream] at hlast
      exact hlast
    | some h =>
      rw [← hsome _ h hstream] at hlast
      exact hlast

theorem sentFrame (hk : Closed k R) (f : OutFrame) (fs : List OutFrame) (ac : Connection)
    (hs : ac.sending = f :: fs) (hr : f.rest = []) :
    R ac.view (defaultFrameHandler k f (setSending fs ac)).view := by
  refine hk.trans (hk.retire f fs ac hs hr) ?_
  unfold defaultFrameHandler
  dsimp only
  cases f.stream with
  | none => exact hk.refl _
  | some h =>
    dsimp only
    split_ifs with hc
    · exact hk.sane fun hsane => hk.close h _ (.inr (.inl ((hsane.stream h).closingState hc.1)))
    · exact hk.refl _

theorem recycle (hk : Closed k R) (n : Nat) (ac : Connection) :
    R ac.view (recycleSentFrames k n ac).view := by
  induction n generalizing ac with
  | zero => exact hk.refl _
  | succ n ih =>
    unfold recycleSentFrames
    cases hs : ac.sending with
    | nil => exact hk.refl _
    | cons f fs =>
      dsimp only
      split_ifs with hr
      · exact hk.refl _
      · exact hk.trans (hk.sentFrame f fs ac hs (not_not.mp hr)) (ih _)

theorem scheduleFrame (hk : Closed k R) (h : Handle) (f : OutFrame) (fs : List OutFrame)
    (ac : Connection) (hout : (ac.view.streams h).out = f :: fs) :
    R ac.view (NgxAnytls.scheduleFrame h f fs ac).view := by
  have hview : (moveToData h f fs ac).view =
      { ac.view with dataOut := ac.view.dataOut ++ [f] }.upd h fun st => { st with out := fs } :=
    upd_view rfl fun _ => rfl
  have hact := hk.act (Act.schedule (v := ac.view) h f fs hout)
  unfold NgxAnytls.scheduleFrame
  dsimp only
  split_ifs
  · rwa [markReady_view, hview]
  · rwa [hview]

theorem scheduleLoop (hk : Closed k R) (go : Nat → Nat → Bool) (n frames bytes : Nat)
    (ac : Connection) : R ac.view (NgxAnytls.scheduleLoop go n frames bytes ac).view := by
  induction n generalizing frames bytes ac with
  | zero => exact hk.refl _
  | succ n ih =>
    unfold NgxAnytls.scheduleLoop
    cases ac.readyStreams with
    | nil => exact hk.refl _
    | cons h hs =>
      have hrem := removeReady_view h ac
      dsimp only
      split_ifs
      · exact hk.refl _
      · cases hout : ((removeReady h ac).streams h).out with
        | nil => exact hrem ▸ ih frames bytes (removeReady h ac)
        | cons f fs =>
          have hone := hk.scheduleFrame h f fs (removeReady h ac) hout
          rw [hrem] at hone
          exact hk.trans hone (ih _ _ _)

theorem schedule (hk : Closed k R) (budget : Nat) (ac : Connection) :
    R ac.view (scheduleStreamFrames budget ac).view := by
  unfold scheduleStreamFrames
  dsimp only
  split_ifs <;> exact hk.scheduleLoop _ _ _ _ _

theorem link (hk : Closed k R) (ac : Connection) : R ac.view (linkFrames ac).view := by
  unfold linkFrames
  split_ifs with hsent
  · exact hk.refl _
  · exact hk.act (.link (not_not.mp hsent))

theorem takeClosing_view (h : Handle) (ac : Connection) :
    (takeClosing h ac).view =
      { ac.view with closingStreams := ac.view.closingStreams.erase h } :=
  upd_view_same fun _ => rfl

theorem drainClosingLoop (hk : Closed k R) (n : Nat) (cur : Option Handle) (ac : Connection)
    (hcur : ∀ h, cur = some h → .streamClosing h ∈ ac.trace) :
    R ac.view (NgxAnytls.drainClosingLoop k n cur ac).view := by
  induction n generalizing cur ac with
  | zero => cases cur <;> exact hk.refl _
  | succ n ih =>
    cases cur with
    | none => exact hk.refl _
    | some h =>
      refine hk.sane fun hsane => ?_
      have hnext : ∀ g, queueNext ac.closingStreams h = some g → .streamClosing g ∈ ac.trace := by
        intro g hg
        unfold queueNext at hg
        split_ifs at hg with hmem
        · exact hsane.closingQueue g (List.mem_of_mem_drop (List.mem_of_head? hg))
        · exact Option.some.inj hg ▸ hcur h rfl
      unfold NgxAnytls.drainClosingLoop
      dsimp only
      split_ifs
      · have htake : R ac.view (takeClosing h ac).view := by
          rw [takeClosing_view]
          exact hk.act (.unqueueClosing h)
        have hclose := hk.trans htake (hk.close h (takeClosing h ac) (.inr (.inl (by
          rw [takeClosing_view]
          exact hcur h rfl))))
        have hsub := (hk.keep hclose hsane).trace.subset
        exact hk.trans hclose (ih _ _ fun g hg => hsub (hnext g hg))
      · exact ih _ ac hnext

theorem drainClosing (hk : Closed k R) (ac : Connection) :
    R ac.view (drainClosingStreams k ac).view := by
  refine hk.sane fun hsane => hk.drainClosingLoop _ _ _ fun h hh => ?_
  exact hsane.closingQueue h (List.mem_of_head? hh)

@[simp] theorem armWriteTimer_view (ac : Connection) : (armWriteTimer ac).view = ac.view := by
  unfold armWriteTimer
  split_ifs <;> rfl

theorem flushDone (hk : Closed k R) (ac : Connection) :
    R ac.view (NgxAnytls.flushDone k ac).2.view := by
  have hd := hk.drainClosing (setWriteArmed false ac).arm.2
  unfold NgxAnytls.flushDone
  dsimp only
  split_ifs
  · exact hk.refl _
  · rw [postWrite_view]
    exact hd
  · exact hd

theorem flushBlocked (hk : Closed k R) (ac : Connection) :
    R ac.view (NgxAnytls.flushBlocked ac).2.view := by
  unfold NgxAnytls.flushBlocked
  dsimp only
  split_ifs
  · exact hk.refl _
  · rw [armWriteTimer_view]
    exact hk.refl _

theorem writeChain (hk : Closed k R) {ac ac' : Connection} (h : clientWriteChain ac = some ac') :
    R ac.view ac'.view := by
  unfold clientWriteChain at h
  cases hr : ac.clientRes with
  | error => simp [hr] at h
  | again =>
    simp only [hr, Option.some.injEq] at h
    exact h ▸ hk.refl _
  | done n =>
    simp only [hr, Option.some.injEq] at h
    exact h ▸ hk.act (.take n)

/-- The frames sent, what they release, and the rest of a flush that wrote something. -/
theorem flushWritten (hk : Closed k R) (ac : Connection) :
    R ac.view (if (recycleSentFrames k ac.sending.length ac).outputPressure then
      recycleSentFrames k ac.sending.length ac
    else onClientMuxResult k false (recycleSentFrames k ac.sending.length ac)).view := by
  have hr := hk.recycle ac.sending.length ac
  split_ifs
  · exact hr
  · exact hk.trans hr (hk.clientMuxResult false _)

theorem flush (hk : Closed k R) (budget : Nat) (ac : Connection) :
    R ac.view (NgxAnytls.flush k budget ac).2.view := by
  unfold NgxAnytls.flush
  dsimp only
  split_ifs with herr hun
  · exact hk.refl _
  · exact hk.trans (hk.schedule budget ac.clientErrNext) (hk.link _)
  · refine hk.trans (hk.trans (hk.schedule budget ac.clientErrNext) (hk.link _)) ?_
    cases hw : clientWriteChain (linkFrames (scheduleStreamFrames budget ac.clientErrNext)) with
    | none => exact hk.refl _
    | some ac' =>
      have hwritten := hk.trans (hk.writeChain hw) (hk.flushWritten ac')
      dsimp only
      split_ifs at hwritten ⊢
      all_goals first
        | exact hk.trans hwritten (hk.flushBlocked _)
        | exact hk.trans hwritten (hk.flushDone _)

@[simp] theorem drainPressure_view (rc : Rc) (ac : Connection) :
    (drainPressure rc ac).view = ac.view := by
  cases rc with
  | ok => rfl
  | error => rfl
  | again =>
    unfold drainPressure
    dsimp only
    split_ifs
    · rfl
    · exact suspendReads_view ac

theorem drain (hk : Closed k R) (budget : Nat) (report : Bool) (ac : Connection) :
    R ac.view (clientMuxDrain k budget report ac).2.2.view := by
  have hflush : ∀ b, R ac.view
      (drainPressure (NgxAnytls.flush k b (drainClosingStreams k (setResumed 0 ac))).1
        (NgxAnytls.flush k b (drainClosingStreams k (setResumed 0 ac))).2).view := by
    intro b
    rw [drainPressure_view]
    exact hk.trans (hk.drainClosing (setResumed 0 ac)) (hk.flush b _)
  unfold clientMuxDrain
  dsimp only
  cases report with
  | false => exact hflush _
  | true => exact hk.trans (hflush _) (hk.clientMuxResult _ _)

end Closed

end Composition

end NgxAnytls
