import NgxAnytls.Refinement

/-! Sending a backlog refines the abstract session, and is a complete call: what the socket took is
accounted and the half-close that is due is done. -/

namespace NgxAnytls

section Composition

variable {k : Callbacks} {R : View → View → Prop}

@[simp] theorem setWriteReady_view (h : Handle) (n total : Nat) (ac : Connection) :
    (setWriteReady h n total ac).view = ac.view := by
  unfold setWriteReady
  split_ifs
  · refine upd_view_same fun st => ?_
    cases hu : st.upstream <;> simp [Stream.view, hu]
  · rfl

/-- A batch is a prefix of the backlog. -/
theorem batchLoop_le (ps : List Pending) (remaining n : Nat) :
    (batchLoop ps remaining n).flatten <+: ps.flatMap Pending.rest := by
  induction ps generalizing remaining n with
  | nil => cases n <;> exact List.nil_prefix
  | cons p ps ih =>
    cases n with
    | zero => exact List.nil_prefix
    | succ n =>
      unfold batchLoop
      rw [List.flatMap_cons]
      dsimp only
      split_ifs with hrest hunl hlast
      · rw [hrest, List.nil_append]
        exact ih remaining (n + 1)
      · rw [List.flatten_cons]
        exact (List.prefix_append_right_inj _).mpr (ih remaining n)
      · rw [List.flatten_cons, List.flatten_nil, List.append_nil]
        exact (List.take_prefix _ _).trans (List.prefix_append _ _)
      · have hall : p.rest.take (min p.rest.length remaining) = p.rest :=
          List.take_of_length_le (by omega)
        rw [List.flatten_cons, hall]
        exact (List.prefix_append_right_inj _).mpr (ih _ n)

/-- Taking the fully sent head buffer out. -/
theorem popPending_view (h : Handle) (ac : Connection) :
    (popPending h ac).view =
      ac.view.upd h fun st => { st with pendingIn := st.pendingIn.tail } :=
  upd_view rfl fun _ => rfl

private theorem accountSent_view (h : Handle) (n : Nat) (ac : Connection) :
    (accountSent h n ac).view = (ac.view.upd h fun st =>
      { st with pendingIn := accountHead n st.pendingIn }).log (.upAccount h n) := by
  rw [accountSent, log_view]
  congr 1
  exact upd_view rfl fun _ => rfl

private theorem shutdownDeferred_view (h : Handle) (ac : Connection) :
    (shutdownDeferred h ac).view =
      if (ac.streams h).pendingShutdown ∧ (ac.streams h).upstream.isSome then
        (ac.view.upd h fun st => { st with pendingShutdown := false }).log (.upShutdown h)
      else ac.view := by
  unfold shutdownDeferred
  split_ifs
  · rw [log_view]
    congr 1
    exact upd_view rfl fun _ => rfl
  · rfl

/-- Part of a send of stream `h` is done since `v₀`: the socket took `budget` bytes that are still
to be accounted, and only the half-close of `h` may have become due. -/
structure Sent (h : Handle) (budget : Nat) (v₀ v : View) : Prop where
  sane : v.Sane
  trace : v₀.trace <+: v.trace
  nstreams : v₀.nstreams ≤ v.nstreams
  closing : v₀.closing → v.closing
  unacc : ∀ g, unacc g v₀.trace + (if g = h then budget else 0) ≤ unacc g v.trace
  owed : ∀ g, v.Owed g → v₀.Owed g ∨ g = h

namespace Sent

variable {h : Handle} {b n : Nat} {v₀ v v' : View}

theorem start (hs : v.Sane) : Sent h 0 v v where
  sane := hs
  trace := List.prefix_refl _
  nstreams := le_refl _
  closing := id
  unacc g := by simp
  owed g ho := .inl ho

theorem less (hp : Sent h b v₀ v) (hn : n ≤ b) : Sent h n v₀ v where
  sane := hp.sane
  trace := hp.trace
  nstreams := hp.nstreams
  closing := hp.closing
  unacc g := by
    have := hp.unacc g
    split_ifs at this ⊢ <;> omega
  owed := hp.owed

theorem keeps (hp : Sent h b v₀ v) (hk : v.Keeps v') : Sent h b v₀ v' where
  sane := hk.sane
  trace := hp.trace.trans hk.trace
  nstreams := hp.nstreams.trans hk.nstreams
  closing hc := hk.closing (hp.closing hc)
  unacc g := (hp.unacc g).trans (hk.unacc g)
  owed g ho := hp.owed g (hk.owed g ho)

/-- Once the half-close is not due any more the send is a complete call. -/
theorem done (hp : Sent h b v₀ v) (ho : v.Owed h → v₀.Owed h) : v₀.Keeps v where
  sane := hp.sane
  trace := hp.trace
  nstreams := hp.nstreams
  closing := hp.closing
  unacc g := by
    have := hp.unacc g
    split_ifs at this <;> omega
  owed g hg := (hp.owed g hg).elim id fun he => he ▸ ho (he ▸ hg)

/-- A part of the send itself; what it takes of the budget the trace gains. -/
theorem step (hp : Sent h b v₀ v) (s : List Obs) (hs : v'.Sane) (htr : v'.trace = v.trace ++ s)
    (hn : v'.nstreams = v.nstreams) (hclosing : v.closing → v'.closing)
    (hother : ∀ g, g ≠ h → v'.streams g = v.streams g)
    (hun : ∀ g, NgxAnytls.unacc g v.trace + (if g = h then n else 0) ≤
      NgxAnytls.unacc g v'.trace + if g = h then b else 0) : Sent h n v₀ v' where
  sane := hs
  trace := hp.trace.trans (htr ▸ List.prefix_append _ _)
  nstreams := hn ▸ hp.nstreams
  closing hc := hclosing (hp.closing hc)
  unacc g := by
    have h1 := hp.unacc g
    have h2 := hun g
    split_ifs at h1 h2 ⊢ <;> omega
  owed g ho := by
    by_cases hg : g = h
    · exact .inr hg
    · have hsub : v.trace ⊆ v'.trace := htr ▸ List.subset_append_left _ _
      exact hp.owed g ⟨hother g hg ▸ ho.due, fun hm => ho.resumed (hsub hm), fun hc =>
        ho.live (hc.mono hsub)⟩

end Sent

section Sending

variable {S : View → View → Prop}

/-- Complete calls are in `R`, parts of a send are in `S`. -/
structure Sending (k : Callbacks) (R S : View → View → Prop) : Prop where
  refl : ∀ v, S v v
  trans : ∀ {a b c}, S a b → S b c → S a c
  sane : ∀ {v v'}, (v.Sane → S v v') → S v v'
  send : ∀ {v v'}, SendAct v v' → S v v'
  note : ∀ {v} (o : Obs), o.IsNote → S v (v.log o)
  full : ∀ {v v'}, R v v' → S v v'
  keep : ∀ {v v'}, R v v' → v.Sane → v.Keeps v'
  close : ∀ {v v'}, S v v' → (v.Sane → v.Keeps v') → R v v'
  resume : ∀ ac, R ac.view (k.resume ac).2.view

namespace Sending

/-- The state of a send that began in `v₀`. -/
def Part (S : View → View → Prop) (h : Handle) (b : Nat) (v₀ v : View) : Prop :=
  S v₀ v ∧ Sent h b v₀ v

variable {h : Handle} {b : Nat} {v₀ : View}

theorem call (hk : Sending k R S) {v v' : View} (hp : Part S h b v₀ v) (hr : R v v') :
    Part S h b v₀ v' :=
  ⟨hk.trans hp.1 (hk.full hr), hp.2.keeps (hk.keep hr hp.2.sane)⟩

theorem account (hk : Sending k R S) (n : Nat) (p : Pending) (ps : List Pending)
    (ac : Connection) (hp : Part S h b v₀ ac.view) (hq : (ac.streams h).pendingIn = p :: ps)
    (hn : n ≤ p.rest.length) (hb : n ≤ b) : Part S h (b - n) v₀ (accountSent h n ac).view := by
  have hun : n ≤ unacc h ac.view.trace := by
    have := hp.2.unacc h
    simp only [if_true] at this
    omega
  have hact := SendAct.account (v := ac.view) h p ps n hq hn hun
  rw [accountSent_view]
  refine ⟨hk.trans hp.1 (hk.send hact), hp.2.step [.upAccount h n] (hact.sane hp.2.sane) rfl rfl id
    (fun g hg => by simp [hg]) fun g => ?_⟩
  simp only [View.log_trace, View.upd_trace, unacc_append, unaccStep]
  by_cases hg : g = h
  · subst hg
    simp only [if_true]
    omega
  · simp [hg, Ne.symm hg]

theorem pop (hk : Sending k R S) (p : Pending) (ps : List Pending) (ac : Connection)
    (hp : Part S h b v₀ ac.view) (hq : (ac.streams h).pendingIn = p :: ps)
    (hsent : p.sent = p.data.length) : Part S h b v₀ (popPending h ac).view := by
  have hact := SendAct.pop (v := ac.view) h p ps hq hsent
  rw [popPending_view]
  exact ⟨hk.trans hp.1 (hk.send hact), hp.2.step [] (hact.sane hp.2.sane) (by simp) rfl id
    (fun g hg => by simp [hg]) fun g => by simp⟩

theorem updateInput (hk : Sending k R S) (ac : Connection) (hp : Part S h b v₀ ac.view) :
    Part S h b v₀ (updateInputState k h ac).2.view := by
  have hr := hk.resume (unblockInput h ac)
  rw [unblockInput_view] at hr
  unfold updateInputState
  split_ifs
  · exact hp
  · exact hp
  · exact hk.call hp hr

theorem accountSent_pending (n : Nat) (p : Pending) (ps : List Pending) (ac : Connection)
    (hq : (ac.streams h).pendingIn = p :: ps) :
    ((accountSent h n ac).streams h).pendingIn = { p with sent := p.sent + n } :: ps := by
  simp [accountSent, hq, accountHead]

theorem resumeFailed (hk : Sending k R S) (ac : Connection) (hp : Part S h b v₀ ac.view) :
    Part S h b v₀ (ac.log (.resumeFailed h)).view := by
  have hact : Act ac.view (ac.view.log (.resumeFailed h)) := .note _ trivial
  exact ⟨hk.trans hp.1 (hk.note _ trivial), hp.2.keeps (hact.keeps hp.2.sane)⟩

/-- The accounting loop; when it returns early nothing is due. -/
theorem accountLoop (hk : Sending k R S) (n sent : Nat) (ac : Connection)
    (hp : Part S h (b + sent) v₀ ac.view) :
    Part S h b v₀ (NgxAnytls.accountLoop k h n sent ac).2.view ∧
      ((NgxAnytls.accountLoop k h n sent ac).1.isSome →
        ¬(NgxAnytls.accountLoop k h n sent ac).2.view.Owed h) := by
  induction n generalizing sent ac with
  | zero => exact ⟨⟨hp.1, hp.2.less (Nat.le_add_right _ _)⟩, by simp [NgxAnytls.accountLoop]⟩
  | succ n ih =>
    unfold NgxAnytls.accountLoop
    cases hq : (ac.streams h).pendingIn with
    | nil => exact ⟨⟨hp.1, hp.2.less (Nat.le_add_right _ _)⟩, by simp⟩
    | cons p ps =>
      have hpend := accountSent_pending (min p.rest.length sent) p ps ac hq
      have hacc := hk.account (min p.rest.length sent) p ps ac hp hq (Nat.min_le_left _ _)
        (by omega)
      have hsize : b + sent - min p.rest.length sent = b + (sent - min p.rest.length sent) := by
        omega
      rw [hsize] at hacc
      dsimp only
      split_ifs with hzero hpart hresume
      · exact ⟨⟨hp.1, hp.2.less (Nat.le_add_right _ _)⟩, by simp⟩
      · refine ⟨⟨hacc.1, hacc.2.less (Nat.le_add_right _ _)⟩, fun _ ho => ?_⟩
        have hempty : ((accountSent h (min p.rest.length sent) ac).streams h).pendingIn = [] :=
          ho.due.empty
        rw [hpend] at hempty
        cases hempty
      · have hup := hk.updateInput _ (hk.pop _ ps _ hacc hpend (not_not.mp hpart))
        refine ⟨hk.resumeFailed _ ⟨hup.1, hup.2.less (Nat.le_add_right _ _)⟩, fun _ ho => ?_⟩
        exact ho.resumed (by simp)
      · exact ih _ _ (hk.updateInput _ (hk.pop _ ps _ hacc hpend (not_not.mp hpart)))

/-- The end of a send: the half-close that is due is done. -/
theorem sendTail (hk : Sending k R S) (ac : Connection) (hp : Part S h b v₀ ac.view) :
    S v₀ (sendPendingTail k h ac).2.view ∧ v₀.Keeps (sendPendingTail k h ac).2.view := by
  have hdown : (ac.streams h).pendingIn = [] → Part S h b v₀ (shutdownDeferred h ac).view ∧
      ¬(shutdownDeferred h ac).view.Owed h := by
    intro hq
    rw [shutdownDeferred_view]
    split_ifs with hshut
    · have hact := SendAct.shutdown (v := ac.view) h hq hshut.1 hshut.2
      refine ⟨⟨hk.trans hp.1 (hk.send hact),
        hp.2.step [.upShutdown h] (hact.sane hp.2.sane) rfl rfl id
        (fun g hg => by simp [hg]) fun g => ?_⟩, fun ho => ?_⟩
      · simp [unaccStep]
      · exact absurd ho.due.deferred (by simp)
    · exact ⟨hp, fun ho => hshut ⟨ho.due.deferred, ho.due.upstream⟩⟩
  unfold sendPendingTail
  dsimp only
  split_ifs with hq harm
  · exact ⟨hp.1, hp.2.done fun ho => absurd ho.due.empty hq⟩
  · obtain ⟨hd, hno⟩ := hdown (not_not.mp hq)
    exact ⟨hd.1, hd.2.done fun ho => absurd ho hno⟩
  · obtain ⟨hd, hno⟩ := hdown (not_not.mp hq)
    have hr := hk.resume (shutdownDeferred h ac).arm.2
    rw [arm_view] at hr
    have hres := hk.call hd hr
    exact ⟨hres.1, hres.2.done fun ho => absurd ((hk.keep hr hd.2.sane).owed h ho) hno⟩

/-- One batch; when the code returns after it nothing is due. -/
theorem sendBatch (hk : Sending k R S) (batch : Bytes) (ac : Connection)
    (hp : Part S h b v₀ ac.view) (hb : batch <+: (ac.view.streams h).backlog)
    (hq : (ac.streams h).pendingIn ≠ []) :
    Part S h b v₀ (NgxAnytls.sendBatch k h batch ac).2.2.view ∧
      ((NgxAnytls.sendBatch k h batch ac).2.1.isSome →
        ¬(NgxAnytls.sendBatch k h batch ac).2.2.view.Owed h) := by
  have hsame : ¬ac.view.Owed h := fun ho => hq ho.due.empty
  unfold NgxAnytls.sendBatch upstreamWriteChain
  cases ac.chainRes with
  | error => exact ⟨hp, fun _ => hsame⟩
  | again =>
    dsimp only
    rw [if_pos rfl]
    dsimp only
    rw [arm_view, setWriteReady_view]
    exact ⟨hp, fun _ => hsame⟩
  | done n =>
    have hact := SendAct.chain (v := ac.view) h (batch.take (min n batch.length))
      ((List.take_prefix _ _).trans hb) hq
    have hlen : (batch.take (min n batch.length)).length = min n batch.length := by simp
    have hchain : Part S h (b + min n batch.length) v₀
        (ac.view.log (.upChain h (batch.take (min n batch.length)))) := by
      refine ⟨hk.trans hp.1 (hk.send hact),
        hp.2.step [.upChain h _] (hact.sane hp.2.sane) rfl rfl id
        (fun _ _ => rfl) fun g => ?_⟩
      simp only [View.log_trace, unacc_append, unaccStep, hlen]
      by_cases hg : g = h
      · subst hg
        simp only [if_true]
        omega
      · simp [hg, Ne.symm hg]
    have hview : (setWriteReady h (min n batch.length) batch.length (ac.chainNext.log
        (.upChain h (batch.take (min n batch.length))))).view =
          ac.view.log (.upChain h (batch.take (min n batch.length))) := by
      rw [setWriteReady_view]
      rfl
    dsimp only
    rw [← hview] at hchain
    split_ifs
    · exact ⟨⟨hchain.1, hchain.2.less (Nat.le_add_right _ _)⟩, fun _ ho => hq (by
        have hempty := ho.due.empty
        rwa [arm_view, hview] at hempty)⟩
    · exact hk.accountLoop _ _ _ hchain

theorem sendLoop (hk : Sending k R S) (n maxBytes total : Nat) (ac : Connection)
    (hp : Part S h b v₀ ac.view) :
    S v₀ (NgxAnytls.sendLoop k h n maxBytes total ac).2.2.view ∧
      v₀.Keeps (NgxAnytls.sendLoop k h n maxBytes total ac).2.2.view := by
  induction n generalizing maxBytes total ac with
  | zero => exact hk.sendTail ac hp
  | succ n ih =>
    unfold NgxAnytls.sendLoop
    dsimp only
    have hpre := batchLoop_le (ac.streams h).pendingIn maxBytes pendingWriteChainLimit
    generalize
      (batchLoop (ac.streams h).pendingIn maxBytes pendingWriteChainLimit).flatten = batch
      at hpre ⊢
    by_cases hq : (ac.streams h).pendingIn = []
    · rw [if_pos hq]
      exact hk.sendTail ac hp
    by_cases hmax : maxBytes = 0
    · rw [if_neg hq, if_pos hmax]
      exact ⟨hp.1, hp.2.done fun ho => absurd ho.due.empty hq⟩
    by_cases hnil : batch = []
    · rw [if_neg hq, if_neg hmax, if_pos hnil]
      exact hk.sendTail ac hp
    rw [if_neg hq, if_neg hmax, if_neg hnil]
    have hbatch := hk.sendBatch batch ac hp hpre hq
    generalize NgxAnytls.sendBatch k h batch ac = w at hbatch ⊢
    obtain ⟨sent, _ | rc, ac'⟩ := w
    · dsimp only at hbatch ⊢
      generalize (if maxBytes = sendUnlimited then maxBytes else maxBytes - sent) = maxBytes'
      split_ifs
      · exact hk.sendTail ac' hbatch.1
      · exact ih _ _ _ hbatch.1
    · exact ⟨hbatch.1.1, hbatch.1.2.done fun ho => absurd ho (hbatch.2 rfl)⟩

/-- A send is a complete call. -/
theorem sendPending (hk : Sending k R S) (h : Handle) (maxBytes : Nat) (ac : Connection) :
    R ac.view (NgxAnytls.sendPending k h maxBytes ac).2.2.view := by
  have hsend : ac.view.Sane → S ac.view (NgxAnytls.sendPending k h maxBytes ac).2.2.view ∧
      ac.view.Keeps (NgxAnytls.sendPending k h maxBytes ac).2.2.view := by
    intro hs
    unfold NgxAnytls.sendPending
    split_ifs
    · exact ⟨hk.refl _, .refl hs⟩
    · exact hk.sendLoop _ _ _ _ ⟨hk.refl _, Sent.start hs⟩
  exact hk.close (hk.sane fun hs => (hsend hs).1) fun hs => (hsend hs).2

end Sending

end Sending

end Composition

end NgxAnytls
