import NgxAnytls.HeldInput
import NgxAnytls.Uplink

/-! What one call of `ngx_anytls_upstream_send_pending` reports, keeps and leaves armed. -/

namespace NgxAnytls

/-- What was last done to the write event: `ngx_anytls_transport_arm_write` or
`ngx_anytls_transport_disarm_write`. -/
inductive WriteCall where
  | arm | disarm
  deriving DecidableEq, Repr

/-- `accountLoop` with the write event. -/
def accountLoopW (k : Callbacks) (h : Handle) :
    Nat → Nat → Connection → Option (Rc × Option WriteCall) × Connection
  | 0, _, ac => (none, ac)
  | fuel + 1, sent, ac =>
    match (ac.streams h).pendingIn with
    | [] => (none, ac)
    | p :: _ =>
      if sent = 0 then (none, ac)
      else
        let size := min p.rest.length sent
        let ac := accountSent h size ac
        if p.sent + size ≠ p.data.length then
          let r := ac.arm
          (some (r.1, some .arm), r.2)
        else
          let r := updateInputState k h (popPending h ac)
          if r.1 ≠ .ok then (some (.error, none), r.2.log (.resumeFailed h))
          else accountLoopW k h fuel (sent - size) r.2

/-- `sendPendingTail` with the write event. -/
def sendPendingTailW (k : Callbacks) (h : Handle) (ac : Connection) :
    Rc × Option WriteCall × Connection :=
  if (ac.streams h).pendingIn ≠ [] then (ac.arm.1, some .arm, ac.arm.2)
  else
    let r := (shutdownDeferred h ac).arm
    if r.1 ≠ .ok then (.error, some .disarm, r.2)
    else
      let r := k.resume r.2
      (r.1, some .disarm, r.2)

/-- `sendBatch` with the write event. -/
def sendBatchW (k : Callbacks) (h : Handle) (batch : Bytes) (ac : Connection) :
    Nat × Option (Rc × Option WriteCall) × Connection :=
  match upstreamWriteChain h batch ac with
  | (none, ac) => (0, some (.error, none), ac)
  | (some sent, ac) =>
    if sent = 0 then (0, some (ac.arm.1, some .arm), ac.arm.2)
    else (sent, accountLoopW k h (sent + (ac.streams h).pendingIn.length) sent ac)

/-- What a call of `ngx_anytls_upstream_send_pending` returns and leaves: the result, `*sent_out`,
what it last did to the write event, the state. -/
structure SendResult where
  rc : Rc
  sentOut : Nat
  write : Option WriteCall
  conn : Connection

/-- The end of the call, after `total` bytes. -/
def sendEndW (k : Callbacks) (h : Handle) (total : Nat) (ac : Connection) : SendResult :=
  let r := sendPendingTailW k h ac
  ⟨r.1, total, r.2.1, r.2.2⟩

/-- `sendLoop` with the write event. -/
def sendLoopW (k : Callbacks) (h : Handle) : Nat → Nat → Nat → Connection → SendResult
  | 0, _, total, ac => sendEndW k h total ac
  | fuel + 1, maxBytes, total, ac =>
    if (ac.streams h).pendingIn = [] then sendEndW k h total ac
    else if maxBytes = 0 then ⟨.ok, total, none, ac⟩
    else
      let batch := (batchLoop (ac.streams h).pendingIn maxBytes pendingWriteChainLimit).flatten
      if batch = [] then sendEndW k h total ac
      else
        match sendBatchW k h batch ac with
        | (sent, some r, ac) => ⟨r.1, total + sent, r.2, ac⟩
        | (sent, none, ac) =>
          let maxBytes := if maxBytes = sendUnlimited then maxBytes else maxBytes - sent
          if sent < batch.length ∨ maxBytes = 0 then sendEndW k h (total + sent) ac
          else sendLoopW k h fuel maxBytes (total + sent) ac

/-- `ngx_anytls_upstream_send_pending` with the write event. -/
def sendPendingW (k : Callbacks) (h : Handle) (maxBytes : Nat) (ac : Connection) : SendResult :=
  if (ac.streams h).upstream.isNone ∨ !isOpenState (ac.streams h) then ⟨.ok, 0, none, ac⟩
  else sendLoopW k h ((ac.streams h).backlog.length + ac.remnant.length + 1) maxBytes 0 ac

section Erase

variable (k : Callbacks) (h : Handle)

private theorem accountLoopW_eq (fuel sent : Nat) (ac : Connection) :
    accountLoop k h fuel sent ac =
      ((accountLoopW k h fuel sent ac).1.map Prod.fst, (accountLoopW k h fuel sent ac).2) := by
  induction fuel generalizing sent ac with
  | zero => rfl
  | succ fuel ih =>
    unfold accountLoop accountLoopW
    cases (ac.streams h).pendingIn with
    | nil => rfl
    | cons p ps =>
      dsimp only
      split_ifs
      · rfl
      · rfl
      · rfl
      · exact ih _ _

private theorem sendPendingTailW_eq (ac : Connection) :
    sendPendingTail k h ac = ((sendPendingTailW k h ac).1, (sendPendingTailW k h ac).2.2) := by
  unfold sendPendingTail sendPendingTailW
  dsimp only
  split_ifs <;> rfl

private theorem sendBatchW_eq (batch : Bytes) (ac : Connection) :
    sendBatch k h batch ac = ((sendBatchW k h batch ac).1,
      (sendBatchW k h batch ac).2.1.map Prod.fst, (sendBatchW k h batch ac).2.2) := by
  unfold sendBatch sendBatchW
  generalize upstreamWriteChain h batch ac = w
  obtain ⟨_ | sent, ac'⟩ := w
  · rfl
  · dsimp only
    split_ifs
    · rfl
    · rw [accountLoopW_eq]

private theorem sendLoopW_eq (fuel maxBytes total : Nat) (ac : Connection) :
    sendLoop k h fuel maxBytes total ac = ((sendLoopW k h fuel maxBytes total ac).rc,
      (sendLoopW k h fuel maxBytes total ac).sentOut,
      (sendLoopW k h fuel maxBytes total ac).conn) := by
  induction fuel generalizing maxBytes total ac with
  | zero =>
    unfold sendLoop sendLoopW sendEndW
    rw [sendPendingTailW_eq]
  | succ fuel ih =>
    unfold sendLoop sendLoopW sendEndW
    dsimp only
    rw [sendPendingTailW_eq, sendBatchW_eq]
    generalize sendBatchW k h _ ac = w
    obtain ⟨sent, _ | r, ac'⟩ := w
    · dsimp only [Option.map_none]
      rw [sendPendingTailW_eq, ih]
      split_ifs <;> rfl
    · dsimp only [Option.map_some]
      split_ifs <;> rfl

/-- The write event is all that is added. -/
theorem sendPendingW_eq (maxBytes : Nat) (ac : Connection) :
    sendPending k h maxBytes ac = ((sendPendingW k h maxBytes ac).rc,
      (sendPendingW k h maxBytes ac).sentOut, (sendPendingW k h maxBytes ac).conn) := by
  unfold sendPending sendPendingW
  split_ifs
  · rfl
  · exact sendLoopW_eq k h _ _ _ _

end Erase

/-- No buffer of the backlog is sent beyond its end. -/
def Stream.SentWithin (st : Stream) : Prop := ∀ p ∈ st.pendingIn, p.sent ≤ p.data.length

/-- Part of a call: the socket took `taken` and `gone` left the backlog. -/
structure Passes (h : Handle) (taken gone : Bytes) (ac ac' : Connection) : Prop where
  trace : ∃ s, ac'.trace = ac.trace ++ s ∧ upSent h s = taken ∧ Obs.upShutdown h ∉ s
  backlog : (ac.streams h).backlog = gone ++ (ac'.streams h).backlog
  within : (ac.streams h).SentWithin → (ac'.streams h).SentWithin
  inputBlocked : (ac'.streams h).inputBlocked = (ac.streams h).inputBlocked
  shutdown : (ac'.streams h).pendingShutdown = (ac.streams h).pendingShutdown
  upstream : (ac'.streams h).upstream.isSome = (ac.streams h).upstream.isSome
  remnant : ac'.remnant = ac.remnant
  authenticated : ac'.authenticated = ac.authenticated

section Passing

variable {h : Handle} {taken taken' gone gone' : Bytes} {ac ac' ac'' : Connection}

theorem Passes.of_same (ht : ac'.trace = ac.trace) (hs : ac'.streams h = ac.streams h)
    (hr : ac'.remnant = ac.remnant) (ha : ac'.authenticated = ac.authenticated) :
    Passes h [] [] ac ac' where
  trace := ⟨[], by rw [ht, List.append_nil], rfl, List.not_mem_nil⟩
  backlog := by rw [hs]; rfl
  within hf := by rw [hs]; exact hf
  inputBlocked := by rw [hs]
  shutdown := by rw [hs]
  upstream := by rw [hs]
  remnant := hr
  authenticated := ha

theorem Passes.refl (h : Handle) (ac : Connection) : Passes h [] [] ac ac :=
  .of_same rfl rfl rfl rfl

theorem Passes.trans (hp : Passes h taken gone ac ac') (hp' : Passes h taken' gone' ac' ac'') :
    Passes h (taken ++ taken') (gone ++ gone') ac ac'' := by
  obtain ⟨s, hs, htaken, hshut⟩ := hp.trace
  obtain ⟨s', hs', htaken', hshut'⟩ := hp'.trace
  refine ⟨⟨s ++ s', ?_, ?_, ?_⟩, ?_, hp'.within ∘ hp.within, hp'.inputBlocked.trans hp.inputBlocked,
    hp'.shutdown.trans hp.shutdown, hp'.upstream.trans hp.upstream, hp'.remnant.trans hp.remnant,
    hp'.authenticated.trans hp.authenticated⟩
  · rw [hs', hs, List.append_assoc]
  · rw [upSent_append, htaken, htaken']
  · intro hmem
    exact (List.mem_append.mp hmem).elim hshut hshut'
  · rw [hp.backlog, hp'.backlog, List.append_assoc]

private theorem setWriteReady_passes (n total : Nat) :
    Passes h [] [] ac (setWriteReady h n total ac) := by
  unfold setWriteReady
  split_ifs
  · refine ⟨⟨[], (List.append_nil _).symm, rfl, List.not_mem_nil⟩, ?_, ?_, ?_, ?_, ?_, rfl, rfl⟩
    · rw [Connection.upd_self]
      rfl
    · intro hf
      rw [Connection.upd_self]
      exact hf
    · rw [Connection.upd_self]
    · rw [Connection.upd_self]
    · rw [Connection.upd_self, Option.isSome_map]
  · exact .refl h ac

/-- The socket takes a prefix of what it is given. -/
theorem upstreamWriteChain_passes (batch : Bytes) (ac : Connection) :
    ((upstreamWriteChain h batch ac).1 = none ∧
      Passes h [] [] ac (upstreamWriteChain h batch ac).2) ∨
      ∃ n ≤ batch.length, (upstreamWriteChain h batch ac).1 = some n ∧
        Passes h (batch.take n) [] ac (upstreamWriteChain h batch ac).2 := by
  have hnext : Passes h [] [] ac ac.chainNext := .of_same rfl rfl rfl rfl
  unfold upstreamWriteChain
  cases ac.chainRes with
  | error => exact .inl ⟨rfl, hnext⟩
  | again => exact .inr ⟨0, Nat.zero_le _, rfl, hnext.trans (setWriteReady_passes 0 batch.length)⟩
  | done n =>
    have htake : Passes h (batch.take (min n batch.length)) [] ac.chainNext
        (ac.chainNext.log (.upChain h (batch.take (min n batch.length)))) := by
      refine ⟨⟨_, rfl, ?_, ?_⟩, rfl, id, rfl, rfl, rfl, rfl, rfl⟩
      · simp [upSent]
      · simp
    refine .inr ⟨min n batch.length, Nat.min_le_right _ _, rfl, ?_⟩
    have hall := (hnext.trans htake).trans
      (setWriteReady_passes (h := h) (min n batch.length) batch.length)
    rwa [List.nil_append, List.append_nil] at hall

variable {p : Pending} {ps : List Pending} {n : Nat}

/-- A part of the head buffer is accounted. -/
theorem accountSent_passes (hp : (ac.streams h).pendingIn = p :: ps) (hn : n < p.rest.length) :
    Passes h [] (p.rest.take n) ac (accountSent h n ac) := by
  have hlen : p.rest.length = p.data.length - p.sent := List.length_drop
  have hpending : ((accountSent h n ac).streams h).pendingIn =
    { p with sent := p.sent + n } :: ps := by
    rw [accountSent, Connection.log_streams, Connection.upd_self, hp]
    rfl
  refine ⟨⟨[.upAccount h n], rfl, rfl, by simp⟩, ?_, ?_, ?_, ?_, ?_, rfl, rfl⟩
  · have hrest : Pending.rest { p with sent := p.sent + n } = p.rest.drop n := by
      rw [Pending.rest, Pending.rest, List.drop_drop]
    unfold Stream.backlog
    rw [hpending, hp, List.flatMap_cons, List.flatMap_cons, hrest, ← List.append_assoc,
      List.take_append_drop]
  · intro hf q hq
    unfold Stream.SentWithin at hf
    rw [hp] at hf
    rw [hpending, List.mem_cons] at hq
    rcases hq with rfl | hq
    · show p.sent + n ≤ p.data.length
      omega
    · exact hf q (List.mem_cons_of_mem _ hq)
  · rw [accountSent, Connection.log_streams, Connection.upd_self]
  · rw [accountSent, Connection.log_streams, Connection.upd_self]
  · rw [accountSent, Connection.log_streams, Connection.upd_self]

private theorem popPending_tail (hp : (ac.streams h).pendingIn = p :: ps) (n : Nat) :
    ((popPending h (accountSent h n ac)).streams h).pendingIn = ps := by
  unfold popPending
  rw [Connection.upd_self]
  show ((accountSent h n ac).streams h).pendingIn.tail = ps
  rw [accountSent, Connection.log_streams, Connection.upd_self, hp]
  rfl

/-- The head buffer is accounted and taken out. -/
theorem popPending_passes (hp : (ac.streams h).pendingIn = p :: ps) (n : Nat) :
    Passes h [] p.rest ac (popPending h (accountSent h n ac)) := by
  have hpending := popPending_tail hp n
  have hsame : ∀ {β : Type} (field : Stream → β),
      (∀ (st : Stream) q (m : Nat),
        field { st with pendingIn := q, pendingInBytes := m } = field st) →
      field ((popPending h (accountSent h n ac)).streams h) = field (ac.streams h) := by
    intro β field hfield
    unfold popPending
    rw [Connection.upd_self, hfield]
    show field ((accountSent h n ac).streams h) = _
    rw [accountSent, Connection.log_streams, Connection.upd_self]
    exact hfield (ac.streams h) _ (ac.streams h).pendingInBytes
  refine ⟨⟨[.upAccount h n], rfl, rfl, by simp⟩, ?_, ?_, ?_, ?_, ?_, rfl, rfl⟩
  · unfold Stream.backlog
    rw [hpending, hp, List.flatMap_cons]
  · intro hf q hq
    unfold Stream.SentWithin at hf
    rw [hp] at hf
    rw [hpending] at hq
    exact hf q (List.mem_cons_of_mem _ hq)
  · exact hsame Stream.inputBlocked fun _ _ _ => rfl
  · exact hsame Stream.pendingShutdown fun _ _ _ => rfl
  · exact hsame (fun st => st.upstream.isSome) fun _ _ _ => rfl

theorem Stream.backlog_ne_nil {st : Stream} (hb : st.backlog ≠ []) : st.pendingIn ≠ [] := by
  intro hnil
  apply hb
  rw [Stream.backlog, hnil]
  rfl

theorem Passes.backlog_ne_nil (hp : Passes h taken [] ac ac') (hb : (ac.streams h).backlog ≠ []) :
    (ac'.streams h).backlog ≠ [] := by
  have hsame : (ac.streams h).backlog = (ac'.streams h).backlog := hp.backlog
  rwa [← hsame]

variable {k : Callbacks}

/-- What the socket took is accounted; a buffer that is sent in part ends the call. -/
theorem accountLoopW_passes (fuel sent : Nat) (ac : Connection)
    (hsent : sent ≤ (ac.streams h).backlog.length)
    (hfuel : sent + (ac.streams h).pendingIn.length ≤ fuel)
    (hwithin : (ac.streams h).SentWithin) (hopen : (ac.streams h).inputBlocked = false) :
    ∃ gone, gone.length = sent ∧ Passes h [] gone ac (accountLoopW k h fuel sent ac).2 ∧
      ((accountLoopW k h fuel sent ac).1 = none ∨
        ∃ rc, (accountLoopW k h fuel sent ac).1 = some (rc, some .arm) ∧
          ((accountLoopW k h fuel sent ac).2.streams h).pendingIn ≠ []) := by
  induction fuel generalizing sent ac with
  | zero => exact ⟨[], by simp only [List.length_nil]; omega, .refl h ac, .inl rfl⟩
  | succ fuel ih =>
    unfold accountLoopW
    cases hp : (ac.streams h).pendingIn with
    | nil =>
      rw [Stream.backlog, hp] at hsent
      exact ⟨[], (Nat.le_zero.mp hsent).symm, .refl h ac, .inl rfl⟩
    | cons p ps =>
      dsimp only
      by_cases hzero : sent = 0
      · rw [if_pos hzero]
        exact ⟨[], hzero.symm, .refl h ac, .inl rfl⟩
      rw [if_neg hzero]
      have hhead : p.sent ≤ p.data.length := hwithin p (by rw [hp]; exact List.mem_cons_self)
      have hlen : p.rest.length = p.data.length - p.sent := List.length_drop
      by_cases hpart : p.sent + min p.rest.length sent ≠ p.data.length
      · rw [if_pos hpart]
        have hshort : sent < p.rest.length := by omega
        have hsize : min p.rest.length sent = sent := min_eq_right hshort.le
        rw [hsize]
        have hpass := accountSent_passes hp hshort
        have harm : Passes h [] [] (accountSent h sent ac) (accountSent h sent ac).arm.2 :=
          .of_same rfl rfl rfl rfl
        have hall := hpass.trans harm
        simp only [List.append_nil] at hall
        refine ⟨p.rest.take sent, ?_, hall, .inr ⟨_, rfl, ?_⟩⟩
        · rw [List.length_take, min_eq_left hshort.le]
        · show ((accountSent h sent ac).streams h).pendingIn ≠ []
          rw [accountSent, Connection.log_streams, Connection.upd_self, hp]
          exact List.cons_ne_nil _ _
      · rw [if_neg hpart]
        have hsize : min p.rest.length sent = p.rest.length := by omega
        have hle : p.rest.length ≤ sent := by omega
        rw [hsize]
        have hpass := popPending_passes hp p.rest.length
        have hopen' := hpass.inputBlocked.trans hopen
        have hupdate : updateInputState k h (popPending h (accountSent h p.rest.length ac)) =
            (.ok, popPending h (accountSent h p.rest.length ac)) := by
          rw [updateInputState, hopen']
          rfl
        rw [hupdate]
        have hback := congrArg List.length hpass.backlog
        rw [List.length_append] at hback
        have htail : ((popPending h (accountSent h p.rest.length ac)).streams h).pendingIn = ps :=
          popPending_tail hp p.rest.length
        have hfuel' : sent - p.rest.length + ((popPending h
            (accountSent h p.rest.length ac)).streams h).pendingIn.length ≤ fuel := by
          rw [hp, List.length_cons] at hfuel
          rw [htail]
          omega
        obtain ⟨gone, hgone, hrest, hend⟩ := ih (sent - p.rest.length) _ (by omega) hfuel'
          (hpass.within hwithin) hopen'
        refine ⟨p.rest ++ gone, ?_, hpass.trans hrest, hend⟩
        rw [List.length_append, hgone]
        omega

/-- One batch: what the socket takes of it leaves the backlog, and a call that ends here with no
error has armed the write event. -/
theorem sendBatchW_passes (batch : Bytes) (ac : Connection)
    (hbatch : batch <+: (ac.streams h).backlog) (hne : batch ≠ [])
    (hwithin : (ac.streams h).SentWithin) (hopen : (ac.streams h).inputBlocked = false) :
    ∃ taken, taken.length = (sendBatchW k h batch ac).1 ∧ taken.length ≤ batch.length ∧
      Passes h taken taken ac (sendBatchW k h batch ac).2.2 ∧
      ((sendBatchW k h batch ac).2.1 = none ∧ taken ≠ [] ∨
        ∃ rc write, (sendBatchW k h batch ac).2.1 = some (rc, write) ∧
          ((sendBatchW k h batch ac).2.2.streams h).pendingIn ≠ [] ∧
          (rc ≠ .error → write = some .arm)) := by
  have hback : (ac.streams h).backlog ≠ [] := by
    intro hnil
    rw [hnil, List.prefix_nil] at hbatch
    exact hne hbatch
  have hchain := upstreamWriteChain_passes (h := h) batch ac
  unfold sendBatchW
  generalize upstreamWriteChain h batch ac = w at hchain
  obtain ⟨res, ac₁⟩ := w
  rcases hchain with ⟨hres, hpass⟩ | ⟨n, hn, hres, hpass⟩
  · obtain rfl : res = none := hres
    exact ⟨[], rfl, Nat.zero_le _, hpass, .inr ⟨_, _, rfl,
      Stream.backlog_ne_nil (hpass.backlog_ne_nil hback), fun herr => absurd rfl herr⟩⟩
  · obtain rfl : res = some n := hres
    dsimp only at hpass ⊢
    by_cases hzero : n = 0
    · rw [if_pos hzero]
      have harm : Passes h [] [] ac₁ ac₁.arm.2 := .of_same rfl rfl rfl rfl
      have hall := hpass.trans harm
      rw [hzero, List.take_zero] at hall
      exact ⟨[], rfl, Nat.zero_le _, hall, .inr ⟨_, _, rfl,
        Stream.backlog_ne_nil (hall.backlog_ne_nil hback), fun _ => rfl⟩⟩
    · rw [if_neg hzero]
      have hsame : (ac.streams h).backlog = (ac₁.streams h).backlog := hpass.backlog
      obtain ⟨gone, hgone, haccount, hend⟩ := accountLoopW_passes (k := k) _ n ac₁
        (hsame ▸ hn.trans hbatch.length_le) le_rfl (hpass.within hwithin)
        (hpass.inputBlocked.trans hopen)
      have hlen : (batch.take n).length = n := by rw [List.length_take, min_eq_left hn]
      have heq : gone = batch.take n := by
        have hgone' : gone <+: (ac.streams h).backlog :=
          ⟨_, (hsame.trans haccount.backlog).symm⟩
        have hfront := List.prefix_of_prefix_length_le hgone'
          ((List.take_prefix n batch).trans hbatch)
          (by rw [hgone, hlen])
        exact hfront.eq_of_length (by rw [hgone, hlen])
      have hall := hpass.trans haccount
      rw [List.append_nil, List.nil_append, heq] at hall
      refine ⟨batch.take n, hlen, by rwa [hlen], hall, ?_⟩
      rcases hend with hnone | ⟨rc, hsome, hpending⟩
      · refine .inl ⟨hnone, fun hnil => hzero ?_⟩
        rw [← hlen, hnil]
        rfl
      · exact .inr ⟨rc, _, hsome, hpending, fun _ => rfl⟩

/-- A batch keeps within the budget; `sendUnlimited` is none. -/
theorem batchLoop_length (ps : List Pending) (remaining n : Nat) (hr : remaining < sendUnlimited) :
    (batchLoop ps remaining n).flatten.length ≤ remaining := by
  induction ps generalizing remaining n with
  | nil => cases n <;> exact Nat.zero_le _
  | cons p ps ih =>
    cases n with
    | zero => exact Nat.zero_le _
    | succ n =>
      unfold batchLoop
      dsimp only
      split_ifs with hrest hunl hlast
      · exact ih remaining (n + 1) hr
      · exact absurd hunl hr.ne
      · rw [List.flatten_cons, List.flatten_nil, List.append_nil, List.length_take]
        omega
      · have hnext := ih (remaining - min p.rest.length remaining) n (by omega)
        rw [List.flatten_cons, List.length_append, List.length_take]
        omega

/-- No client input is paused: the stream does not block it, and a resume finds no whole frame that
was held back. -/
structure Unpaused (k : Callbacks) (h : Handle) (ac : Connection) : Prop where
  open_ : (ac.streams h).inputBlocked = false
  resume : ∀ w : Connection, w.remnant = ac.remnant → w.authenticated = ac.authenticated →
    (k.resume w).2.streams = w.streams ∧ (k.resume w).2.trace = w.trace

theorem Passes.unpaused (hp : Passes h taken gone ac ac') (hu : Unpaused k h ac) :
    Unpaused k h ac' where
  open_ := hp.inputBlocked.trans hu.open_
  resume w hr ha := hu.resume w (hr.trans hp.remnant) (ha.trans hp.authenticated)

/-- What a call keeps to when the socket took `taken`: it reports these bytes and takes no others
out of the backlog, a return without an error has armed the write event while there is a backlog,
and the half-close that waits for the backlog is done exactly when none is left. -/
structure SendKeeps (h : Handle) (taken : Bytes) (ac : Connection) (r : SendResult) : Prop where
  accepted : upSent h r.conn.trace = upSent h ac.trace ++ taken
  reported : r.sentOut = taken.length
  remaining : (ac.streams h).backlog = taken ++ (r.conn.streams h).backlog
  armed : (r.conn.streams h).pendingIn ≠ [] → r.rc ≠ .error → r.write = some .arm
  closed : ∃ s, r.conn.trace = ac.trace ++ s ∧ (Obs.upShutdown h ∈ s ↔
    (ac.streams h).pendingShutdown = true ∧ (r.conn.streams h).pendingIn = [])
  deferred : (r.conn.streams h).pendingShutdown = true ↔
    (ac.streams h).pendingShutdown = true ∧ (r.conn.streams h).pendingIn ≠ []

theorem Passes.accepted (hp : Passes h taken gone ac ac') :
    upSent h ac'.trace = upSent h ac.trace ++ taken := by
  obtain ⟨s, hs, htaken, -⟩ := hp.trace
  rw [hs, upSent_append, htaken]

/-- A call that ends with a backlog. -/
theorem Passes.keeps (hp : Passes h taken taken ac ac') {r : SendResult} (hconn : r.conn = ac')
    (hsent : r.sentOut = taken.length) (hpending : (ac'.streams h).pendingIn ≠ [])
    (harmed : r.rc ≠ .error → r.write = some .arm) : SendKeeps h taken ac r := by
  obtain ⟨s, hs, -, hshut⟩ := hp.trace
  subst hconn
  refine ⟨hp.accepted, hsent, hp.backlog, fun _ => harmed, ⟨s, hs, ?_⟩, ?_⟩
  · exact ⟨fun hmem => absurd hmem hshut, fun hboth => absurd hboth.2 hpending⟩
  · rw [hp.shutdown]
    exact ⟨fun hd => ⟨hd, hpending⟩, And.left⟩

/-- The end of the call. -/
theorem sendEndW_keeps (hp : Passes h taken taken ac ac') (hu : Unpaused k h ac)
    (hup : (ac.streams h).upstream.isSome = true) :
    SendKeeps h taken ac (sendEndW k h taken.length ac') := by
  unfold sendEndW sendPendingTailW
  by_cases hpending : (ac'.streams h).pendingIn ≠ []
  · rw [if_pos hpending]
    have harm : Passes h [] [] ac' ac'.arm.2 := .of_same rfl rfl rfl rfl
    have hall := hp.trans harm
    rw [List.append_nil] at hall
    exact hall.keeps rfl rfl hpending fun _ => rfl
  · rw [if_neg hpending]
    have hnil : (ac'.streams h).pendingIn = [] := not_not.mp hpending
    -- the stream and the trace once the half-close is done or was not due
    have hdone : ∀ w : Connection, w.streams = (shutdownDeferred h ac').streams →
        w.trace = (shutdownDeferred h ac').trace → ∀ rc write,
        SendKeeps h taken ac ⟨rc, taken.length, write, w⟩ := by
      intro w hstreams htrace rc write
      obtain ⟨s, hs, htaken, hshut⟩ := hp.trace
      have hup' := hp.upstream.trans hup
      by_cases hdue : (ac'.streams h).pendingShutdown = true
      · have hboth : (ac'.streams h).pendingShutdown = true ∧
            (ac'.streams h).upstream.isSome = true := ⟨hdue, hup'⟩
        rw [shutdownDeferred, if_pos hboth] at hstreams htrace
        have hst : w.streams h = { ac'.streams h with pendingShutdown := false } := by
          rw [hstreams, Connection.log_streams, Connection.upd_self]
        have hall : w.trace = ac.trace ++ (s ++ [.upShutdown h]) := by
          rw [htrace, Connection.log_trace, ← List.append_assoc, ← hs]
          rfl
        refine ⟨?_, rfl, ?_, ?_, ⟨_, hall, ?_⟩, ?_⟩
        · show upSent h w.trace = _
          rw [hall, upSent_append, upSent_append, htaken]
          simp [upSent]
        · show _ = taken ++ (w.streams h).backlog
          rw [hst, hp.backlog]
          rfl
        · show (w.streams h).pendingIn ≠ [] → _
          rw [hst]
          exact fun hne => absurd hnil hne
        · show _ ↔ _ ∧ (w.streams h).pendingIn = []
          rw [hst, ← hp.shutdown]
          exact ⟨fun _ => ⟨hdue, hnil⟩, fun _ =>
            List.mem_append_right _ (List.mem_singleton_self _)⟩
        · show (w.streams h).pendingShutdown = true ↔ _ ∧ (w.streams h).pendingIn ≠ []
          rw [hst]
          exact ⟨fun hno => absurd hno Bool.false_ne_true, fun hno => absurd hnil hno.2⟩
      · have hboth : ¬((ac'.streams h).pendingShutdown = true ∧
            (ac'.streams h).upstream.isSome = true) := fun hno => hdue hno.1
        rw [shutdownDeferred, if_neg hboth] at hstreams htrace
        have hdue' : ¬(ac.streams h).pendingShutdown = true := hp.shutdown ▸ hdue
        refine ⟨?_, rfl, ?_, ?_, ⟨s, htrace.trans hs, ?_⟩, ?_⟩
        · show upSent h w.trace = _
          rw [htrace, hp.accepted]
        · show _ = taken ++ (w.streams h).backlog
          rw [hstreams, hp.backlog]
        · show (w.streams h).pendingIn ≠ [] → _
          rw [hstreams]
          exact fun hne => absurd hnil hne
        · exact ⟨fun hmem => absurd hmem hshut, fun hno => absurd hno.1 hdue'⟩
        · show (w.streams h).pendingShutdown = true ↔ _
          rw [hstreams]
          exact ⟨fun hyes => absurd hyes hdue, fun hno => absurd hno.1 hdue'⟩
    dsimp only
    by_cases harm : (shutdownDeferred h ac').arm.1 ≠ .ok
    · rw [if_pos harm]
      exact hdone (shutdownDeferred h ac').arm.2 rfl rfl .error (some .disarm)
    · rw [if_neg harm]
      have hend : (shutdownDeferred h ac').arm.2.remnant = ac'.remnant ∧
          (shutdownDeferred h ac').arm.2.authenticated = ac'.authenticated := by
        unfold shutdownDeferred
        split_ifs
        · exact ⟨rfl, rfl⟩
        · exact ⟨rfl, rfl⟩
      obtain ⟨hstreams, htrace⟩ := (hp.unpaused hu).resume _ hend.1 hend.2
      exact hdone _ hstreams htrace _ _

/-- The loop of the call, after bytes that were taken before. -/
theorem sendLoopW_keeps (fuel maxBytes : Nat) {start : Connection} (ac : Connection)
    (hp : Passes h taken taken start ac) (hu : Unpaused k h start)
    (hup : (start.streams h).upstream.isSome = true) (hwithin : (ac.streams h).SentWithin)
    (hfuel : (ac.streams h).backlog.length < fuel) (hmax : 0 < maxBytes)
    (hsize : maxBytes ≤ sendUnlimited) :
    ∃ more, SendKeeps h (taken ++ more) start (sendLoopW k h fuel maxBytes taken.length ac) ∧
      (maxBytes = sendUnlimited ∨ more.length ≤ maxBytes) := by
  induction fuel generalizing maxBytes ac taken with
  | zero => exact absurd hfuel (Nat.not_lt_zero _)
  | succ fuel ih =>
    have hstop : ∃ more, SendKeeps h (taken ++ more) start (sendEndW k h taken.length ac) ∧
        (maxBytes = sendUnlimited ∨ more.length ≤ maxBytes) := by
      refine ⟨[], ?_, .inr (Nat.zero_le _)⟩
      rw [List.append_nil]
      exact sendEndW_keeps hp hu hup
    unfold sendLoopW
    by_cases hnil : (ac.streams h).pendingIn = []
    · rw [if_pos hnil]
      exact hstop
    rw [if_neg hnil, if_neg hmax.ne']
    dsimp only
    by_cases hbatch : (batchLoop (ac.streams h).pendingIn maxBytes pendingWriteChainLimit).flatten =
      []
    · rw [if_pos hbatch]
      exact hstop
    rw [if_neg hbatch]
    have hlimit : maxBytes = sendUnlimited ∨
        (batchLoop (ac.streams h).pendingIn maxBytes pendingWriteChainLimit).flatten.length ≤
          maxBytes := by
      rcases hsize.eq_or_lt with heq | hlt
      · exact .inl heq
      · exact .inr (batchLoop_length _ _ _ hlt)
    obtain ⟨more, hlen, hle, hpass, hend⟩ := sendBatchW_passes (k := k) _ ac
      (batchLoop_le (ac.streams h).pendingIn maxBytes pendingWriteChainLimit) hbatch hwithin
      (hp.inputBlocked.trans hu.open_)
    have hall := hp.trans hpass
    have hspent : maxBytes = sendUnlimited ∨ more.length ≤ maxBytes :=
      hlimit.imp_right hle.trans
    generalize sendBatchW k h _ ac = w at hlen hpass hend hall
    obtain ⟨sent, res, ac'⟩ := w
    obtain rfl : more.length = sent := hlen
    have htotal : taken.length + more.length = (taken ++ more).length := List.length_append.symm
    rcases hend with ⟨hres, hmore⟩ | ⟨rc, write, hres, hpending, harmed⟩
    · obtain rfl : res = none := hres
      dsimp only at hpass hall ⊢
      rw [htotal]
      split_ifs with hunl hstop' hstop'
      · exact ⟨more, sendEndW_keeps hall hu hup, hspent⟩
      · have hback := congrArg List.length hpass.backlog
        rw [List.length_append] at hback
        have hpos := List.length_pos_iff.mpr hmore
        obtain ⟨rest, hkeeps, -⟩ :=
          ih maxBytes ac' hall (hpass.within hwithin) (by omega) hmax hsize
        exact ⟨more ++ rest, by rwa [List.append_assoc] at hkeeps, .inl hunl⟩
      · exact ⟨more, sendEndW_keeps hall hu hup, hspent⟩
      · have hback := congrArg List.length hpass.backlog
        rw [List.length_append] at hback
        have hpos := List.length_pos_iff.mpr hmore
        have hleft : maxBytes - more.length ≠ 0 := (not_or.mp hstop').2
        have hbudget : more.length ≤ maxBytes := hspent.resolve_left hunl
        obtain ⟨rest, hkeeps, hrest⟩ := ih (maxBytes - more.length) ac' hall (hpass.within hwithin)
          (by omega) (by omega) (by omega)
        refine ⟨more ++ rest, by rwa [List.append_assoc] at hkeeps, .inr ?_⟩
        have hrest' : rest.length ≤ maxBytes - more.length := by
          rcases hrest with heq | hle'
          · omega
          · exact hle'
        rw [List.length_append]
        omega
    · obtain rfl : res = some (rc, write) := hres
      dsimp only at hpass hall hpending ⊢
      exact ⟨more, hall.keeps rfl htotal hpending harmed, hspent⟩

end Passing

section Resume

variable {ac : Connection} {conf : Conf} {h : Handle}

private theorem enableClientRead_quiet (ac : Connection) :
    (enableClientRead ac).2.streams = ac.streams ∧
    (enableClientRead ac).2.trace = ac.trace := by
  unfold enableClientRead
  dsimp only
  split_ifs
  · exact ⟨rfl, rfl⟩
  · exact ⟨rfl, rfl⟩
  · exact ⟨rfl, rfl⟩

private theorem inputResume_quiet (process : Bytes → Connection → Rc × Connection) (ac : Connection)
    (hp : ac.remnant ≠ [] → ∀ w : Connection, w.authenticated = ac.authenticated →
      (process ac.remnant w).2.streams = w.streams ∧ (process ac.remnant w).2.trace = w.trace) :
    (inputResume process ac).2.streams = ac.streams ∧
      (inputResume process ac).2.trace = ac.trace := by
  unfold inputResume
  split_ifs
  · exact ⟨rfl, rfl⟩
  · exact ⟨rfl, rfl⟩
  · exact ⟨rfl, rfl⟩
  · dsimp only
    by_cases hrem : (setInputPaused false ac).remnant ≠ []
    · rw [if_pos hrem]
      obtain ⟨hstreams, htrace⟩ := hp hrem (setRemnant [] (setInputPaused false ac)) rfl
      obtain ⟨hs, ht⟩ := enableClientRead_quiet
        (process ac.remnant (setRemnant [] (setInputPaused false ac))).2
      split_ifs
      · exact ⟨hstreams, htrace⟩
      · exact ⟨hstreams, htrace⟩
      · exact ⟨hs.trans hstreams, ht.trans htrace⟩
    · rw [if_neg hrem]
      exact enableClientRead_quiet (setInputPaused false ac)

private theorem outerCallbacks_unpaused (hopen : (ac.streams h).inputBlocked = false)
    (hheld : HoldsNoFrame ac) : Unpaused (outerCallbacks conf) h ac where
  open_ := hopen
  resume w hr ha := by
    refine inputResume_quiet _ w fun hne v hv => ?_
    rcases hheld with hnil | ⟨hauth, hagain⟩
    · exact absurd (hr.trans hnil) hne
    · rw [hr] at hne ⊢
      rw [processClientBytes, if_pos (hv.trans (ha.trans hauth)), if_neg hne, processFrames, hagain]
      exact ⟨rfl, rfl⟩

private theorem innerCallbacks_unpaused (hopen : (ac.streams h).inputBlocked = false)
    (hnil : ac.remnant = []) : Unpaused (innerCallbacks conf) h ac where
  open_ := hopen
  resume w hr _ := inputResume_quiet _ w fun hne => absurd (hr.trans hnil) hne

end Resume

section Within

variable {v v' : View}

/-- No buffer of any backlog is sent beyond its end. -/
def View.SentWithin (v : View) : Prop :=
  ∀ h, ∀ p ∈ (v.streams h).pendingIn, p.sent ≤ p.data.length

theorem View.Idle.sentWithin (hb : v.Idle v') (hi : v.SentWithin) : v'.SentWithin := by
  intro h p hp
  rcases hb.holds h with hsame | ⟨hnil, -⟩
  · exact hi h p (hsame ▸ hp)
  · rw [hnil] at hp
    exact absurd hp List.not_mem_nil

theorem View.SentWithin.upd {g : Handle} {f : StreamView → StreamView} (hi : v.SentWithin)
    (hs : v'.streams = (v.upd g f).streams)
    (hf : ∀ p ∈ (f (v.streams g)).pendingIn, p.sent ≤ p.data.length) : v'.SentWithin := by
  intro h
  rw [hs, View.upd_streams]
  split_ifs with heq
  · exact hf
  · exact hi h

theorem SendAct.sentWithin (ha : SendAct v v') (hi : v.SentWithin) : v'.SentWithin := by
  cases ha with
  | chain => exact hi
  | account g p ps n hp hn =>
    have hhead := hi g p (hp ▸ List.mem_cons_self)
    have hlen : p.rest.length = p.data.length - p.sent := List.length_drop
    refine hi.upd (g := g) (f := fun st => { st with pendingIn := accountHead n st.pendingIn })
      rfl fun q hq => ?_
    have hmem : q ∈ accountHead n (v.streams g).pendingIn := hq
    rw [hp] at hmem
    rcases List.mem_cons.mp hmem with rfl | htail
    · show p.sent + n ≤ p.data.length
      omega
    · exact hi g q (hp ▸ List.mem_cons_of_mem _ htail)
  | pop g =>
    exact hi.upd (g := g) (f := fun st => { st with pendingIn := st.pendingIn.tail }) rfl
      fun q hq => hi g q (List.mem_of_mem_tail hq)
  | shutdown g =>
    exact hi.upd (g := g) (f := fun st => { st with pendingShutdown := false }) rfl (hi g)

theorem DispatchAct.sentWithin (ha : DispatchAct v v') (hi : v.SentWithin) : v'.SentWithin := by
  cases ha with
  | psh | core | opening | table | direct => exact hi
  | create id =>
    refine hi.upd (g := v.nstreams) (f := fun _ => Stream.view { id := id }) rfl fun q hq => ?_
    exact absurd hq List.not_mem_nil
  | fin g =>
    exact hi.upd (g := g) (f := fun st => { st with closedByProtocol := true, inClosed := true })
      rfl (hi g)
  | firstPshAcc g acc =>
    exact hi.upd (g := g) (f := fun st => { st with firstPshAcc := acc }) rfl (hi g)
  | firstPsh g => exact hi.upd (g := g) (f := fun st => { st with firstPshSeen := true }) rfl (hi g)
  | openUot g =>
    exact hi.upd (g := g) (f := fun st => { st with upstreamType := .uot, state := .connected })
      rfl (hi g)
  | halfClose g =>
    exact hi.upd (g := g) (f := fun st => { st with state := .halfClosed }) rfl (hi g)
  | deferClose g =>
    exact hi.upd (g := g) (f := fun st => { st with state := .halfClosed, pendingShutdown := true })
      rfl (hi g)
  | append g bs =>
    refine hi.upd (g := g) (f := fun st => { st with
      pendingIn := st.pendingIn ++ [{ data := bs }] }) rfl fun q hq => ?_
    rcases List.mem_append.mp hq with hold | hnew
    · exact hi g q hold
    · rw [List.mem_singleton.mp hnew]
      exact Nat.zero_le _

theorem SessionAct.sentWithin (ha : SessionAct v v') (hi : v.SentWithin) : v'.SentWithin := by
  cases ha with
  | act ha => exact ha.idle.sentWithin hi
  | close ha => exact ha.idle.sentWithin hi
  | send ha => exact ha.sentWithin hi
  | dispatch ha => exact ha.sentWithin hi
  | input hm => exact fun h => hm.streams ▸ hi h
  | inputLog _ _ hm => exact fun h => hm.streams ▸ hi h

/-- In every reachable state. -/
theorem run_sentWithin (conf : Conf) (es : List (Event × Env)) (h : Handle) :
    ((run conf es).streams h).SentWithin :=
  run_invariant (fun _ ha hi => ha.sentWithin hi) conf (fun _ => nofun) es h

end Within

/-- A call on a stream that can send. -/
theorem Unpaused.sendPendingW_keeps {k : Callbacks} {h : Handle} {ac : Connection}
    (hu : Unpaused k h ac) (maxBytes : Nat) (hwithin : (ac.streams h).SentWithin)
    (hcan : (ac.streams h).upstream.isSome = true ∧ isOpenState (ac.streams h) = true)
    (hmax : 0 < maxBytes) (hsize : maxBytes ≤ sendUnlimited) :
    ∃ taken, SendKeeps h taken ac (sendPendingW k h maxBytes ac) ∧
      (maxBytes = sendUnlimited ∨ taken.length ≤ maxBytes) := by
  have hguard :
      ¬((ac.streams h).upstream.isNone = true ∨ (!isOpenState (ac.streams h)) = true) := by
    rintro (hno | hno)
    · rw [Option.isNone_iff_eq_none] at hno
      rw [hno] at hcan
      exact absurd hcan.1 Bool.false_ne_true
    · rw [hcan.2] at hno
      exact absurd hno Bool.false_ne_true
  unfold sendPendingW
  rw [if_neg hguard]
  have hstart : Passes h [] [] ac ac := .refl h ac
  exact sendLoopW_keeps _ maxBytes ac hstart hu hcan.1 hwithin (by omega) hmax hsize

/-- After every run in which no input is paused. -/
theorem run_sendPendingW_keeps (conf : Conf) (es : List (Event × Env)) (env : Env) (h : Handle)
    (maxBytes : Nat) (hkept : NotDropped (run conf es).trace)
    (hidle : (run conf es).inputPaused = false)
    (hopen : ((run conf es).streams h).inputBlocked = false)
    (hcan : ((run conf es).streams h).upstream.isSome = true ∧
      isOpenState ((run conf es).streams h) = true)
    (hmax : 0 < maxBytes) (hsize : maxBytes ≤ sendUnlimited) :
    ∃ taken, SendKeeps h taken (setEnv env (run conf es))
        (sendPendingW (outerCallbacks conf) h maxBytes (setEnv env (run conf es))) ∧
      (maxBytes = sendUnlimited ∨ taken.length ≤ maxBytes) := by
  have hheld : HoldsNoFrame (run conf es) := (run_flow conf es hkept).holdsNoFrame hidle
  have hu : Unpaused (outerCallbacks conf) h (setEnv env (run conf es)) :=
    outerCallbacks_unpaused hopen hheld
  exact hu.sendPendingW_keeps maxBytes (run_sentWithin conf es h) hcan hmax hsize

/-- A stream whose upstream socket took nothing yet of two bytes. -/
def sendSample : Connection :=
  run sampleConf [sampleOpen sampleV2 (sampleTarget ++ [7, 8]) { connect := [.ok] }]

end NgxAnytls
