import NgxAnytls.FrameEffects

/-! What an upstream socket takes is what the backlog gives it, byte by byte, as long as no send
starts while the bytes of an earlier one are not accounted. -/

namespace NgxAnytls

open Relation

/-- The bytes of the stream's PSH frames that were handled. -/
def pshBytes (h : Handle) (t : List Obs) : Bytes :=
  t.flatMap fun
    | .psh g bs => if g = h then bs else []
    | _ => []

/-- The bytes given to the stream's upstream: sent at once or put into the backlog. -/
def queuedBytes (h : Handle) (t : List Obs) : Bytes :=
  t.flatMap fun
    | .upDirect g bs | .upAppend g bs => if g = h then bs else []
    | _ => []

/-- The bytes the stream's upstream socket took. -/
def upSent (h : Handle) (t : List Obs) : Bytes :=
  t.flatMap fun
    | .upDirect g bs | .upChain g bs => if g = h then bs else []
    | _ => []

/-- The payload of the stream: its bytes behind the address. -/
def payloadBytes (h : Handle) (t : List Obs) : Bytes :=
  match parseSocksaddr (pshBytes h t) true with
  | .ok _ n => (pshBytes h t).drop n
  | _ => []

/-- No bytes of the backlog are sent while bytes of an earlier send are not accounted. -/
def NoOverlap (h : Handle) (t : List Obs) : Prop :=
  ∀ s bs, s ++ [.upChain h bs] <+: t → bs ≠ [] → unacc h s = 0

/-- No PSH of the stream is handled once input was given up. -/
def PshKept (h : Handle) (t : List Obs) : Prop :=
  ∀ s data, s ++ [.psh h data] <+: t → NotDropped s

theorem NoOverlap.of_le {h : Handle} {s t : List Obs} (hn : NoOverlap h t) (hle : s <+: t) :
    NoOverlap h s := fun _ bs hs => hn _ bs (hs.trans hle)

theorem PshKept.of_le {h : Handle} {s t : List Obs} (hn : PshKept h t) (hle : s <+: t) :
    PshKept h s := fun _ data hs => hn _ data (hs.trans hle)

@[simp] theorem pshBytes_append (h : Handle) (s t : List Obs) :
    pshBytes h (s ++ t) = pshBytes h s ++ pshBytes h t := by simp [pshBytes]

@[simp] theorem queuedBytes_append (h : Handle) (s t : List Obs) :
    queuedBytes h (s ++ t) = queuedBytes h s ++ queuedBytes h t := by simp [queuedBytes]

@[simp] theorem upSent_append (h : Handle) (s t : List Obs) :
    upSent h (s ++ t) = upSent h s ++ upSent h t := by simp [upSent]

/-- Records that say nothing of payload. -/
structure NoUplink (s : List Obs) : Prop where
  psh : ∀ h, pshBytes h s = []
  queued : ∀ h, queuedBytes h s = []
  sent : ∀ h, upSent h s = []
  unacc : ∀ h n, s.foldl (unaccStep h) n = n

theorem NoUplink.none : NoUplink [] := ⟨fun _ => rfl, fun _ => rfl, fun _ => rfl, fun _ _ => rfl⟩

/-- A record that is neither of a PSH nor of a send. -/
theorem NoUplink.one {o : Obs} (hpsh : ∀ h, pshBytes h [o] = [])
    (hqueued : ∀ h, queuedBytes h [o] = []) (hsent : ∀ h, upSent h [o] = [])
    (hunacc : ∀ h n, unaccStep h n o = n) : NoUplink [o] := ⟨hpsh, hqueued, hsent, hunacc⟩

theorem NoUplink.append {s t : List Obs} (hs : NoUplink s) (ht : NoUplink t) :
    NoUplink (s ++ t) where
  psh h := by rw [pshBytes_append, hs.psh, ht.psh]; rfl
  queued h := by rw [queuedBytes_append, hs.queued, ht.queued]; rfl
  sent h := by rw [upSent_append, hs.sent, ht.sent]; rfl
  unacc h n := by rw [List.foldl_append, hs.unacc, ht.unacc]

theorem Obs.IsNote.noUplink {o : Obs} (ho : o.IsNote) : NoUplink [o] := by
  cases o <;>
    first | exact ho.elim | exact .one (fun _ => rfl) (fun _ => rfl) (fun _ => rfl) fun _ _ => rfl

theorem Obs.IsInput.noUplink {o : Obs} (ho : o.IsInput) : NoUplink [o] := by
  cases o <;>
    first | exact ho.elim | exact .one (fun _ => rfl) (fun _ => rfl) (fun _ => rfl) fun _ _ => rfl

theorem NoUplink.linked (fs : List OutFrame) : NoUplink (fs.map .linked) := by
  induction fs with
  | nil => exact .none
  | cons f fs ih =>
    have hone : NoUplink [.linked f] :=
      .one (fun _ => rfl) (fun _ => rfl) (fun _ => rfl) fun _ _ => rfl
    exact hone.append ih

/-- A closed stream is marked, and a marked one takes no payload. -/
def StreamView.Marks (st : StreamView) : Prop :=
  (st.state = .closed → st.closedByProtocol) ∧ (st.closedByProtocol → st.inClosed)

def View.Marks (v : View) : Prop := ∀ h, (v.streams h).Marks

/-- A stream whose payload is parsed as before. -/
structure StreamView.Beside (st st' : StreamView) : Prop where
  seen : st'.firstPshSeen = st.firstPshSeen
  acc : st'.firstPshAcc = st.firstPshAcc
  kind : st'.upstreamType = st.upstreamType
  marked : st.closedByProtocol → st'.closedByProtocol
  marks : st.Marks → st'.Marks

/-- The backlog stays, or is thrown away with the stream. -/
def StreamView.Holds (st st' : StreamView) : Prop :=
  st'.pendingIn = st.pendingIn ∨ (st'.pendingIn = [] ∧ st'.closedByProtocol)

theorem StreamView.Beside.refl (st : StreamView) : st.Beside st :=
  ⟨rfl, rfl, rfl, fun hm => hm, fun hm => hm⟩

theorem StreamView.Beside.trans {a b c : StreamView} (hab : a.Beside b) (hbc : b.Beside c) :
    a.Beside c where
  seen := hbc.seen.trans hab.seen
  acc := hbc.acc.trans hab.acc
  kind := hbc.kind.trans hab.kind
  marked h := hbc.marked (hab.marked h)
  marks h := hbc.marks (hab.marks h)

theorem StreamView.Holds.refl (st : StreamView) : st.Holds st := .inl rfl

/-- Effects that handle no payload. -/
structure View.Idle (v v' : View) : Prop where
  trace : ∃ s, v'.trace = v.trace ++ s ∧ NoUplink s
  nstreams : v'.nstreams = v.nstreams
  streams : ∀ h, (v.streams h).Beside (v'.streams h)
  holds : ∀ h, (v.streams h).Holds (v'.streams h)

section Effects

variable {v v' : View}

theorem View.Idle.records (s : List Obs) (hs : NoUplink s) (ht : v'.trace = v.trace ++ s)
    (hn : v'.nstreams = v.nstreams) (hstreams : v'.streams = v.streams) : v.Idle v' :=
  ⟨⟨s, ht, hs⟩, hn, fun _ => hstreams ▸ .refl _, fun _ => hstreams ▸ .refl _⟩

/-- An effect on one stream. -/
theorem View.Idle.stream {g : Handle} {f : StreamView → StreamView} {w : View} (s : List Obs)
    (hs : NoUplink s) (hv : v' = { w.upd g f with trace := v.trace ++ s })
    (hn : w.nstreams = v.nstreams) (hw : w.streams = v.streams)
    (hbeside : (v.streams g).Beside (f (v.streams g)))
    (hholds : (v.streams g).Holds (f (v.streams g))) : v.Idle v' := by
  subst hv
  refine ⟨⟨s, rfl, hs⟩, hn, fun h => ?_, fun h => ?_⟩
  · show (v.streams h).Beside ((w.upd g f).streams h)
    rw [View.upd_streams, hw]
    exact View.rel_ite .refl hbeside h
  · show (v.streams h).Holds ((w.upd g f).streams h)
    rw [View.upd_streams, hw]
    exact View.rel_ite .refl hholds h

theorem View.Idle.enqueue (owner : Option Handle) (f : OutFrame) (route : Route) (o : Obs)
    (ho : NoUplink [o]) : v.Idle ((v.enqueue owner f route).log o) where
  trace := ⟨[o], by rw [View.log_trace, View.enqueue_trace], ho⟩
  nstreams := View.enqueue_nstreams ..
  streams h := View.rel_enqueue (r := StreamView.Beside) .refl (fun _ _ _ => .trans)
    (fun _ _ _ _ => ⟨rfl, rfl, rfl, id, id⟩) (fun _ _ => ⟨rfl, rfl, rfl, id, id⟩) h
  holds h := by
    have hsame : ((v.enqueue owner f route).streams h).pendingIn = (v.streams h).pendingIn :=
      View.rel_enqueue (r := fun st st' => st'.pendingIn = st.pendingIn)
        (fun _ => rfl) (fun _ _ _ hab hbc => hbc.trans hab) (fun _ _ _ _ => rfl) (fun _ _ => rfl) h
    exact .inl hsame

theorem View.Idle.retire (f : OutFrame) (fs : List OutFrame) : v.Idle (v.retire f fs) where
  trace := ⟨[], by rw [View.retire_trace, List.append_nil], .none⟩
  nstreams := View.retire_nstreams ..
  streams h := View.rel_retire (r := StreamView.Beside) .refl
    (fun _ _ _ _ => ⟨rfl, rfl, rfl, id, id⟩) h
  holds h := View.rel_retire (r := StreamView.Holds) .refl (fun _ _ _ _ => .inl rfl) h

theorem Act.idle (ha : Act v v') : v.Idle v' := by
  have hone : ∀ o : Obs, (∀ h, pshBytes h [o] = []) → (∀ h, queuedBytes h [o] = []) →
      (∀ h, upSent h [o] = []) → (∀ h n, unaccStep h n o = n) → NoUplink [o] :=
    fun _ hp hq hu hn => ⟨hp, hq, hu, hn⟩
  have hsame : ∀ {st : StreamView → StreamView} {g : Handle} {w : View},
      v' = w.upd g st → w.trace = v.trace → w.nstreams = v.nstreams → w.streams = v.streams →
      (v.streams g).Beside (st (v.streams g)) → (v.streams g).Holds (st (v.streams g)) →
      v.Idle v' := fun hv ht hn hw hb hh => by
    refine .stream [] .none ?_ hn hw hb hh
    rw [hv, List.append_nil, ← ht]
    rfl
  cases ha with
  | note o ho => exact .records [o] ho.noUplink rfl rfl rfl
  | state h new =>
    exact .records _ (hone (.setState h _ new) (fun _ => rfl) (fun _ => rfl) (fun _ => rfl)
      fun _ _ => rfl) rfl rfl rfl
  | clamped =>
    exact .records _ (hone .clamped (fun _ => rfl) (fun _ => rfl) (fun _ => rfl) fun _ _ => rfl)
      rfl rfl rfl
  | queue owner f id body route =>
    exact .enqueue owner f route _
      (hone _ (fun _ => rfl) (fun _ => rfl) (fun _ => rfl) fun _ _ => rfl)
  | link => exact .records _ (.linked _) rfl rfl rfl
  | take =>
    exact .records _ (hone (.clientSend _) (fun _ => rfl) (fun _ => rfl) (fun _ => rfl)
      fun _ _ => rfl) rfl rfl rfl
  | retire f fs => exact .retire f fs
  | unqueueClosing | untable | pause | unblock =>
    exact .records [] .none (List.append_nil _).symm rfl rfl
  | closing h hmark _ _ _ queue =>
    exact .stream (w := { v with closingStreams := queue }) [.streamClosing h]
      (hone _ (fun _ => rfl) (fun _ => rfl) (fun _ => rfl) fun _ _ => rfl) rfl rfl rfl
      ⟨rfl, rfl, rfl, id, fun hm => ⟨nofun, hm.2⟩⟩ (.inl rfl)
  | closed h hmark =>
    exact .stream (w := v) [.streamClosed h]
      (hone _ (fun _ => rfl) (fun _ => rfl) (fun _ => rfl) fun _ _ => rfl) rfl rfl rfl
      ⟨rfl, rfl, rfl, id, fun hm => ⟨fun _ => hmark, hm.2⟩⟩ (.inl rfl)
  | discard h hmark =>
    exact .stream (w := v) [.upDiscard h]
      (hone _ (fun _ => rfl) (fun _ => rfl) (fun _ => rfl) fun _ _ => rfl) rfl rfl rfl
      ⟨rfl, rfl, rfl, id, id⟩ (.inr ⟨rfl, hmark⟩)
  | openUpstream h =>
    exact .stream (w := v) [.upConnect h]
      (hone _ (fun _ => rfl) (fun _ => rfl) (fun _ => rfl) fun _ _ => rfl) rfl rfl rfl
      ⟨rfl, rfl, rfl, id, fun hm => ⟨nofun, hm.2⟩⟩ (.inl rfl)
  | markClosed h =>
    exact hsame (w := v) rfl rfl rfl rfl
      ⟨rfl, rfl, rfl, fun _ => rfl, fun _ => ⟨fun _ => rfl, fun _ => rfl⟩⟩
      (.inl rfl)
  | schedule h f fs =>
    exact hsame (w := { v with dataOut := v.dataOut ++ [f] }) rfl rfl rfl rfl
      ⟨rfl, rfl, rfl, id, id⟩ (.inl rfl)
  | dropOut h =>
    exact hsame (w := { v with
      frames := v.frames - (v.streams h).out.length
      pendingOutput := (v.streams h).out.foldl (fun n (f : OutFrame) => n - f.length)
        v.pendingOutput }) (g := h) rfl rfl rfl rfl ⟨rfl, rfl, rfl, id, id⟩ (.inl rfl)
  | synack h | dropUpstream h | lookup h | endLookup h =>
    exact hsame (w := v) rfl rfl rfl rfl ⟨rfl, rfl, rfl, id, id⟩ (.inl rfl)
  | connecting h | connected h =>
    exact hsame (w := v) rfl rfl rfl rfl ⟨rfl, rfl, rfl, id, fun hm => ⟨nofun, hm.2⟩⟩ (.inl rfl)

theorem EndAct.idle (ha : EndAct v v') : v.Idle v' := by
  cases ha with
  | finalizing => exact .records [] .none (List.append_nil _).symm rfl rfl
  | finalized rc =>
    exact .records [.finalize rc] (.one (fun _ => rfl) (fun _ => rfl) (fun _ => rfl) fun _ _ => rfl)
      rfl rfl rfl

theorem View.SameMux.idle (h : v.SameMux v') (s : List Obs) (hs : NoUplink s)
    (ht : v'.trace = v.trace ++ s) : v.Idle v' := .records s hs ht h.nstreams h.streams

/-- What the socket took and what the backlog holds, less what of it the socket took already, is
what was queued; or the stream is over. -/
structure View.Uplink (v : View) (h : Handle) : Prop where
  fresh : v.nstreams ≤ h →
    queuedBytes h v.trace = [] ∧ upSent h v.trace = [] ∧ unacc h v.trace = 0
  flow : ((v.streams h).pendingIn = [] ∧ (v.streams h).closedByProtocol ∧
      upSent h v.trace <+: queuedBytes h v.trace) ∨
    (unacc h v.trace ≤ (v.streams h).backlog.length ∧
      upSent h v.trace ++ (v.streams h).backlog.drop (unacc h v.trace) = queuedBytes h v.trace)

/-- An effect that handles no payload. -/
theorem View.Uplink.next {h : Handle} (hi : v.Uplink h) (s : List Obs) (hs : NoUplink s)
    (ht : v'.trace = v.trace ++ s) (hn : v'.nstreams = v.nstreams)
    (hmarked : (v.streams h).closedByProtocol → (v'.streams h).closedByProtocol)
    (hholds : (v.streams h).Holds (v'.streams h)) : v'.Uplink h := by
  have hqueued : queuedBytes h v'.trace = queuedBytes h v.trace := by
    rw [ht, queuedBytes_append, hs.queued, List.append_nil]
  have hsent : upSent h v'.trace = upSent h v.trace := by
    rw [ht, upSent_append, hs.sent, List.append_nil]
  have hunacc : unacc h v'.trace = unacc h v.trace := by
    rw [ht, unacc, List.foldl_append, hs.unacc]
    rfl
  refine ⟨fun hlt => ?_, ?_⟩
  · rw [hqueued, hsent, hunacc]
    exact hi.fresh (hn ▸ hlt)
  · rw [hqueued, hsent, hunacc]
    rcases hholds with heq | ⟨hnil, hclosed⟩
    · rcases hi.flow with ⟨hp, hc, hpre⟩ | hflow
      · exact .inl ⟨heq.trans hp, hmarked hc, hpre⟩
      · refine .inr ?_
        rwa [show (v'.streams h).backlog = (v.streams h).backlog from
          congrArg (List.flatMap Pending.rest) heq]
    · refine .inl ⟨hnil, hclosed, ?_⟩
      rcases hi.flow with ⟨-, -, hpre⟩ | ⟨-, hflow⟩
      · exact hpre
      · exact hflow ▸ List.prefix_append _ _

theorem View.Uplink.idle {h : Handle} (hi : v.Uplink h) (hidle : v.Idle v') : v'.Uplink h := by
  obtain ⟨s, ht, hs⟩ := hidle.trace
  exact hi.next s hs ht hidle.nstreams (hidle.streams h).marked (hidle.holds h)

/-- A record that is of no send of the stream. -/
theorem View.Uplink.other {h : Handle} (hi : v.Uplink h) {o : Obs}
    (hqueued : queuedBytes h [o] = []) (hsent : upSent h [o] = [])
    (hunacc : ∀ n, unaccStep h n o = n) (ht : v'.trace = v.trace ++ [o])
    (hn : v'.nstreams = v.nstreams) (hstreams : v'.streams h = v.streams h) : v'.Uplink h := by
  have hunacc' : unacc h v'.trace = unacc h v.trace := by rw [ht, unacc_append, hunacc]
  constructor
  · rw [hunacc', ht, queuedBytes_append, upSent_append, hqueued, hsent, List.append_nil,
      List.append_nil, hn]
    exact hi.fresh
  · rw [hunacc', hstreams, ht, queuedBytes_append, upSent_append, hqueued, hsent, List.append_nil,
      List.append_nil]
    exact hi.flow

/-- What an account leaves of the backlog. -/
theorem backlog_account (n : Nat) (p : Pending) (ps : List Pending) (hn : n ≤ p.rest.length) :
    (accountHead n (p :: ps)).flatMap Pending.rest = ((p :: ps).flatMap Pending.rest).drop n := by
  rw [accountHead, List.flatMap_cons, List.flatMap_cons, List.drop_append_of_le_length hn]
  congr 1
  rw [Pending.rest, Pending.rest, List.drop_drop]

theorem SendAct.uplink {h : Handle} (ha : SendAct v v') (hn : NoOverlap h v'.trace)
    (hi : v.Uplink h) : v'.Uplink h := by
  cases ha with
  | chain g bs hbs hp =>
    by_cases hg : g = h
    · subst hg
      have hsent : upSent g (v.log (.upChain g bs)).trace = upSent g v.trace ++ bs := by
        simp [upSent]
      have hqueued : queuedBytes g (v.log (.upChain g bs)).trace = queuedBytes g v.trace := by
        simp [queuedBytes]
      have hunacc : unacc g (v.log (.upChain g bs)).trace = unacc g v.trace + bs.length := by
        simp [unaccStep]
      have hlive : unacc g v.trace ≤ (v.streams g).backlog.length ∧
          upSent g v.trace ++ (v.streams g).backlog.drop (unacc g v.trace) =
            queuedBytes g v.trace :=
        hi.flow.resolve_left fun hend => hp hend.1
      constructor
      · intro hlt
        obtain ⟨hq, hs, hu⟩ := hi.fresh hlt
        have hnil : bs = [] := by
          have hlen := congrArg List.length hlive.2
          rw [hq, hs, List.nil_append, List.length_drop, List.length_nil] at hlen
          by_contra hne
          have hzero := hn v.trace bs (List.prefix_refl _) hne
          rw [hzero, Nat.sub_zero, List.length_eq_zero_iff] at hlen
          rw [hlen] at hbs
          exact hne (List.prefix_nil.mp hbs)
        rw [hqueued, hsent, hunacc, hq, hs, hu, hnil]
        exact ⟨rfl, rfl, rfl⟩
      · refine .inr ?_
        rw [hsent, hqueued, hunacc]
        show unacc g v.trace + bs.length ≤ (v.streams g).backlog.length ∧
          upSent g v.trace ++ bs ++ (v.streams g).backlog.drop (unacc g v.trace + bs.length) = _
        by_cases hnil : bs = []
        · rw [hnil, List.append_nil]
          exact hlive
        · have hzero := hn v.trace bs (List.prefix_refl _) hnil
          rw [hzero, List.drop_zero] at hlive
          rw [hzero, Nat.zero_add]
          obtain ⟨rest, hrest⟩ := hbs
          refine ⟨hrest ▸ by simp, ?_⟩
          rw [← hlive.2, ← hrest, List.drop_left, List.append_assoc]
    · exact hi.other (by simp [queuedBytes]) (by simp [upSent, hg]) (by simp [unaccStep, hg]) rfl
        rfl rfl
  | account g p ps n hp hle hun =>
    by_cases hg : g = h
    · subst hg
      have hlive := hi.flow.resolve_left fun hend => by simp [hp] at hend
      have hback : (accountHead n (v.streams g).pendingIn).flatMap Pending.rest =
          (v.streams g).backlog.drop n := by
        rw [StreamView.backlog, hp]
        exact backlog_account n p ps hle
      have hsent : upSent g (v.trace ++ [.upAccount g n]) = upSent g v.trace := by simp [upSent]
      have hqueued : queuedBytes g (v.trace ++ [.upAccount g n]) = queuedBytes g v.trace := by
        simp [queuedBytes]
      refine ⟨fun hlt => ?_, .inr ?_⟩
      · obtain ⟨hq, hs, hu⟩ := hi.fresh hlt
        show queuedBytes g (v.trace ++ [.upAccount g n]) = [] ∧
          upSent g (v.trace ++ [.upAccount g n]) = [] ∧ unacc g (v.trace ++ [.upAccount g n]) = 0
        rw [hsent, hqueued, unacc_append, hu]
        exact ⟨hq, hs, by simp [unaccStep]⟩
      · simp only [View.log_trace, View.upd_trace, View.log_streams, View.upd_streams, if_true,
          unacc_append, unaccStep, StreamView.backlog, hsent, hqueued]
        rw [hback, List.length_drop, List.drop_drop, Nat.add_sub_cancel' hun]
        exact ⟨Nat.sub_le_sub_right hlive.1 n, hlive.2⟩
    · refine hi.other (o := .upAccount g n) (by simp [queuedBytes]) (by simp [upSent])
        (by simp [unaccStep, hg]) rfl rfl ?_
      simp [Ne.symm hg]
  | pop g p ps hp hsent =>
    have hrest : p.rest = [] := by rw [Pending.rest, hsent, List.drop_length]
    have hback : ∀ g', ((v.upd g fun st => { st with pendingIn := st.pendingIn.tail }).streams
        g').backlog = (v.streams g').backlog := fun g' => by
      by_cases hg : g' = g
      · subst hg
        simp [StreamView.backlog, hp, hrest]
      · simp [hg]
    refine ⟨hi.fresh, ?_⟩
    rcases hi.flow with hend | hflow
    · refine .inl ?_
      by_cases hg : h = g
      · subst hg
        simp [hp] at hend
      · simpa [hg] using hend
    · refine .inr ?_
      rw [hback]
      exact hflow
  | shutdown g =>
    refine hi.next [.upShutdown g]
      (.one (fun _ => rfl) (fun _ => rfl) (fun _ => rfl) fun _ _ => rfl)
      rfl rfl (fun hc => ?_) (.inl ?_)
    · simp only [View.log_streams, View.upd_streams]
      split_ifs with hg
      · exact hg ▸ hc
      · exact hc
    · simp only [View.log_streams, View.upd_streams]
      split_ifs with hg
      · exact hg ▸ rfl
      · rfl

theorem View.Uplink.direct {h : Handle} (hi : v.Uplink h) (hm : v.Marks) (g : Handle) (bs : Bytes)
    (hknown : g < v.nstreams) (hp : (v.streams g).pendingIn = [])
    (hin : (v.streams g).inClosed = false) : (v.log (.upDirect g bs)).Uplink h := by
  by_cases hg : g = h
  · subst hg
    have hlive := hi.flow.resolve_left fun hend => by simp [(hm g).2 hend.2.1] at hin
    have hback : (v.streams g).backlog = [] := by rw [StreamView.backlog, hp]; rfl
    rw [hback, List.length_nil, List.drop_nil, List.append_nil] at hlive
    refine ⟨fun hlt => absurd hknown (not_lt.mpr hlt), .inr ?_⟩
    have hsent : upSent g (v.trace ++ [.upDirect g bs]) = upSent g v.trace ++ bs := by
      simp [upSent]
    have hqueued : queuedBytes g (v.trace ++ [.upDirect g bs]) = queuedBytes g v.trace ++ bs := by
      simp [queuedBytes]
    rw [View.log_streams, View.log_trace, hback, hsent, hqueued, unacc_append, ← hlive.2]
    exact ⟨hlive.1, by rw [List.drop_nil, List.append_nil]⟩
  · exact hi.other (by simp [queuedBytes, hg]) (by simp [upSent, hg]) (fun _ => rfl) rfl rfl rfl

theorem View.Uplink.append {h : Handle} (hi : v.Uplink h) (hm : v.Marks) (g : Handle) (bs : Bytes)
    (hknown : g < v.nstreams) (hin : (v.streams g).inClosed = false) :
    (v.appended g bs).Uplink h := by
  by_cases hg : g = h
  · subst hg
    have hlive := hi.flow.resolve_left fun hend => by simp [(hm g).2 hend.2.1] at hin
    refine ⟨fun hlt => absurd hknown (not_lt.mpr hlt), .inr ?_⟩
    have hsent : upSent g (v.trace ++ [.upAppend g bs]) = upSent g v.trace := by simp [upSent]
    have hqueued : queuedBytes g (v.trace ++ [.upAppend g bs]) = queuedBytes g v.trace ++ bs := by
      simp [queuedBytes]
    have hback : ((v.appended g bs).streams g).backlog = (v.streams g).backlog ++ bs := by
      simp [View.appended, StreamView.backlog, Pending.rest]
    rw [hback]
    simp only [View.appended, View.log_trace, View.upd_trace, hsent, hqueued,
      unacc_append, unaccStep]
    refine ⟨hlive.1.trans (by simp), ?_⟩
    rw [List.drop_append_of_le_length hlive.1, ← List.append_assoc, hlive.2]
  · exact hi.other (o := .upAppend g bs) (by simp [queuedBytes, hg]) (by simp [upSent])
      (fun _ => rfl) rfl rfl (by simp [View.appended, Ne.symm hg])

theorem View.Uplink.create {h : Handle} (hi : v.Uplink h) (id : UInt32) :
    View.Uplink (({ v with nstreams := v.nstreams + 1 }.upd v.nstreams fun _ =>
      Stream.view { id := id }).log (.streamOpen v.nstreams id)) h := by
  have hsent : upSent h (v.trace ++ [.streamOpen v.nstreams id]) =
    upSent h v.trace := by simp [upSent]
  have hqueued : queuedBytes h (v.trace ++ [.streamOpen v.nstreams id]) =
    queuedBytes h v.trace := by
    simp [queuedBytes]
  have hunacc : unacc h (v.trace ++ [.streamOpen v.nstreams id]) = unacc h v.trace := by
    simp [unaccStep]
  constructor
  · intro hlt
    have hlt : v.nstreams + 1 ≤ h := hlt
    rw [View.log_trace, View.upd_trace, hsent, hqueued, hunacc]
    exact hi.fresh (Nat.le_of_succ_le hlt)
  · rw [View.log_trace, View.upd_trace, hsent, hqueued, hunacc, View.log_streams, View.upd_streams]
    split_ifs with hh
    · obtain ⟨hq, hs, hu⟩ := hi.fresh hh.ge
      exact .inr ⟨hu.le.trans (Nat.zero_le _), by rw [hq, hs, hu]; rfl⟩
    · exact hi.flow

theorem DispatchAct.uplink {h : Handle} (ha : DispatchAct v v') (hm : v.Marks) (hi : v.Uplink h) :
    v'.Uplink h := by
  have hone : ∀ (g : Handle) (f : StreamView → StreamView) (s : List Obs) (w : View),
      w.streams = v.streams → w.nstreams = v.nstreams → NoUplink s →
      ((v.streams g).closedByProtocol → (f (v.streams g)).closedByProtocol) →
      (f (v.streams g)).pendingIn = (v.streams g).pendingIn →
      View.Uplink { w.upd g f with trace := v.trace ++ s } h := fun g f s w hw hn hs hc hp => by
    refine hi.next s hs rfl hn (fun hclosed => ?_) (.inl ?_)
    · show ((w.upd g f).streams h).closedByProtocol
      rw [View.upd_streams, hw]
      split_ifs with hg
      · exact hc (hg ▸ hclosed)
      · exact hclosed
    · show ((w.upd g f).streams h).pendingIn = _
      rw [View.upd_streams, hw]
      split_ifs with hg
      · exact hg ▸ hp
      · rfl
  have hnone : NoUplink [] := .none
  have hquiet : ∀ (f : StreamView → StreamView) (g : Handle),
      ((v.streams g).closedByProtocol → (f (v.streams g)).closedByProtocol) →
      (f (v.streams g)).pendingIn = (v.streams g).pendingIn → (v.upd g f).Uplink h :=
    fun f g hc hp => by
      have hv := hone g f [] v rfl rfl hnone hc hp
      rwa [List.append_nil] at hv
  cases ha with
  | psh g data =>
    exact hi.other (by simp [queuedBytes]) (by simp [upSent]) (fun _ => rfl) rfl rfl rfl
  | direct g bs hknown hp hin => exact hi.direct hm g bs hknown hp hin
  | append g bs hknown hin => exact hi.append hm g bs hknown hin
  | create id => exact hi.create id
  | core | table =>
    exact hi.next [] hnone (List.append_nil _).symm rfl (fun hc => hc) (.inl rfl)
  | fin g =>
    exact hone g (fun st => { st with closedByProtocol := true, inClosed := true })
      [.clientFin g (v.streams g).state] v rfl rfl
      (.one (fun _ => rfl) (fun _ => rfl) (fun _ => rfl) fun _ _ => rfl) (fun _ => rfl) rfl
  | opening g =>
    refine hi.next [.opening g (v.streams g).state, .setState g (v.streams g).state .connecting]
      ⟨fun _ => rfl, fun _ => rfl, fun _ => rfl, fun _ _ => rfl⟩ (by simp) rfl
        (fun hc => hc) (.inl rfl)
  | halfClose g =>
    have hv := hone g (fun st => { st with state := .halfClosed })
      [.upShutdown g, .setState g (v.streams g).state .halfClosed] v rfl rfl
      ⟨fun _ => rfl, fun _ => rfl, fun _ => rfl, fun _ _ => rfl⟩ (fun hc => hc) rfl
    simpa [View.log, View.upd] using hv
  | firstPshAcc g | firstPsh g | openUot g | deferClose g =>
    exact hquiet _ g (fun hc => hc) rfl

/-- Effects that leave alone what is parsed and queued of every stream's payload. -/
structure View.Beside (v v' : View) : Prop where
  trace : v.trace <+: v'.trace
  nstreams : v'.nstreams = v.nstreams
  psh : ∀ h, pshBytes h v'.trace = pshBytes h v.trace
  queued : ∀ h, queuedBytes h v'.trace = queuedBytes h v.trace
  streams : ∀ h, (v.streams h).Beside (v'.streams h)

theorem View.Beside.refl (v : View) : v.Beside v :=
  ⟨List.prefix_refl _, rfl, fun _ => rfl, fun _ => rfl, fun _ => .refl _⟩

theorem View.Beside.trans {a b c : View} (hab : a.Beside b) (hbc : b.Beside c) : a.Beside c where
  trace := hab.trace.trans hbc.trace
  nstreams := hbc.nstreams.trans hab.nstreams
  psh h := (hbc.psh h).trans (hab.psh h)
  queued h := (hbc.queued h).trans (hab.queued h)
  streams h := (hab.streams h).trans (hbc.streams h)

theorem View.Idle.beside (h : v.Idle v') : v.Beside v' := by
  obtain ⟨s, ht, hs⟩ := h.trace
  refine ⟨ht ▸ List.prefix_append _ _, h.nstreams, fun g => ?_, fun g => ?_, h.streams⟩
  · rw [ht, pshBytes_append, hs.psh, List.append_nil]
  · rw [ht, queuedBytes_append, hs.queued, List.append_nil]

theorem View.Beside.marks (h : v.Beside v') (hm : v.Marks) : v'.Marks := fun g =>
  (h.streams g).marks (hm g)

/-- An effect on one stream that queues nothing. -/
theorem View.Beside.stream {g : Handle} {f : StreamView → StreamView} (s : List Obs)
    (hpsh : ∀ h, pshBytes h s = []) (hqueued : ∀ h, queuedBytes h s = [])
    (hbeside : (v.streams g).Beside (f (v.streams g))) :
    v.Beside { v.upd g f with trace := v.trace ++ s } := by
  refine ⟨List.prefix_append _ _, rfl, fun h => ?_, fun h => ?_, fun h => ?_⟩
  · rw [pshBytes_append, hpsh, List.append_nil]
  · rw [queuedBytes_append, hqueued, List.append_nil]
  · show (v.streams h).Beside ((v.upd g f).streams h)
    rw [View.upd_streams]
    exact View.rel_ite .refl hbeside h

/-- A record that is of no payload. -/
theorem View.Beside.logged (o : Obs) (hpsh : ∀ h, pshBytes h [o] = [])
    (hqueued : ∀ h, queuedBytes h [o] = []) : v.Beside (v.log o) := by
  refine ⟨List.prefix_append _ _, rfl, fun h => ?_, fun h => ?_, fun _ => .refl _⟩
  · rw [View.log_trace, pshBytes_append, hpsh, List.append_nil]
  · rw [View.log_trace, queuedBytes_append, hqueued, List.append_nil]

theorem SendAct.beside (ha : SendAct v v') : v.Beside v' := by
  cases ha with
  | chain g bs =>
    exact ⟨by simp, rfl, fun _ => by simp [pshBytes], fun _ => by simp [queuedBytes],
      fun _ => .refl _⟩
  | account g p ps n =>
    exact .stream [.upAccount g n] (fun _ => rfl) (fun _ => rfl)
      (f := fun st => { st with pendingIn := accountHead n st.pendingIn })
      ⟨rfl, rfl, rfl, fun hc => hc, fun hm => hm⟩
  | pop g =>
    have hv := View.Beside.stream (v := v) (g := g) (f := fun st =>
      { st with pendingIn := st.pendingIn.tail }) [] (fun _ => rfl) (fun _ => rfl)
      ⟨rfl, rfl, rfl, fun hc => hc, fun hm => hm⟩
    rwa [List.append_nil] at hv
  | shutdown g =>
    exact .stream [.upShutdown g] (fun _ => rfl) (fun _ => rfl)
      (f := fun st => { st with pendingShutdown := false })
      ⟨rfl, rfl, rfl, fun hc => hc, fun hm => hm⟩

/-- A new stream is not marked. -/
theorem View.Marks.create (hm : v.Marks) (id : UInt32) :
    View.Marks (({ v with nstreams := v.nstreams + 1 }.upd v.nstreams fun _ =>
      Stream.view { id := id }).log (.streamOpen v.nstreams id)) := by
  intro h
  rw [View.log_streams, View.upd_streams]
  split_ifs
  · exact ⟨nofun, nofun⟩
  · exact hm h

theorem DispatchAct.marks (ha : DispatchAct v v') (hm : v.Marks) : v'.Marks := by
  have hone : ∀ (g : Handle) (st : StreamView), ((v.streams g).Marks → st.Marks) → ∀ h,
      (if h = g then st else v.streams h).Marks := fun g st hst h => by
    split_ifs
    · exact hst (hm g)
    · exact hm h
  cases ha with
  | psh | core | table | opening | direct => exact hm
  | create id => exact hm.create id
  | fin g | append g | firstPshAcc g | firstPsh g =>
    intro h
    simp only [View.log_streams, View.upd_streams]
    refine hone g _ ?_ h
    first | exact fun hst => hst | exact fun _ => ⟨fun _ => rfl, fun _ => rfl⟩
  | openUot g | halfClose g | deferClose g =>
    intro h
    simp only [View.log_streams, View.upd_streams]
    refine hone g _ ?_ h
    exact fun hst => ⟨nofun, hst.2⟩

/-- What flows through the backlog, over one effect of a session. -/
theorem SessionAct.uplink {h : Handle} (ha : SessionAct v v') (hn : NoOverlap h v'.trace)
    (hm : v.Marks) (hi : v.Uplink h) : v'.Marks ∧ v'.Uplink h := by
  cases ha with
  | act ha => exact ⟨ha.idle.beside.marks hm, hi.idle ha.idle⟩
  | close ha => exact ⟨ha.idle.beside.marks hm, hi.idle ha.idle⟩
  | send ha => exact ⟨ha.beside.marks hm, ha.uplink hn hi⟩
  | dispatch ha => exact ⟨ha.marks hm, ha.uplink hm hi⟩
  | input hmux ht =>
    have hidle := hmux.idle [] .none (by rw [ht, List.append_nil])
    exact ⟨hidle.beside.marks hm, hi.idle hidle⟩
  | inputLog o ho hmux ht =>
    have hidle := hmux.idle [o] ho.noUplink ht
    exact ⟨hidle.beside.marks hm, hi.idle hidle⟩

theorem reaches_uplink {h : Handle} (hr : Reaches v v') (hs : v.Sane) (hn : NoOverlap h v'.trace)
    (hm : v.Marks) (hi : v.Uplink h) : v'.Sane ∧ v'.Marks ∧ v'.Uplink h := by
  induction hr with
  | refl => exact ⟨hs, hm, hi⟩
  | tail hr ha ih =>
    have hs' := Reaches.sane hr hs
    have hle := SessionAct.trace_le ha hs'
    obtain ⟨-, hm', hi'⟩ := ih (hn.of_le hle)
    exact ⟨ha.sane hs', ha.uplink hn hm' hi'⟩

end Effects

end NgxAnytls
