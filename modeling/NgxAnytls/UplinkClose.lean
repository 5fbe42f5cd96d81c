import NgxAnytls.Records
import NgxAnytls.UplinkOrder

/-! The write side of an upstream socket is shut down only after the client's FIN, and when the
socket has taken all that the stream is ever given. -/

namespace NgxAnytls

open Relation

section Effects

variable {v v' : View} {h : Handle}

/-- What the socket took and what the backlog holds besides is all that was queued. -/
def View.Whole (v : View) (h : Handle) : Prop :=
  unacc h v.trace ≤ (v.streams h).backlog.length ∧
    upSent h v.trace ++ (v.streams h).backlog.drop (unacc h v.trace) = queuedBytes h v.trace

/-- The backlog of a stream that takes payload, or that holds some, was not thrown away. -/
theorem View.Uplink.whole (hi : v.Uplink h)
    (hlive : (v.streams h).pendingIn ≠ [] ∨ (v.streams h).closedByProtocol = false) :
    v.Whole h := by
  refine hi.flow.resolve_left fun hend => ?_
  rcases hlive with hp | hc
  · exact hp hend.1
  · rw [hend.2.1] at hc
    cases hc

/-- An effect on other things than the payload of the stream. -/
theorem View.Whole.next (hi : v.Whole h) (s : List Obs) (ht : v'.trace = v.trace ++ s)
    (hqueued : queuedBytes h s = []) (hsent : upSent h s = [])
    (hunacc : ∀ n, s.foldl (unaccStep h) n = n)
    (hback : (v'.streams h).backlog = (v.streams h).backlog) : v'.Whole h := by
  have hun : unacc h v'.trace = unacc h v.trace := by
    rw [ht, unacc, List.foldl_append, hunacc]
    rfl
  rw [View.Whole, hun, hback, ht, queuedBytes_append, upSent_append, hqueued, hsent,
    List.append_nil, List.append_nil]
  exact hi

/-- Nothing but a discard takes payload out of the backlog, other than a send. -/
theorem Act.pendingIn (ha : Act v v') (hkept : .upDiscard h ∉ v'.trace) :
    (v'.streams h).pendingIn = (v.streams h).pendingIn := by
  cases ha with
  | queue owner f id body route =>
    exact View.rel_enqueue (r := fun st st' => st'.pendingIn = st.pendingIn)
      (fun _ => rfl) (fun _ _ _ hab hbc => hbc.trans hab) (fun _ _ _ _ => rfl) (fun _ _ => rfl) h
  | retire f fs =>
    exact View.rel_retire (r := fun st st' => st'.pendingIn = st.pendingIn) (fun _ => rfl)
      (fun _ _ _ _ => rfl) h
  | discard g =>
    have hg : h ≠ g := fun hg => hkept (by simp [hg])
    simp [hg]
  | note | state | clamped | link | take | unqueueClosing | untable | pause | unblock => rfl
  | schedule g | synack g | markClosed g | closing g | closed g | dropUpstream g | lookup g
  | endLookup g | connecting g | openUpstream g | connected g =>
    simp only [View.log_streams, View.upd_streams]
    split_ifs with hg
    · rw [hg]
    · rfl
  | dropOut g =>
    simp only [View.dropOut, View.upd_streams]
    split_ifs with hg
    · rw [hg]
    · rfl

theorem Act.whole (ha : Act v v') (hkept : .upDiscard h ∉ v'.trace) (hi : v.Whole h) :
    v'.Whole h := by
  obtain ⟨s, ht, hs⟩ := ha.idle.trace
  exact hi.next s ht (hs.queued h) (hs.sent h) (hs.unacc h)
    (congrArg (List.flatMap Pending.rest) (ha.pendingIn hkept))

theorem SendAct.whole (ha : SendAct v v') (hn : NoOverlap h v'.trace) (hi : v.Uplink h)
    (hw : v.Whole h) : v'.Whole h := by
  have hi' := ha.uplink hn ⟨hi.fresh, .inr hw⟩
  cases ha with
  | chain g bs hbs hp =>
    by_cases hg : g = h
    · exact hi'.whole (.inl (hg ▸ hp))
    · exact hw.next [.upChain g bs] rfl (by simp [queuedBytes]) (by simp [upSent, hg])
        (by simp [unaccStep, hg]) rfl
  | account g p ps n hp =>
    by_cases hg : g = h
    · refine hi'.whole (.inl ?_)
      subst hg
      simp [hp, accountHead]
    · exact hw.next [.upAccount g n] rfl (by simp [queuedBytes]) (by simp [upSent])
        (by simp [unaccStep, hg]) (by simp [Ne.symm hg])
  | pop g p ps hp hsent =>
    refine hw.next [] (List.append_nil _).symm rfl rfl (fun _ => rfl) ?_
    by_cases hg : h = g
    · subst hg
      simp [StreamView.backlog, hp, Pending.rest, hsent]
    · simp [hg]
  | shutdown g =>
    refine hw.next [.upShutdown g] rfl rfl rfl (fun _ => rfl) ?_
    by_cases hg : h = g
    · subst hg
      simp [StreamView.backlog]
    · simp [hg]

theorem DispatchAct.whole (ha : DispatchAct v v') (hm : v.Marks) (hi : v.Uplink h)
    (hw : v.Whole h) : v'.Whole h := by
  have hi' := ha.uplink hm ⟨hi.fresh, .inr hw⟩
  have hquiet : ∀ (g : Handle) (f : StreamView → StreamView) (w : View), w.streams = v.streams →
      (f (v.streams g)).pendingIn = (v.streams g).pendingIn →
      ((w.upd g f).streams h).backlog = (v.streams h).backlog := fun g f w hst hp => by
    rw [View.upd_streams, hst]
    split_ifs with hg
    · rw [hg, StreamView.backlog, hp, StreamView.backlog]
    · rfl
  cases ha with
  | direct g bs hknown hp hin =>
    by_cases hg : g = h
    · refine hi'.whole (.inr (Bool.eq_false_iff.mpr fun hc => ?_))
      subst hg
      rw [(hm g).2 hc] at hin
      cases hin
    · exact hw.next [.upDirect g bs] rfl (by simp [queuedBytes, hg]) (by simp [upSent, hg])
        (fun _ => rfl) rfl
  | append g bs hknown hin =>
    by_cases hg : g = h
    · refine hi'.whole (.inl ?_)
      subst hg
      simp
    · exact hw.next [.upAppend g bs] rfl (by simp [queuedBytes, hg]) (by simp [upSent])
        (fun _ => rfl) (by simp [Ne.symm hg])
  | create id =>
    by_cases hg : h = v.nstreams
    · refine hi'.whole (.inr ?_)
      subst hg
      simp [Stream.view]
    · exact hw.next [.streamOpen v.nstreams id] rfl rfl rfl (fun _ => rfl) (by simp [hg])
  | psh g data => exact hw.next [.psh g data] rfl rfl rfl (fun _ => rfl) rfl
  | core | table => exact hw.next [] (List.append_nil _).symm rfl rfl (fun _ => rfl) rfl
  | fin g =>
    exact hw.next [.clientFin g (v.streams g).state] rfl rfl rfl (fun _ => rfl) (hquiet g
      (fun st => { st with closedByProtocol := true, inClosed := true }) v rfl rfl)
  | opening g =>
    exact hw.next [.opening g (v.streams g).state, .setState g (v.streams g).state .connecting]
      (by simp) rfl rfl (fun _ => rfl) rfl
  | halfClose g =>
    exact hw.next [.upShutdown g, .setState g (v.streams g).state .halfClosed] (by simp) rfl rfl
      (fun _ => rfl) (hquiet g (fun st => { st with state := .halfClosed }) v rfl rfl)
  | firstPshAcc g | firstPsh g | openUot g | deferClose g =>
    exact hw.next [] (List.append_nil _).symm rfl rfl (fun _ => rfl) (hquiet g _ v rfl rfl)

/-- As long as the backlog is not thrown away, all of the payload is accounted for. -/
theorem SessionAct.whole (ha : SessionAct v v') (hn : NoOverlap h v'.trace) (hm : v.Marks)
    (hi : v.Uplink h) (hkept : .upDiscard h ∉ v'.trace) (hw : v.Whole h) : v'.Whole h := by
  cases ha with
  | act ha => exact ha.whole hkept hw
  | close ha =>
    obtain ⟨s, ht, hs⟩ := ha.idle.trace
    refine hw.next s ht (hs.queued h) (hs.sent h) (hs.unacc h) ?_
    cases ha <;> rfl
  | send ha => exact ha.whole hn hi hw
  | dispatch ha => exact ha.whole hm hi hw
  | input hmux ht =>
    exact hw.next [] (by rw [ht, List.append_nil]) rfl rfl (fun _ => rfl)
      (by rw [hmux.streams])
  | inputLog o ho hmux ht =>
    have hs := ho.noUplink
    exact hw.next [o] ht (hs.queued h) (hs.sent h) (hs.unacc h) (by rw [hmux.streams])

/-- Once the client closed the stream nothing more is queued for its upstream. -/
theorem SessionAct.fin_queued (ha : SessionAct v v') (hs : v.Sane) (hm : v.Marks)
    (hfin : ClientFin h v.trace) : queuedBytes h v'.trace = queuedBytes h v.trace := by
  have hin : (v.streams h).inClosed = true := (hm h).2 ((hs.stream h).marked hfin)
  have hadded : ∀ s, v'.trace = v.trace ++ s → queuedBytes h s = [] →
      queuedBytes h v'.trace = queuedBytes h v.trace := fun s ht hq => by
    rw [ht, queuedBytes_append, hq, List.append_nil]
  cases ha with
  | act ha => exact ha.idle.beside.queued h
  | close ha => exact ha.idle.beside.queued h
  | send ha => exact ha.beside.queued h
  | input _ ht => rw [ht]
  | inputLog o ho _ ht => exact hadded [o] ht (ho.noUplink.queued h)
  | dispatch ha =>
    cases ha with
    | direct g bs _ _ hopen =>
      have hg : g ≠ h := fun hg => by
        rw [hg, hin] at hopen
        cases hopen
      exact hadded [.upDirect g bs] rfl (by simp [queuedBytes, hg])
    | append g bs _ hopen =>
      have hg : g ≠ h := fun hg => by
        rw [hg, hin] at hopen
        cases hopen
      exact hadded [.upAppend g bs] rfl (by simp [queuedBytes, hg])
    | psh g data => exact hadded [.psh g data] rfl rfl
    | fin g => exact hadded [.clientFin g (v.streams g).state] rfl rfl
    | opening g =>
      exact hadded [.opening g (v.streams g).state, .setState g (v.streams g).state .connecting]
        (by simp) rfl
    | create id => exact hadded [.streamOpen v.nstreams id] rfl rfl
    | halfClose g =>
      exact hadded [.upShutdown g, .setState g (v.streams g).state .halfClosed] (by simp) rfl
    | core | table | firstPshAcc | firstPsh | openUot | deferClose => rfl

theorem Act.pendingShutdown (ha : Act v v') :
    (v'.streams h).pendingShutdown = (v.streams h).pendingShutdown := by
  cases ha with
  | queue owner f id body route =>
    exact View.rel_enqueue (r := fun st st' => st'.pendingShutdown = st.pendingShutdown)
      (fun _ => rfl) (fun _ _ _ hab hbc => hbc.trans hab) (fun _ _ _ _ => rfl) (fun _ _ => rfl) h
  | retire f fs =>
    exact View.rel_retire (r := fun st st' => st'.pendingShutdown = st.pendingShutdown)
      (fun _ => rfl) (fun _ _ _ _ => rfl) h
  | note | state | clamped | link | take | unqueueClosing | untable | pause | unblock => rfl
  | schedule g | synack g | markClosed g | closing g | closed g | dropUpstream g | discard g
  | lookup g | endLookup g | connecting g | openUpstream g | connected g =>
    simp only [View.log_streams, View.upd_streams]
    split_ifs with hg
    · rw [hg]
    · rfl
  | dropOut g =>
    simp only [View.dropOut, View.upd_streams]
    split_ifs with hg
    · rw [hg]
    · rfl

/-- A shutdown is put off for a client's FIN only. -/
theorem SessionAct.deferred (ha : SessionAct v v') (hs : v.Sane)
    (hi : (v.streams h).pendingShutdown → ClientFin h v.trace) :
    (v'.streams h).pendingShutdown → ClientFin h v'.trace := by
  have hle := (SessionAct.trace_le ha hs).subset
  have hsame : (v'.streams h).pendingShutdown = (v.streams h).pendingShutdown →
      (v'.streams h).pendingShutdown → ClientFin h v'.trace := fun heq hp =>
    (hi (heq ▸ hp)).mono hle
  cases ha with
  | act ha => exact hsame ha.pendingShutdown
  | close ha =>
    refine hsame ?_
    cases ha <;> rfl
  | input hmux | inputLog _ _ hmux =>
    refine hsame ?_
    rw [hmux.streams]
  | send ha =>
    cases ha with
    | chain => exact hsame rfl
    | account g | pop g =>
      refine hsame ?_
      by_cases hg : h = g
      · subst hg
        simp
      · simp [hg]
    | shutdown g =>
      by_cases hg : h = g
      · subst hg
        simp
      · exact hsame (by simp [hg])
  | dispatch ha =>
    cases ha with
    | psh | core | opening | direct | table => exact hsame rfl
    | create id =>
      by_cases hg : h = v.nstreams
      · subst hg
        simp [Stream.view]
      · exact hsame (by simp [hg])
    | deferClose g _ _ hfin =>
      by_cases hg : h = g
      · exact fun _ => hg ▸ hfin
      · exact hsame (by simp [hg])
    | fin g | firstPshAcc g | firstPsh g | openUot g | append g | halfClose g =>
      refine hsame ?_
      by_cases hg : h = g
      · subst hg
        simp
      · simp [hg]

/-- Records without a shutdown. -/
def NoShutdown (h : Handle) (s : List Obs) : Prop := .upShutdown h ∉ s

theorem Act.noShutdown (ha : Act v v') : ∃ s, v'.trace = v.trace ++ s ∧ NoShutdown h s := by
  have hnone : v'.trace = v.trace → ∃ s, v'.trace = v.trace ++ s ∧ NoShutdown h s := fun ht =>
    ⟨[], by rw [ht, List.append_nil], List.not_mem_nil⟩
  have hone : ∀ o, v'.trace = v.trace ++ [o] → o ≠ .upShutdown h →
      ∃ s, v'.trace = v.trace ++ s ∧ NoShutdown h s := fun o ht ho =>
    ⟨[o], ht, by simpa [NoShutdown] using ho.symm⟩
  cases ha with
  | note o ho =>
    refine hone o rfl ?_
    rintro rfl
    exact ho
  | state g new => exact hone (.setState g _ new) rfl nofun
  | clamped => exact hone .clamped rfl nofun
  | queue owner f id body route =>
    exact hone (.queued (f.prepare owner) _ _) (by rw [View.log_trace, View.enqueue_trace]) nofun
  | link => exact ⟨_, rfl, by simp [NoShutdown]⟩
  | take => exact hone (.clientSend _) rfl nofun
  | retire => exact hnone (View.retire_trace ..)
  | closing g => exact hone (.streamClosing g) rfl nofun
  | closed g => exact hone (.streamClosed g) rfl nofun
  | discard g => exact hone (.upDiscard g) rfl nofun
  | openUpstream g => exact hone (.upConnect g) rfl nofun
  | schedule | synack | markClosed | unqueueClosing | untable | dropOut | dropUpstream | lookup
  | endLookup | connecting | connected | pause | unblock => exact hnone rfl

/-- The write side of the stream's upstream is shut down: nothing is in the backlog, and the client
closed the stream. -/
def View.Shuts (v v' : View) (h : Handle) : Prop :=
  (v.streams h).pendingIn = [] ∧ ((v.streams h).pendingShutdown ∨ ClientFin h v.trace) ∧
    ∃ s, v'.trace = v.trace ++ .upShutdown h :: s ∧ NoShutdown h s

theorem SessionAct.shutdown (ha : SessionAct v v') :
    (∃ s, v'.trace = v.trace ++ s ∧ NoShutdown h s) ∨ v.Shuts v' h := by
  have hnone : v'.trace = v.trace → (∃ s, v'.trace = v.trace ++ s ∧ NoShutdown h s) ∨
      v.Shuts v' h := fun ht => .inl ⟨[], by rw [ht, List.append_nil], List.not_mem_nil⟩
  have hone : ∀ o, v'.trace = v.trace ++ [o] → o ≠ .upShutdown h →
      (∃ s, v'.trace = v.trace ++ s ∧ NoShutdown h s) ∨ v.Shuts v' h := fun o ht ho =>
    .inl ⟨[o], ht, by simpa [NoShutdown] using ho.symm⟩
  cases ha with
  | act ha => exact .inl ha.noShutdown
  | close ha =>
    cases ha with
    | finalizing => exact hnone rfl
    | finalized rc => exact hone (.finalize rc) rfl nofun
  | input _ ht => exact hnone ht
  | inputLog o ho _ ht =>
    refine hone o ht ?_
    rintro rfl
    exact ho
  | send ha =>
    cases ha with
    | chain g bs => exact hone (.upChain g bs) rfl nofun
    | account g p ps n => exact hone (.upAccount g n) rfl nofun
    | pop => exact hnone rfl
    | shutdown g hp hpending =>
      by_cases hg : g = h
      · subst hg
        exact .inr ⟨hp, .inl hpending, [], rfl, List.not_mem_nil⟩
      · exact hone (.upShutdown g) rfl (by simpa using hg)
  | dispatch ha =>
    cases ha with
    | psh g data => exact hone (.psh g data) rfl nofun
    | fin g => exact hone (.clientFin g (v.streams g).state) rfl nofun
    | opening g =>
      exact .inl ⟨[.opening g (v.streams g).state, .setState g (v.streams g).state .connecting],
        by simp, by simp [NoShutdown]⟩
    | create id => exact hone (.streamOpen v.nstreams id) rfl nofun
    | direct g bs => exact hone (.upDirect g bs) rfl nofun
    | append g bs => exact hone (.upAppend g bs) rfl nofun
    | core | table | firstPshAcc | firstPsh | openUot | deferClose => exact hnone rfl
    | halfClose g hp _ hfin =>
      by_cases hg : g = h
      · subst hg
        exact .inr ⟨hp, .inr hfin, [.setState g (v.streams g).state .halfClosed], by simp,
          by simp [NoShutdown]⟩
      · exact .inl ⟨[.upShutdown g, .setState g (v.streams g).state .halfClosed], by simp,
          by simp [NoShutdown, Ne.symm hg]⟩

/-- A record of a longer trace stands in its front part or is one of those added. -/
theorem prefix_append_cases {s t added : List Obs} {o : Obs} (hpre : s ++ [o] <+: t ++ added) :
    s ++ [o] <+: t ∨ ∃ b c, s = t ++ b ∧ added = b ++ o :: c := by
  by_cases hlen : s.length < t.length
  · exact .inl (List.prefix_of_prefix_length_le hpre (List.prefix_append _ _) (by simpa using hlen))
  · have hts : t <+: s := List.prefix_of_prefix_length_le (List.prefix_append _ _)
      ((List.prefix_append _ _).trans hpre) (Nat.le_of_not_lt hlen)
    obtain ⟨b, rfl⟩ := hts
    obtain ⟨c, hc⟩ := hpre
    rw [List.append_assoc, List.append_assoc, List.append_cancel_left_eq] at hc
    exact .inr ⟨b, c, rfl, hc.symm⟩

/-- At each shutdown of a trace the client has closed the stream, and, unless its backlog was thrown
away, the socket has taken all that is queued for it in the whole trace. -/
def ShutsWhole (h : Handle) (t : List Obs) : Prop :=
  ∀ s, s ++ [.upShutdown h] <+: t →
    ClientFin h s ∧ (.upDiscard h ∈ s ∨ upSent h s = queuedBytes h t)

/-- What holds between any two effects of a session. -/
structure View.HalfCloses (v : View) (h : Handle) : Prop where
  marks : v.Marks
  uplink : v.Uplink h
  whole : .upDiscard h ∉ v.trace → v.Whole h
  deferred : (v.streams h).pendingShutdown → ClientFin h v.trace
  shut : ShutsWhole h v.trace

theorem SessionAct.halfCloses (ha : SessionAct v v') (hs : v.Sane) (hn : NoOverlap h v'.trace)
    (hi : v.HalfCloses h) : v'.HalfCloses h := by
  have hle := SessionAct.trace_le ha hs
  obtain ⟨hm, hup⟩ := ha.uplink hn hi.marks hi.uplink
  refine ⟨hm, hup, fun hkept => ?_, ha.deferred hs hi.deferred, fun s hpre => ?_⟩
  · exact ha.whole hn hi.marks hi.uplink hkept
      (hi.whole fun hd => hkept (hle.subset hd))
  · -- an earlier shutdown came after the FIN, and this one finds the backlog empty
    have hold : s ++ [.upShutdown h] <+: v.trace →
        ClientFin h s ∧ (.upDiscard h ∈ s ∨ upSent h s = queuedBytes h v'.trace) := fun hpre => by
      obtain ⟨hfin, hsent⟩ := hi.shut s hpre
      have hstill := ha.fin_queued hs hi.marks
        (hfin.mono ((List.prefix_append s _).trans hpre).subset)
      rw [hstill]
      exact ⟨hfin, hsent⟩
    rcases ha.shutdown (h := h) with ⟨added, ht, hnone⟩ | ⟨hp, hwhy, added, ht, hnone⟩
    · rw [ht] at hpre
      rcases prefix_append_cases hpre with hpre | ⟨b, c, -, rfl⟩
      · exact hold hpre
      · exact absurd (by simp) hnone
    · rw [ht] at hpre
      rcases prefix_append_cases hpre with hpre | ⟨b, c, rfl, hb⟩
      · exact hold hpre
      · have hfirst : b = [] := by
          cases b with
          | nil => rfl
          | cons x b =>
            obtain ⟨-, rfl⟩ := List.cons.inj hb
            exact absurd (by simp) hnone
        subst hfirst
        have hfin : ClientFin h v.trace := hwhy.elim hi.deferred id
        have hstill := ha.fin_queued hs hi.marks hfin
        rw [List.append_nil]
        refine ⟨hfin, ?_⟩
        by_cases hd : .upDiscard h ∈ v.trace
        · exact .inl hd
        · have hflow := (hi.whole hd).2
          rw [StreamView.backlog, hp, List.flatMap_nil, List.drop_nil, List.append_nil] at hflow
          exact .inr (hflow.trans hstill.symm)

private theorem reaches_halfCloses (hr : Reaches v v') (hs : v.Sane) (hn : NoOverlap h v'.trace)
    (hi : v.HalfCloses h) : v'.HalfCloses h := by
  induction hr with
  | refl => exact hi
  | tail hr ha ih =>
    have hs' := Reaches.sane hr hs
    exact ha.halfCloses hs' hn (ih (hn.of_le (SessionAct.trace_le ha hs')))

theorem init_halfCloses (conf : Conf) : (Connection.init conf).view.HalfCloses h where
  marks := (init_inOrder conf h).feeding.marks
  uplink := (init_inOrder conf h).uplink
  whole _ := ⟨Nat.zero_le _, rfl⟩
  deferred := nofun
  shut s hpre := absurd (List.prefix_nil.mp hpre) (by simp)

end Effects

/-- Whatever the socket takes at a time, wherever input pauses and whenever the upstream connects:
its write side is shut down only after the client's FIN, and then the socket has taken every byte
that is queued for it in the whole run, unless a close threw the backlog away before; as long as no
bytes of the backlog are sent inside the account of an earlier send. -/
theorem run_half_close (conf : Conf) (es : List (Event × Env)) (h : Handle)
    (hn : NoOverlap h (run conf es).trace) : ShutsWhole h (run conf es).trace :=
  (reaches_halfCloses (run_reaches conf es) (init_sane conf) hn (init_halfCloses conf)).shut

/-- The FIN comes while the socket has taken nothing of the payload yet. -/
def deferredRun : List (Event × Env) :=
  [sampleOpen sampleV2 sampleTarget { connect := [.ok], send := [.again] },
    sampleRead (encodeFrame 2 1 [6, 7] ++ encodeFrame 3 1 [])
      { send := [.again], chain := [.again] },
    (.upstreamWrite 0 false true, { chain := [.done 2] })]

theorem run_half_close_deferred : ShutsWhole 0 (run sampleConf deferredRun).trace :=
  run_half_close sampleConf deferredRun 0 (.of_all (by decide))

end NgxAnytls
