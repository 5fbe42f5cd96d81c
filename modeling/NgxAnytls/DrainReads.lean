import NgxAnytls.Library.Loop
import NgxAnytls.ReadVisit

/-! When the walk over `read_ready` ends. -/

namespace NgxAnytls

open Library.Loop

/-- Where `ngx_anytls_upstream_mux_drain_reads` stands before a turn: the node it is at, what is
left of the stream and frame budgets, and the session. -/
structure ReadTurn where
  cur : Option Handle
  visits : Nat
  left : Nat
  ac : Connection

namespace ReadTurn

/-- Before the first turn. -/
def start (ac : Connection) : ReadTurn :=
  ⟨ac.readReady.head?, scheduleStreamBudget, scheduleFrameBudget, ac⟩

/-- One turn: `none` at the sentinel and when the stream budget is used up. -/
def next (k : Callbacks) (t : ReadTurn) : Option ReadTurn :=
  match t.cur with
  | none => none
  | some h =>
    if t.visits = 0 then none
    else
      let succ := queueNext t.ac.readReady h
      let ac := takeReadReady h t.ac
      if !streamReadable (ac.streams h) then some ⟨succ, t.visits, t.left, ac⟩
      else
        let r := readStream k h t.left ac
        some ⟨succ, t.visits - 1, r.1, r.2⟩

/-- The walk stands at a node that is linked to itself and that it will not visit. -/
def SelfLinked (t : ReadTurn) : Prop :=
  ∃ h, t.cur = some h ∧ t.visits ≠ 0 ∧ h ∉ t.ac.readReady ∧ streamReadable (t.ac.streams h) = false

/-- If the turn visits a stream, the node saved before that is still linked after it, or its
stream is readable, unless the budget is used up. -/
def KeepsNext (k : Callbacks) (t : ReadTurn) : Prop :=
  ∀ h g, t.cur = some h → t.visits ≠ 0 → streamReadable (t.ac.streams h) = true →
    queueNext t.ac.readReady h = some g →
    t.visits = 1 ∨ g ∈ (readStream k h t.left (takeReadReady h t.ac)).2.readReady ∨
      streamReadable ((readStream k h t.left (takeReadReady h t.ac)).2.streams g) = true

end ReadTurn

section Turns

variable {k : Callbacks} {t t' : ReadTurn}

@[simp] theorem takeReadReady_readable (h g : Handle) (ac : Connection) :
    streamReadable ((takeReadReady h ac).streams g) = streamReadable (ac.streams g) := by
  unfold takeReadReady
  rw [Connection.upd_streams]
  split_ifs with hg
  · subst hg
    rfl
  · rfl

@[simp] theorem takeReadReady_readReady (h : Handle) (ac : Connection) :
    (takeReadReady h ac).readReady = ac.readReady.erase h := rfl

/-- A turn is a turn of the model's loop. -/
theorem drainReadsLoop_next (ht : t.next k = some t') (fuel : Nat) :
    drainReadsLoop k (fuel + 1) t.cur t.visits t.left t.ac =
      drainReadsLoop k fuel t'.cur t'.visits t'.left t'.ac := by
  obtain ⟨cur, visits, left, ac⟩ := t
  cases cur with
  | none => cases ht
  | some h =>
    simp only [ReadTurn.next] at ht
    simp only [drainReadsLoop]
    split_ifs at ht ⊢ with hvisits hread
    · cases ht
      rfl
    · cases ht
      rfl

private theorem drainReadsLoop_stop (ht : t.next k = none) (fuel : Nat) :
    drainReadsLoop k (fuel + 1) t.cur t.visits t.left t.ac = t.ac := by
  obtain ⟨cur, visits, left, ac⟩ := t
  cases cur with
  | none => rfl
  | some h =>
    simp only [ReadTurn.next] at ht
    simp only [drainReadsLoop]
    split_ifs at ht ⊢ with hvisits
    rfl

/-- A walk that does not end uses up every fuel. -/
theorem drainReadsLoop_of_not_ends (hn : ¬Terminates (ReadTurn.next k) t) (fuel : Nat) :
    (drainReadsLoop k fuel t.cur t.visits t.left t.ac).hung = true := by
  induction fuel generalizing t with
  | zero =>
    obtain ⟨cur, visits, left, ac⟩ := t
    cases cur with
    | none => exact absurd (.stop rfl) hn
    | some h => rfl
  | succ fuel ih =>
    cases hnext : t.next k with
    | none => exact absurd (.stop hnext) hn
    | some t' =>
      rw [drainReadsLoop_next hnext]
      exact ih fun he => hn (.next hnext he)

theorem drainReads_hung {ac : Connection} (hn : ¬Terminates (ReadTurn.next k) (.start ac)) :
    (drainReads k ac).hung = true := drainReadsLoop_of_not_ends hn _

end Turns

section Ending

variable {k : Callbacks} {t t' : ReadTurn}

/-- A queue's successor of a node is still there when the node is taken out. -/
theorem queueNext_mem_erase {q : List Handle} {h g : Handle} (hh : h ∈ q)
    (hg : queueNext q h = some g) : g ∈ q.erase h := by
  rw [queueNext, if_pos hh] at hg
  have htail : g ∈ q.drop (q.idxOf h + 1) := List.mem_of_head? hg
  have hsplit : q.erase h = q.take (q.idxOf h) ++ q.drop (q.idxOf h + 1) := by
    rw [List.erase_eq_eraseIdx_of_idxOf rfl, List.eraseIdx_eq_take_drop_succ]
  rw [hsplit]
  exact List.mem_append_right _ htail

/-- The walk never leaves such a node. -/
theorem ReadTurn.SelfLinked.not_ends (ht : t.SelfLinked) : ¬Terminates (ReadTurn.next k) t := by
  refine not_terminates_of_invariant (P := ReadTurn.SelfLinked) ?_ ht
  rintro ⟨cur, visits, left, ac⟩ ⟨h, hcur, hvisits, hlinked, hread⟩
  obtain rfl : cur = some h := hcur
  refine ⟨⟨some h, visits, left, takeReadReady h ac⟩, ?_, h, rfl, hvisits, ?_, ?_⟩
  · have hself : queueNext ac.readReady h = some h := if_neg hlinked
    have hskip : streamReadable ((takeReadReady h ac).streams h) = false := by
      rw [takeReadReady_readable]
      exact hread
    simp only [ReadTurn.next, if_neg hvisits, hself, hskip, Bool.not_false, if_true]
  · intro hmem
    exact hlinked (List.mem_of_mem_erase hmem)
  · rw [takeReadReady_readable]
    exact hread

/-- A turn at a node that is linked or visited has made progress. -/
theorem ReadTurn.next_less (hlinked : ¬t.SelfLinked) (ht : t.next k = some t') :
    Prod.Lex (· < ·) (· < ·) (t'.visits, t'.ac.readReady.length)
      (t.visits, t.ac.readReady.length) := by
  obtain ⟨cur, visits, left, ac⟩ := t
  cases cur with
  | none => cases ht
  | some h =>
    simp only [ReadTurn.next] at ht
    split_ifs at ht with hvisits hread
    · cases ht
      have hmem : h ∈ ac.readReady := by
        by_contra hmem
        refine hlinked ⟨h, rfl, hvisits, hmem, ?_⟩
        simpa using hread
      refine Prod.Lex.right _ ?_
      rw [takeReadReady_readReady]
      have hlen := List.length_erase_of_mem hmem
      have hpos := List.length_pos_of_mem hmem
      show (ac.readReady.erase h).length < ac.readReady.length
      omega
    · cases ht
      exact Prod.Lex.left _ _ (Nat.pred_lt hvisits)

/-- A node that is passed over has its successor still linked. -/
theorem ReadTurn.next_linked (hkeep : t.KeepsNext k) (hlinked : ¬t.SelfLinked)
    (ht : t.next k = some t') : ¬t'.SelfLinked := by
  obtain ⟨cur, visits, left, ac⟩ := t
  rintro ⟨g, hcur, hleft, hmem, hunread⟩
  cases cur with
  | none => cases ht
  | some h =>
    simp only [ReadTurn.next] at ht
    split_ifs at ht with hvisits hread
    · cases ht
      have hh : h ∈ ac.readReady := by
        by_contra hh
        refine hlinked ⟨h, rfl, hvisits, hh, ?_⟩
        simpa using hread
      exact hmem (queueNext_mem_erase hh hcur)
    · cases ht
      have hreadable : streamReadable (ac.streams h) = true := by simpa using hread
      rcases hkeep h g rfl hvisits hreadable hcur with hone | hin | hagain
      · obtain rfl : visits = 1 := hone
        exact hleft rfl
      · exact hmem hin
      · simp only at hunread
        rw [hunread] at hagain
        cases hagain

/-- The node saved before a visit is one the walk can go on from. -/
theorem ReadTurn.keepsNext_of_linked (hnext : ∀ t', t.next k = some t' → ¬t'.SelfLinked) :
    t.KeepsNext k := by
  obtain ⟨cur, visits, left, ac⟩ := t
  intro h g hcur hvisits hread hsucc
  obtain rfl : cur = some h := hcur
  by_contra hnot
  obtain ⟨hone, hmem, hagain⟩ := not_or.mp hnot |>.imp id not_or.mp
  have hturn : ReadTurn.next k ⟨some h, visits, left, ac⟩ =
      some ⟨some g, visits - 1, (readStream k h left (takeReadReady h ac)).1,
        (readStream k h left (takeReadReady h ac)).2⟩ := by
    have hvisit : streamReadable ((takeReadReady h ac).streams h) = true := by
      rw [takeReadReady_readable]
      exact hread
    have hsucc' : queueNext ac.readReady h = some g := hsucc
    simp only [ReadTurn.next, if_neg (show visits ≠ 0 from hvisits), hsucc', hvisit, Bool.not_true,
      if_neg Bool.false_ne_true]
  refine hnext _ hturn ⟨g, rfl, ?_, hmem, Bool.eq_false_iff.mpr hagain⟩
  have hpos : visits ≠ 0 := hvisits
  have hmany : visits ≠ 1 := hone
  show visits - 1 ≠ 0
  omega

/-- The walk starts at a node of the queue. -/
theorem ReadTurn.start_linked (ac : Connection) : ¬(ReadTurn.start ac).SelfLinked := by
  rintro ⟨h, hcur, -, hmem, -⟩
  exact hmem (List.mem_of_head? hcur)

/-- A walk ends exactly when no visit takes the saved node out of the queue. -/
theorem drainReads_ends_iff (k : Callbacks) (ac : Connection) :
    Terminates (ReadTurn.next k) (.start ac) ↔
      ∀ t, Leads (ReadTurn.next k) (.start ac) t → t.KeepsNext k := by
  constructor
  · intro he t hr
    apply ReadTurn.keepsNext_of_linked
    intro t' hturn hself
    exact hself.not_ends (he.of_leads (hr.tail hturn))
  · intro hkeep
    have hwf : WellFounded (Prod.Lex (· < ·) (· < ·) : Nat × Nat → Nat × Nat → Prop) :=
      WellFounded.prod_lex Nat.lt_wfRel.wf Nat.lt_wfRel.wf
    refine terminates_of_measure hwf (fun t : ReadTurn => (t.visits, t.ac.readReady.length))
      (P := fun t => Leads (ReadTurn.next k) (.start ac) t ∧ ¬t.SelfLinked) ?_
      ⟨.refl, ReadTurn.start_linked ac⟩
    rintro t t' ⟨hr, hlinked⟩ hturn
    exact ⟨⟨hr.tail hturn, ReadTurn.next_linked (hkeep t hr) hlinked hturn⟩,
      ReadTurn.next_less hlinked hturn⟩

end Ending

section Safe

variable {conf : Conf} {t t' : ReadTurn} {visited : List Handle}

/-- The bytes that wait for streams outside of the walk. -/
def backlogOutside (visited : List Handle) (ac : Connection) : Nat :=
  ∑ g ∈ Finset.range ac.nstreams with g ∉ visited, (ac.streams g).pendingInBytes

/-- The node is linked, the walk stays among the streams it started with, and no close lets a frame
in. -/
structure ReadTurn.Safe (visited : List Handle) (t : ReadTurn) : Prop where
  linked : ∀ h, t.cur = some h → h ∈ t.ac.readReady
  inside : ∀ h ∈ t.ac.readReady, h ∈ visited
  known : t.ac.books.Known
  queues : t.ac.books.Linked
  accounts : t.ac.books.Accounted
  shut : HoldsNoFrame t.ac ∨ t.ac.conf.maxPendingInput / 2 < backlogOutside visited t.ac

/-- The turns that are left, at most. -/
def ReadTurn.togo (t : ReadTurn) : Nat := t.ac.readReady.length + t.visits

private theorem backlogOutside_congr {a b : Connection} {h : Handle} (hh : h ∈ visited)
    (hn : b.nstreams = a.nstreams) (hothers : ∀ g, g ≠ h → b.streams g = a.streams g) :
    backlogOutside visited b = backlogOutside visited a := by
  unfold backlogOutside
  rw [hn]
  refine Finset.sum_congr rfl fun g hg => ?_
  have hout : g ∉ visited := (Finset.mem_filter.mp hg).2
  rw [hothers g fun he => hout (he ▸ hh)]

/-- The backlog outside of the walk and that of one of its streams are parts of the total. -/
theorem backlogOutside_le {ac : Connection} (hi : ac.books.Accounted) {h : Handle}
    (hh : h ∈ visited) :
    backlogOutside visited ac + (ac.streams h).pendingInBytes ≤ ac.pendingInput := by
  have htotal : ac.pendingInput =
      ∑ g ∈ Finset.range ac.nstreams, (ac.streams g).pendingInBytes := hi.pendingInput
  rw [htotal]
  by_cases hknown : h < ac.nstreams
  · have hnot : h ∉ (Finset.range ac.nstreams).filter (· ∉ visited) := by simp [hh]
    have hsub : insert h ((Finset.range ac.nstreams).filter (· ∉ visited)) ⊆
        Finset.range ac.nstreams := by
      refine Finset.insert_subset (Finset.mem_range.mpr hknown) (Finset.filter_subset _ _)
    have hsum := Finset.sum_le_sum_of_subset (f := fun g => (ac.streams g).pendingInBytes) hsub
    rw [Finset.sum_insert hnot, Nat.add_comm] at hsum
    exact hsum
  · have hempty : (ac.streams h).pendingInBytes = 0 := hi.empty (not_lt.mp hknown)
    rw [hempty, Nat.add_zero]
    exact Finset.sum_le_sum_of_subset (Finset.filter_subset _ _)

theorem ReadTurn.Safe.keepsShut {ac : Connection} (hi : ac.books.Accounted) {h : Handle}
    (hh : h ∈ visited)
    (hshut : HoldsNoFrame ac ∨ ac.conf.maxPendingInput / 2 < backlogOutside visited ac) :
    ac.KeepsShut (backlogOutside visited ac) h :=
  hshut.imp_right fun hlimit => ⟨hlimit, backlogOutside_le hi hh⟩

/-- A list without duplicates is at most one longer than without one of its elements. -/
theorem length_le_filter_ne {q : List Handle} (hq : q.Nodup) (h : Handle) :
    q.length ≤ (q.filter (· ≠ h)).length + 1 := by
  have hrest : (q.filter fun g => decide (g ≠ h)) = q.erase h := by
    rw [hq.erase_eq_filter]
    refine List.filter_congr fun g _ => ?_
    by_cases hg : g = h <;> simp [hg]
  rw [hrest, List.length_erase]
  split_ifs <;> omega

/-- A turn stays safe and leaves fewer turns to go. -/
theorem ReadTurn.Safe.turn (hs : t.Safe visited) (ht : t.next (outerCallbacks conf) = some t') :
    t'.Safe visited ∧ t'.togo < t.togo := by
  obtain ⟨cur, visits, left, ac⟩ := t
  cases cur with
  | none => cases ht
  | some h =>
    have hmem : h ∈ ac.readReady := hs.linked h rfl
    have hin : h ∈ visited := hs.inside h hmem
    have honce : ac.readReady.Nodup := hs.queues.once .read
    have hlen := List.length_erase_of_mem hmem
    have hpos := List.length_pos_of_mem hmem
    have htake : BookRun ac.books (takeReadReady h ac).books := Books.takeReadReady h ac hs.known
    have hknown := htake.known hs.known
    have hqueues : (takeReadReady h ac).books.Linked :=
      htake.invariant (fun ha hi => ha.linked hi) hs.queues
    have haccounts : (takeReadReady h ac).books.Accounted :=
      htake.invariant (fun ha hi => ha.accounted hi) hs.accounts
    have haside : ac.Aside h (takeReadReady h ac) := .takeReadReady ac
    have hshut : HoldsNoFrame (takeReadReady h ac) ∨
        (takeReadReady h ac).conf.maxPendingInput / 2 <
          backlogOutside visited (takeReadReady h ac) := by
      rw [backlogOutside_congr hin haside.nstreams haside.others]
      exact hs.shut
    simp only [ReadTurn.next] at ht
    split_ifs at ht with hvisits hread
    · cases ht
      refine ⟨⟨fun g hg => queueNext_mem_erase hmem hg, fun g hg => ?_, hknown, hqueues,
        haccounts, hshut⟩, ?_⟩
      · exact hs.inside g (List.mem_of_mem_erase hg)
      · show (ac.readReady.erase h).length + visits < ac.readReady.length + visits
        omega
    · cases ht
      have hbooks : BookRun (takeReadReady h ac).books
          (readStream (outerCallbacks conf) h left (takeReadReady h ac)).2.books :=
        (Books.outerCallbacks conf).readStream h left _ hknown (hs.known.linked .read h hmem)
      have hvisit : (takeReadReady h ac).Visited (backlogOutside visited (takeReadReady h ac)) h
          (readStream (outerCallbacks conf) h left (takeReadReady h ac)).2 :=
        Connection.Visits.readStream left _ (ReadTurn.Safe.keepsShut haccounts hin hshut)
      generalize readStream (outerCallbacks conf) h left (takeReadReady h ac) = r
        at hbooks hvisit ⊢
      have hqueues' : r.2.books.Linked := hbooks.invariant (fun ha hi => ha.linked hi) hqueues
      have hback : ∀ g, g ≠ h → (g ∈ r.2.readReady ↔ g ∈ ac.readReady.erase h) := by
        intro g hg
        have hfilter : g ∈ r.2.readReady.filter (· ≠ h) ↔
            g ∈ (ac.readReady.erase h).filter (· ≠ h) := by
          rw [hvisit.queue]
          rfl
        simpa [hg] using hfilter
      refine ⟨⟨fun g hg => ?_, fun g hg => ?_, hbooks.known hknown, hqueues',
        hbooks.invariant (fun ha hi => ha.accounted hi) haccounts, ?_⟩, ?_⟩
      · have hnext := queueNext_mem_erase hmem hg
        have hgh : g ≠ h := fun he => (honce.mem_erase_iff.mp hnext).1 he
        exact (hback g hgh).mpr hnext
      · by_cases hgh : g = h
        · exact hgh ▸ hin
        · exact hs.inside g (List.mem_of_mem_erase ((hback g hgh).mp hg))
      · refine hvisit.shut.imp_right fun hlimit => ?_
        show r.2.conf.maxPendingInput / 2 < backlogOutside visited r.2
        rw [backlogOutside_congr hin hvisit.nstreams hvisit.others]
        exact hlimit.1
      · have hmost := length_le_filter_ne (hqueues'.once .read) h
        have hsame : (r.2.readReady.filter (· ≠ h)).length ≤ (ac.readReady.erase h).length := by
          rw [hvisit.queue]
          exact List.length_filter_le _ _
        have hread' : r.2.readReady.length ≤ (r.2.readReady.filter (· ≠ h)).length + 1 := hmost
        have hvisits' : visits ≠ 0 := hvisits
        show r.2.readReady.length + (visits - 1) < ac.readReady.length + visits
        omega

/-- The model's loop follows the turns to their end when its fuel is more than is left to go. -/
theorem drainReadsLoop_safe (fuel : Nat) (hs : t.Safe visited) (hfuel : t.togo < fuel) :
    ∃ t', Leads (ReadTurn.next (outerCallbacks conf)) t t' ∧
      t'.next (outerCallbacks conf) = none ∧
      drainReadsLoop (outerCallbacks conf) fuel t.cur t.visits t.left t.ac = t'.ac := by
  induction fuel generalizing t with
  | zero => exact absurd hfuel (Nat.not_lt_zero _)
  | succ fuel ih =>
    cases hnext : t.next (outerCallbacks conf) with
    | none => exact ⟨t, .refl, hnext, drainReadsLoop_stop hnext fuel⟩
    | some t₁ =>
      obtain ⟨hsafe, hless⟩ := hs.turn hnext
      obtain ⟨t', hleads, hstop, hloop⟩ := ih hsafe (by omega)
      exact ⟨t', .head hnext hleads, hstop, (drainReadsLoop_next hnext fuel).trans hloop⟩

end Safe

/-- The read event of a stream's socket. -/
def readKind (udp : Bool) (h : Handle) : Event := if udp then .udpRead h else .upstreamRead h

/-- The session when the read event of a stream starts the walk. -/
def readEvent (udp : Bool) (h : Handle) (env : Env) (ac : Connection) : Connection :=
  let ac := (setEnv env ac).log (.event (readKind udp h))
  requeueReadReady h (if udp then uotArmIdleTimer h ac else ac)

private theorem onReadReady_readable {k : Callbacks} {h : Handle} {ac : Connection}
    (hread : streamReadable (ac.streams h) = true) :
    onReadReady k h ac = drainReads k (requeueReadReady h ac) := by
  rw [onReadReady, hread]
  rfl

/-- The idle timer changes nothing that the walk looks at. -/
theorem uotArmIdleTimer_reads (h : Handle) (ac : Connection) :
    streamReadable ((uotArmIdleTimer h ac).streams h) = streamReadable (ac.streams h) ∧
      ((uotArmIdleTimer h ac).streams h).uotMode = (ac.streams h).uotMode := by
  unfold uotArmIdleTimer
  split_ifs
  · exact ⟨rfl, rfl⟩
  · rw [Connection.upd_streams, if_pos rfl]
    exact ⟨rfl, rfl⟩

/-- The read event of a stream that can be read is this walk; for UDP in connect mode only. -/
theorem step_readKind (ac : Connection) (udp : Bool) (h : Handle) (env : Env)
    (hopen : ac.closing = false) (hhung : ac.hung = false)
    (henabled : (readKind udp h).enabled ac = true) (hread : streamReadable (ac.streams h) = true)
    (hmode : udp = true → (ac.streams h).uotMode = .uotV2Connect) :
    step ac (readKind udp h, env) =
      drainReads (outerCallbacks ac.conf) (readEvent udp h env ac) := by
  have hrun : ¬(ac.closing ∨ ac.hung ∨ !(readKind udp h).enabled ac) := by
    simp [hopen, hhung, henabled]
  unfold step
  rw [if_neg hrun]
  cases udp with
  | false => exact onReadReady_readable hread
  | true =>
    obtain ⟨hread', hmode'⟩ := uotArmIdleTimer_reads h
      ((setEnv env ac).log (.event (readKind true h)))
    have hconnect : ((uotArmIdleTimer h ((setEnv env ac).log (.event (readKind true h)))).streams
        h).uotMode = .uotV2Connect := hmode'.trans (hmode rfl)
    show udpReadHandler (outerCallbacks ac.conf) h _ = _
    rw [udpReadHandler, if_pos hconnect]
    exact onReadReady_readable (hread'.trans hread)

/-- No frame of the client can come in while the walk visits a stream: no whole one is held back, or
more than half of the limit waits for streams outside of the walk. Or there is no other stream in
`read_ready` for a frame to close. -/
def ReadsApart (h : Handle) (ac : Connection) : Prop :=
  HoldsNoFrame ac ∨ ac.conf.maxPendingInput / 2 < backlogOutside (h :: ac.readReady) ac ∨
    ∀ g ∈ ac.readReady, g = h

/-- The walk that a read event starts. -/
theorem readEvent_aside (udp : Bool) (h : Handle) (env : Env) (ac : Connection) :
    ac.Aside h (readEvent udp h env ac) := by
  have hlog : ac.Aside h ((setEnv env ac).log (.event (readKind udp h))) :=
    .quiet rfl rfl rfl rfl rfl rfl rfl
  have harm : ac.Aside h (if udp then
      uotArmIdleTimer h ((setEnv env ac).log (.event (readKind udp h)))
      else (setEnv env ac).log (.event (readKind udp h))) :=
    hlog.trans (.ite (fun _ => .uotArmIdleTimer _) fun _ => .refl h _)
  exact harm.trans (.requeueReadReady _)

private theorem readEvent_books (udp : Bool) (h : Handle) (env : Env) (ac : Connection)
    (hknown : ac.books.Known) (hh : h < ac.nstreams) :
    BookRun ac.books (readEvent udp h env ac).books := by
  have hlog : Books.CallsOn h ac ((setEnv env ac).log (.event (readKind udp h))) :=
    .quiet (log_quiet ⟨rfl, rfl, rfl⟩ (setEnv env ac))
  have harm : Books.CallsOn h ac (if udp then
      uotArmIdleTimer h ((setEnv env ac).log (.event (readKind udp h)))
      else (setEnv env ac).log (.event (readKind udp h))) := by
    split_ifs
    · exact hlog.then (.quiet (Books.uotArmIdleTimer h _))
    · exact hlog
  exact (harm.trans (Books.requeueReadReady h _)) hknown hh

/-- With no other stream in `read_ready` there is no node to go on from. -/
theorem drainReads_alone {k : Callbacks} {h : Handle} {ac : Connection}
    (honce : ac.readReady.Nodup) (halone : ∀ g ∈ ac.readReady, g = h) :
    ∃ t, Leads (ReadTurn.next k) (.start ac) t ∧ t.next k = none ∧ drainReads k ac = t.ac := by
  cases hnext : (ReadTurn.start ac).next k with
  | none => exact ⟨_, .refl, hnext, drainReadsLoop_stop hnext _⟩
  | some t =>
    have hlast : t.cur = none := by
      cases hq : ac.readReady with
      | nil =>
        rw [ReadTurn.next, ReadTurn.start, hq] at hnext
        cases hnext
      | cons g q =>
        rw [hq] at honce halone
        have hq' : q = [] := by
          refine List.eq_nil_iff_forall_not_mem.mpr fun g' hg' => ?_
          have hsame : g' = g := (halone g' (List.mem_cons_of_mem _ hg')).trans
            (halone g List.mem_cons_self).symm
          exact (List.nodup_cons.mp honce).1 (hsame ▸ hg')
        subst hq'
        have hsucc : queueNext [g] g = none := by simp [queueNext]
        simp only [ReadTurn.next, ReadTurn.start, hq, List.head?_cons, hsucc] at hnext
        split_ifs at hnext
        · cases hnext
          rfl
        · cases hnext
          rfl
    have hstop : t.next k = none := by
      rw [ReadTurn.next, hlast]
    refine ⟨t, .single hnext, hstop, ?_⟩
    have hfuel : drainReads k ac = drainReadsLoop k (ac.readReady.length + scheduleStreamBudget)
        t.cur t.visits t.left t.ac := drainReadsLoop_next hnext _
    rw [hfuel]
    exact drainReadsLoop_stop hstop (ac.readReady.length + 15)

/-- Streams 1 and 2 are connected, the second to a UDP socket. The first one sends 32 bytes one by
one and stays in `read_ready`. -/
def busyRun : List (Event × Env) :=
  [sampleRead (sampleHello sampleV2 ++ encodeFrame 1 1 [] ++ encodeFrame 2 1 sampleTarget ++
      encodeFrame 1 2 [] ++ encodeFrame 2 2 sampleUot) { connect := [.ok] },
    (.upstreamRead 0, { recv := List.replicate 32 (.data [5]) })]

/-- The client then sends more than the first socket takes, so that its FIN for the second stream is
held back. -/
def heldFinRun : List (Event × Env) :=
  busyRun ++ [sampleRead (encodeFrame 2 1 [1, 2, 3, 4] ++ encodeFrame 3 2 []) { send := [.again] }]

/-- The first socket was reset. -/
def resetEnv : Env := { recv := [.error] }

/-- Whether the walk stands at a node linked to itself. -/
def ReadTurn.atSelfLinked (t : ReadTurn) : Bool :=
  match t.cur with
  | none => false
  | some h => t.visits ≠ 0 && h ∉ t.ac.readReady && !streamReadable (t.ac.streams h)

theorem ReadTurn.selfLinked_of_at {t : ReadTurn} (ht : t.atSelfLinked = true) : t.SelfLinked := by
  obtain ⟨cur, visits, left, ac⟩ := t
  cases cur with
  | none => cases ht
  | some h =>
    simp only [ReadTurn.atSelfLinked, Bool.and_eq_true, decide_eq_true_eq, Bool.not_eq_true'] at ht
    exact ⟨h, rfl, ht.1.1, ht.1.2, ht.2⟩

end NgxAnytls
