import NgxAnytls.Session
import NgxAnytls.Library.KeyedQueue
import Mathlib.Algebra.BigOperators.Group.List.Basic

/-! The datagrams of a packet-mode UoT stream that wait for the address of their name. -/

namespace NgxAnytls

open Library.KeyedQueue

/-- The name and port a datagram waits for. -/
def UotPending.key (p : UotPending) : Bytes × Nat := (p.domain, p.port)

theorem UotPending.isFor_eq (p : UotPending) (domain : Bytes) (port : Nat) :
    p.isFor domain port = decide (p.key = (domain, port)) := by
  simp [UotPending.isFor, UotPending.key]

def queueBytes (q : List UotPending) : Nat := (q.map fun p => p.payload.length).sum

/-- The counters of the queue say what it holds and are within the limits; no empty datagram
waits. -/
structure UotBalanced (h : Handle) (ac : Connection) : Prop where
  count : (ac.streams h).uotPendingCount = (ac.streams h).uotPending.length
  bytes : (ac.streams h).uotPendingBytes = queueBytes (ac.streams h).uotPending
  count_le : (ac.streams h).uotPendingCount ≤ ac.conf.uotPendingPackets
  bytes_le : (ac.streams h).uotPendingBytes ≤ ac.conf.uotPendingBytes
  payload : ∀ p ∈ (ac.streams h).uotPending, p.payload ≠ []

/-- The queue of a stream, its counters and its limits. -/
structure UotSide where
  conf : Conf
  queue : List UotPending
  count : Nat
  bytes : Nat

def uotSide (h : Handle) (ac : Connection) : UotSide :=
  ⟨ac.conf, (ac.streams h).uotPending, (ac.streams h).uotPendingCount,
    (ac.streams h).uotPendingBytes⟩

/-- The queue, its counters and its limits are left alone. -/
def SameQueue (h : Handle) (ac ac' : Connection) : Prop := uotSide h ac' = uotSide h ac

section Frames

variable {h : Handle} {ac ac' ac'' : Connection}

theorem SameQueue.refl (h : Handle) (ac : Connection) : SameQueue h ac ac := rfl

theorem SameQueue.trans (hs : SameQueue h ac ac') (hs' : SameQueue h ac' ac'') :
    SameQueue h ac ac'' := Eq.trans hs' hs

theorem SameQueue.conf (hs : SameQueue h ac ac') : ac'.conf = ac.conf := congrArg UotSide.conf hs

theorem SameQueue.queue (hs : SameQueue h ac ac') :
    (ac'.streams h).uotPending = (ac.streams h).uotPending := congrArg UotSide.queue hs

theorem SameQueue.count (hs : SameQueue h ac ac') :
    (ac'.streams h).uotPendingCount = (ac.streams h).uotPendingCount := congrArg UotSide.count hs

theorem SameQueue.bytes (hs : SameQueue h ac ac') :
    (ac'.streams h).uotPendingBytes = (ac.streams h).uotPendingBytes := congrArg UotSide.bytes hs

theorem SameQueue.balanced (hs : SameQueue h ac ac') (hb : UotBalanced h ac) :
    UotBalanced h ac' where
  count := by rw [hs.count, hs.queue, hb.count]
  bytes := by rw [hs.bytes, hs.queue, hb.bytes]
  count_le := by rw [hs.count, hs.conf]; exact hb.count_le
  bytes_le := by rw [hs.bytes, hs.conf]; exact hb.bytes_le
  payload := by rw [hs.queue]; exact hb.payload

private theorem sameQueue_upd {f : Stream → Stream}
    (hf : ∀ st, (f st).uotPending = st.uotPending ∧
      (f st).uotPendingCount = st.uotPendingCount ∧ (f st).uotPendingBytes = st.uotPendingBytes) :
    SameQueue h ac (ac.upd h f) := by
  obtain ⟨hp, hc, hb⟩ := hf (ac.streams h)
  rw [SameQueue, uotSide, uotSide, Connection.upd_self, hp, hc, hb]
  rfl

private theorem setTarget_same (addr : Addr) (h : Handle) (ac : Connection) :
    SameQueue h ac (setTarget h addr ac) :=
  sameQueue_upd fun _ => ⟨rfl, rfl, rfl⟩

private theorem startLookup_same (target : ResolveTarget) (h : Handle) (ac : Connection) :
    SameQueue h ac (startLookup h target ac) :=
  sameQueue_upd fun _ => ⟨rfl, rfl, rfl⟩

private theorem resolverCancel_same (h : Handle) (ac : Connection) :
    SameQueue h ac (resolverCancel h ac) :=
  sameQueue_upd fun _ => ⟨rfl, rfl, rfl⟩

private theorem endLookup_same (h : Handle) (ac : Connection) : SameQueue h ac (endLookup h ac) :=
  sameQueue_upd fun _ => ⟨rfl, rfl, rfl⟩

private theorem copyAddr_same (sa : SockAddr) (h : Handle) (ac : Connection) :
    SameQueue h ac (copyAddr h sa ac) :=
  sameQueue_upd fun _ => ⟨rfl, rfl, rfl⟩

private theorem clearResolverTarget_same (h : Handle) (ac : Connection) :
    SameQueue h ac (clearResolverTarget h ac) :=
  sameQueue_upd fun _ => ⟨rfl, rfl, rfl⟩

private theorem setUdp_same (udp : Option Family) (h : Handle) (ac : Connection) :
    SameQueue h ac (setUdp h udp ac) :=
  sameQueue_upd fun _ => ⟨rfl, rfl, rfl⟩

private theorem uotArmIdleTimer_same (h : Handle) (ac : Connection) :
    SameQueue h ac (uotArmIdleTimer h ac) := by
  unfold uotArmIdleTimer
  split_ifs
  · exact .refl h ac
  · exact sameQueue_upd fun _ => ⟨rfl, rfl, rfl⟩

private theorem udpSocket_same (family : Family) (h : Handle) (ac : Connection) :
    SameQueue h ac (udpSocket h family ac).2 := by
  unfold udpSocket
  dsimp only
  split_ifs
  · exact .refl h ac
  · exact setUdp_same none h ac
  · have hopen : SameQueue h ac (setUdp h (some family) (setUdp h none ac).udpOpenNext) :=
      (setUdp_same none h ac).trans (setUdp_same (some family) h _)
    exact hopen.trans (uotArmIdleTimer_same h _)

private theorem uotUpstreamStateOpen_same (h : Handle) (ac : Connection) :
    SameQueue h ac (uotUpstreamStateOpen h ac).2 := by
  unfold uotUpstreamStateOpen
  split_ifs
  · exact .refl h ac
  · exact .refl h ac
  · exact sameQueue_upd fun _ => ⟨rfl, rfl, rfl⟩

private theorem uotSendResolved_same (dst : Option SockAddr) (payload : Bytes) (h : Handle)
    (ac : Connection) : SameQueue h ac (uotSendResolved h dst payload ac).2 := by
  unfold uotSendResolved
  split_ifs
  · exact .refl h ac
  · cases dst with
    | none => exact .refl h ac
    | some sa =>
      dsimp only
      have hsocket := udpSocket_same sa.family h ac
      have hstate := hsocket.trans (uotUpstreamStateOpen_same h (udpSocket h sa.family ac).2)
      split_ifs
      · exact hsocket
      · exact hstate
      · exact hstate

private theorem resolveSync_same (h : Handle) (ac : Connection) :
    SameQueue h ac (resolveSync h ac).2 ∧ (resolveSync h ac).1 ≠ .again := by
  unfold resolveSync
  split
  · exact ⟨.refl h ac, nofun⟩
  · exact ⟨setTarget_same _ h ac.hostNext, nofun⟩

/-- A lookup fails, succeeds or waits, or it is answered before it returns. -/
theorem resolveAddr_cases (h : Handle) (target : ResolveTarget) (ac : Connection) :
    (∃ r, SameQueue h ac r.2 ∧ ∀ k, resolveAddr k h target ac = r) ∨
      ∃ a ac', SameQueue h ac ac' ∧ (ac'.streams h).target = (ac.streams h).target ∧
        (ac.streams h).target.host ≠ [] ∧
        ∀ k, resolveAddr k h target ac = (.again, k.resolved h a (startLookup h target ac')) := by
  simp only [resolveAddr]
  split_ifs with hknown hhost hresolver hpending halloc
  · exact .inl ⟨_, .refl h ac, fun _ => rfl⟩
  · exact .inl ⟨_, .refl h ac, fun _ => rfl⟩
  · exact .inl ⟨_, (resolveSync_same h ac).1, fun _ => rfl⟩
  · exact .inl ⟨_, .refl h ac, fun _ => rfl⟩
  · cases ac.lookupRes with
    | startFailed => exact .inl ⟨_, .refl h ac, fun _ => rfl⟩
    | noResolver => exact .inl ⟨_, (resolveSync_same h ac.lookupNext).1, fun _ => rfl⟩
    | nameFailed | pending | done => exact .inl ⟨_, .refl h ac, fun _ => rfl⟩
  · have hne : (ac.streams h).target.host ≠ [] := by
      intro hnil
      exact hhost (.inl (by rw [hnil]; rfl))
    have hstart : SameQueue h ac (startLookup h target ac.lookupNext.allocNext) :=
      startLookup_same target h ac.lookupNext.allocNext
    cases ac.lookupRes with
    | startFailed => exact .inl ⟨_, .refl h ac, fun _ => rfl⟩
    | noResolver => exact .inl ⟨_, (resolveSync_same h ac.lookupNext).1, fun _ => rfl⟩
    | nameFailed => exact .inl ⟨_, hstart.trans (resolverCancel_same h _), fun _ => rfl⟩
    | pending => exact .inl ⟨_, hstart, fun _ => rfl⟩
    | done a => exact .inr ⟨a, ac.lookupNext.allocNext, .refl h ac, rfl, hne, fun _ => rfl⟩

end Frames

section Removal

variable {h : Handle} {ac ac' : Connection} {p : UotPending}

@[simp] theorem uotRemovePending_queue (h : Handle) (p : UotPending) (ac : Connection) :
    ((uotRemovePending h p ac).streams h).uotPending = (ac.streams h).uotPending.erase p := by
  rw [uotRemovePending, Connection.upd_self]

private theorem queueBytes_erase {q : List UotPending} (hp : p ∈ q) :
    p.payload.length + queueBytes (q.erase p) = queueBytes q :=
  List.sum_map_erase (fun p : UotPending => p.payload.length) hp

/-- A datagram of the queue leaves it, and the counters with it. -/
theorem UotBalanced.remove (hb : UotBalanced h ac) (hp : p ∈ (ac.streams h).uotPending) :
    UotBalanced h (uotRemovePending h p ac) := by
  have hbytes := queueBytes_erase hp
  have hlen := List.length_erase_of_mem hp
  have hcount_le := hb.count_le
  have hbytes_le := hb.bytes_le
  have hcount := hb.count
  have htotal := hb.bytes
  constructor
  · rw [uotRemovePending_queue, uotRemovePending, Connection.upd_self]
    show (ac.streams h).uotPendingCount - 1 = _
    omega
  · rw [uotRemovePending_queue, uotRemovePending, Connection.upd_self]
    show (ac.streams h).uotPendingBytes - p.payload.length = _
    omega
  · rw [uotRemovePending, Connection.upd_self]
    show (ac.streams h).uotPendingCount - 1 ≤ ac.conf.uotPendingPackets
    omega
  · rw [uotRemovePending, Connection.upd_self]
    show (ac.streams h).uotPendingBytes - p.payload.length ≤ ac.conf.uotPendingBytes
    omega
  · rw [uotRemovePending_queue]
    intro b hmem
    exact hb.payload b (List.mem_of_mem_erase hmem)

/-- The first datagram of a name leaves the others in their order. -/
theorem erase_first {q₁ q₂ : List UotPending} (hfirst : ∀ b ∈ q₁, b.key ≠ p.key) :
    (q₁ ++ p :: q₂).erase p = q₁ ++ q₂ := by
  have hnot : p ∉ q₁ := fun hp => hfirst p hp rfl
  rw [List.erase_append_right _ hnot, List.erase_cons_head]

/-- The removals of `ngx_anytls_uot_drop_pending_domain` behind the datagrams it passed. -/
theorem uotRemoveAll_spec (domain : Bytes) (port : Nat) (rest done : List UotPending)
    (ac : Connection) (hq : (ac.streams h).uotPending = done ++ rest)
    (hdone : ∀ b ∈ done, b.key ≠ (domain, port)) :
    ((((rest.filter fun p => p.isFor domain port).foldl
        (fun ac p => uotRemovePending h p ac) ac).streams h).uotPending =
      done ++ notOfKey UotPending.key (domain, port) rest) ∧
    (UotBalanced h ac → UotBalanced h ((rest.filter fun p => p.isFor domain port).foldl
      (fun ac p => uotRemovePending h p ac) ac)) := by
  induction rest generalizing done ac with
  | nil => exact ⟨hq, id⟩
  | cons p rest ih =>
    by_cases hp : p.key = (domain, port)
    · have hfirst : ∀ b ∈ done, b.key ≠ p.key := fun b hb => hp ▸ hdone b hb
      have hremoved : ((uotRemovePending h p ac).streams h).uotPending = done ++ rest := by
        rw [uotRemovePending_queue, hq, erase_first hfirst]
      obtain ⟨hqueue, hbal⟩ := ih done (uotRemovePending h p ac) hremoved hdone
      have hfor : p.isFor domain port = true := by simp [UotPending.isFor_eq, hp]
      rw [List.filter_cons_of_pos (by simpa using hfor), List.foldl_cons, notOfKey,
        List.filter_cons_of_neg (by simp [hp])]
      refine ⟨hqueue, fun hb => hbal (hb.remove ?_)⟩
      rw [hq]
      exact List.mem_append_right _ List.mem_cons_self
    · have hpassed : ∀ b ∈ done ++ [p], b.key ≠ (domain, port) := by
        intro b hb
        rcases List.mem_append.mp hb with hb | hb
        · exact hdone b hb
        · rw [List.mem_singleton.mp hb]
          exact hp
      obtain ⟨hqueue, hbal⟩ := ih (done ++ [p]) ac (by rw [hq, List.append_assoc]; rfl) hpassed
      have hfor : ¬p.isFor domain port = true := by simp [UotPending.isFor_eq, hp]
      rw [List.filter_cons_of_neg (by simpa using hfor), notOfKey,
        List.filter_cons_of_pos (by simp [hp])]
      refine ⟨?_, hbal⟩
      rw [hqueue, List.append_assoc]
      rfl

@[simp] theorem uotDropPendingDomain_queue (domain : Bytes) (port : Nat) (h : Handle)
    (ac : Connection) : ((uotDropPendingDomain h domain port ac).streams h).uotPending =
      notOfKey UotPending.key (domain, port) (ac.streams h).uotPending :=
  (uotRemoveAll_spec domain port _ [] ac rfl (by simp)).1

theorem UotBalanced.drop (hb : UotBalanced h ac) (domain : Bytes) (port : Nat) :
    UotBalanced h (uotDropPendingDomain h domain port ac) :=
  (uotRemoveAll_spec domain port _ [] ac rfl (by simp)).2 hb

end Removal

/-- One change of the queue, and the datagrams it is about. -/
inductive UotAct (h : Handle) : Connection → List (Mark UotPending) → Connection → Prop
  /-- the queue is left alone -/
  | quiet {ac ac'} (hs : SameQueue h ac ac') : UotAct h ac [] ac'
  /-- a datagram that fits within the limits comes in -/
  | enter {ac} (p : UotPending) (hpayload : p.payload ≠ [])
      (hcount : (ac.streams h).uotPendingCount < ac.conf.uotPendingPackets)
      (hbytes : (ac.streams h).uotPendingBytes + p.payload.length ≤ ac.conf.uotPendingBytes) :
      UotAct h ac [.admitted p] (uotAddPending h p ac)
  /-- the first datagram of its name is handed to the socket -/
  | deliver {ac ac' : Connection} (sa : SockAddr) (p : UotPending) (q₁ q₂ : List UotPending)
      (hq : (ac.streams h).uotPending = q₁ ++ p :: q₂) (hfirst : ∀ b ∈ q₁, b.key ≠ p.key)
      (hsent : uotSendResolved h (some sa) p.payload ac =
        (.ok, ac'.log (.udpSend h sa p.payload))) :
      UotAct h ac [.delivered p] (uotRemovePending h p (ac'.log (.udpSend h sa p.payload)))
  /-- a datagram could not be sent: those of its name are dropped -/
  | sendFailed {ac} (dst : Option SockAddr) (p : UotPending) (hp : p ∈ (ac.streams h).uotPending)
      (hfailed : (uotSendResolved h dst p.payload ac).1 ≠ .ok) :
      UotAct h ac ((ofKey UotPending.key p.key (ac.streams h).uotPending).map .failed)
        (uotDropPendingDomain h p.domain p.port (uotSendResolved h dst p.payload ac).2)
  /-- the lookup of a datagram's name failed at once: those of its name are dropped -/
  | lookupFailed {ac} (k : Callbacks) (p : UotPending) (hp : p ∈ (ac.streams h).uotPending)
      (hfailed : (resolveAddr k h .uotPacket
        (setTarget h { host := p.domain, port := p.port } ac)).1 = .error) :
      UotAct h ac ((ofKey UotPending.key p.key (ac.streams h).uotPending).map .failed)
        (uotDropPendingDomain h p.domain p.port (resolveAddr k h .uotPacket
          (setTarget h { host := p.domain, port := p.port } ac)).2)
  /-- the lookup is answered without an address: the datagrams of its name are dropped -/
  | answerFailed {ac} (a : Answer) (hctx : (ac.streams h).resolverCtx = true)
      (hlook : (ac.streams h).resolverTarget = .uotPacket) (hanswer : usableAddr a = none) :
      UotAct h ac ((ofKey UotPending.key
          ((ac.streams h).resolverDomain, (ac.streams h).resolverPort)
          (ac.streams h).uotPending).map .failed)
        (uotDropPendingDomain h (ac.streams h).resolverDomain (ac.streams h).resolverPort
          (clearResolverTarget h (endLookup h ac)))
  /-- the UDP side of the stream is closed, its socket and its timer with it -/
  | close {ac} : UotAct h ac ((ac.streams h).uotPending.map .cleared) (uotClose h ac)
  /-- the stream is closed -/
  | clear {ac} (hclosed : (ac.streams h).state = .closed) :
      UotAct h ac ((ac.streams h).uotPending.map .cleared) (clearUotPending h ac)

/-- Any number of changes. -/
inductive UotActs (h : Handle) : Connection → List (Mark UotPending) → Connection → Prop
  | refl (ac : Connection) : UotActs h ac [] ac
  | tail {ac ac' ac'' : Connection} {m m' : List (Mark UotPending)} (hs : UotActs h ac m ac')
      (ha : UotAct h ac' m' ac'') : UotActs h ac (m ++ m') ac''

section Acts

variable {h : Handle} {ac ac' ac'' : Connection} {m m' : List (Mark UotPending)}

/-- A failed lookup leaves the queue alone. -/
theorem resolveAddr_same_of_failed {k : Callbacks} {target : ResolveTarget}
    (hr : (resolveAddr k h target ac).1 ≠ .again) :
    SameQueue h ac (resolveAddr k h target ac).2 := by
  rcases resolveAddr_cases h target ac with ⟨r, hs, heq⟩ | ⟨a, ac', -, -, -, heq⟩
  · rw [heq]
    exact hs
  · rw [heq] at hr
    exact absurd rfl hr

private theorem closeUdp_same (h : Handle) (ac : Connection) : SameQueue h ac (closeUdp h ac) :=
  sameQueue_upd fun _ => ⟨rfl, rfl, rfl⟩

private theorem clearUotPending_queue (h : Handle) (ac : Connection) :
    ((clearUotPending h ac).streams h).uotPending = [] := by
  rw [clearUotPending, Connection.upd_self]

private theorem clearUotPending_balanced (h : Handle) (ac : Connection) :
    UotBalanced h (clearUotPending h ac) := by
  constructor <;> rw [clearUotPending, Connection.upd_self]
  · rfl
  · rfl
  · exact Nat.zero_le _
  · exact Nat.zero_le _
  · exact nofun

/-- A change of the session is a change of the queue. -/
theorem UotAct.step (ha : UotAct h ac m ac') :
    Steps UotPending.key (ac.streams h).uotPending m (ac'.streams h).uotPending := by
  cases ha with
  | quiet hs =>
    rw [hs.queue]
    exact .refl _
  | enter p _ _ _ =>
    have hadd : ((uotAddPending h p ac).streams h).uotPending =
        (ac.streams h).uotPending ++ [p] := by rw [uotAddPending, Connection.upd_self]
    rw [hadd]
    exact .single (.enter _ p)
  | deliver sa p q₁ q₂ hq hfirst hsent =>
    have hsame := uotSendResolved_same (some sa) p.payload h ac
    rw [hsent] at hsame
    rw [uotRemovePending_queue, hsame.queue, hq, erase_first hfirst]
    exact .single (.deliver q₁ q₂ p hfirst)
  | sendFailed dst p hp _ =>
    have hsame := uotSendResolved_same dst p.payload h ac
    rw [uotDropPendingDomain_queue, hsame.queue]
    exact .single (.fail _ p.key)
  | lookupFailed k p hp hfailed =>
    have htarget := setTarget_same { host := p.domain, port := p.port } h ac
    have hsame := htarget.trans (resolveAddr_same_of_failed (k := k) (by rw [hfailed]; decide))
    rw [uotDropPendingDomain_queue, hsame.queue]
    exact .single (.fail _ p.key)
  | answerFailed a _ _ _ =>
    have hsame := (endLookup_same h ac).trans (clearResolverTarget_same h _)
    rw [uotDropPendingDomain_queue, hsame.queue]
    exact .single (.fail _ _)
  | close =>
    rw [uotClose, (closeUdp_same h _).queue, clearUotPending_queue]
    exact .single (.clear _)
  | clear =>
    rw [clearUotPending_queue]
    exact .single (.clear _)

/-- A change keeps the counters right and within the limits. -/
theorem UotAct.balanced (ha : UotAct h ac m ac') (hb : UotBalanced h ac) : UotBalanced h ac' := by
  cases ha with
  | quiet hs => exact hs.balanced hb
  | enter p hpayload hcount hbytes =>
    have hcount' := hb.count
    have hbytes' := hb.bytes
    constructor
    · rw [uotAddPending, Connection.upd_self]
      show (ac.streams h).uotPendingCount + 1 = ((ac.streams h).uotPending ++ [p]).length
      rw [List.length_append, hcount', List.length_singleton]
    · rw [uotAddPending, Connection.upd_self]
      show (ac.streams h).uotPendingBytes + p.payload.length =
        queueBytes ((ac.streams h).uotPending ++ [p])
      rw [hbytes', queueBytes, queueBytes, List.map_append, List.sum_append, List.map_singleton,
        List.sum_singleton]
    · rw [uotAddPending, Connection.upd_self]
      exact hcount
    · rw [uotAddPending, Connection.upd_self]
      exact hbytes
    · rw [uotAddPending, Connection.upd_self]
      intro b hmem
      rcases List.mem_append.mp hmem with hmem | hmem
      · exact hb.payload b hmem
      · rw [List.mem_singleton.mp hmem]
        exact hpayload
  | deliver sa p q₁ q₂ hq _ hsent =>
    have hsame := uotSendResolved_same (some sa) p.payload h ac
    rw [hsent] at hsame
    apply (hsame.balanced hb).remove
    rw [hsame.queue, hq]
    exact List.mem_append_right _ List.mem_cons_self
  | sendFailed dst p _ _ => exact ((uotSendResolved_same dst p.payload h ac).balanced hb).drop _ _
  | lookupFailed k p _ hfailed =>
    have htarget := setTarget_same { host := p.domain, port := p.port } h ac
    have hsame := htarget.trans (resolveAddr_same_of_failed (k := k) (by rw [hfailed]; decide))
    exact (hsame.balanced hb).drop _ _
  | answerFailed a _ _ _ =>
    have hsame := (endLookup_same h ac).trans (clearResolverTarget_same h _)
    exact (hsame.balanced hb).drop _ _
  | close => exact (closeUdp_same h _).balanced (clearUotPending_balanced h _)
  | clear => exact clearUotPending_balanced h _

theorem UotActs.single (ha : UotAct h ac m ac') : UotActs h ac m ac' := (UotActs.refl ac).tail ha

theorem UotActs.quiet (hs : SameQueue h ac ac') : UotActs h ac [] ac' := .single (.quiet hs)

theorem UotActs.trans (hs : UotActs h ac m ac') (hs' : UotActs h ac' m' ac'') :
    UotActs h ac (m ++ m') ac'' := by
  induction hs' with
  | refl => rwa [List.append_nil]
  | tail _ ha ih =>
    rw [← List.append_assoc]
    exact ih.tail ha

theorem UotActs.steps (hs : UotActs h ac m ac') :
    Steps UotPending.key (ac.streams h).uotPending m (ac'.streams h).uotPending := by
  induction hs with
  | refl => exact .refl _
  | tail _ ha ih => exact ih.trans ha.step

theorem UotActs.balanced (hs : UotActs h ac m ac') (hb : UotBalanced h ac) : UotBalanced h ac' := by
  induction hs with
  | refl => exact hb
  | tail _ ha ih => exact ha.balanced ih

end Acts

/-- From a balanced queue, the change from one session to another is made of such changes. -/
def UotReaches (h : Handle) (ac ac' : Connection) : Prop :=
  UotBalanced h ac → ∃ m, UotActs h ac m ac'

section Reaching

variable {h : Handle} {ac ac' ac'' : Connection} {k : Callbacks}

theorem UotReaches.quiet (hs : SameQueue h ac ac') : UotReaches h ac ac' :=
  fun _ => ⟨[], .quiet hs⟩

theorem UotReaches.refl (h : Handle) (ac : Connection) : UotReaches h ac ac :=
  fun _ => ⟨[], .refl ac⟩

theorem UotReaches.single {m : List (Mark UotPending)} (ha : UotAct h ac m ac') :
    UotReaches h ac ac' := fun _ => ⟨m, .single ha⟩

theorem UotReaches.trans (hr : UotReaches h ac ac') (hr' : UotReaches h ac' ac'') :
    UotReaches h ac ac'' := by
  intro hb
  obtain ⟨m, hm⟩ := hr hb
  obtain ⟨m', hm'⟩ := hr' (hm.balanced hb)
  exact ⟨m ++ m', hm.trans hm'⟩

/-- A datagram that is sent is given to `sendto` last. -/
theorem uotSendResolved_sent {dst : Option SockAddr} {payload : Bytes} (hpayload : payload ≠ [])
    (hok : (uotSendResolved h dst payload ac).1 = .ok) :
    ∃ (sa : SockAddr) (ac' : Connection), dst = some sa ∧
      uotSendResolved h (some sa) payload ac = (.ok, ac'.log (.udpSend h sa payload)) := by
  cases dst with
  | none =>
    rw [uotSendResolved, if_neg hpayload] at hok
    cases hok
  | some sa =>
    rw [uotSendResolved, if_neg hpayload] at hok
    refine ⟨sa, (uotUpstreamStateOpen h (udpSocket h sa.family ac).2).2, rfl, ?_⟩
    rw [uotSendResolved, if_neg hpayload]
    dsimp only at hok ⊢
    split_ifs at hok ⊢
    rfl

/-- The datagrams of the name are sent one by one, and the first that cannot be sent takes the
others of its name along. None of the name is left. -/
theorem uotFlushLoop_spec (domain : Bytes) (port : Nat) (dst : Option SockAddr)
    (rest done : List UotPending) (ac : Connection)
    (hq : (ac.streams h).uotPending = done ++ rest)
    (hdone : ∀ b ∈ done, b.key ≠ (domain, port)) :
    UotReaches h ac (uotFlushLoop h domain port dst rest ac) ∧
      ((uotFlushLoop h domain port dst rest ac).streams h).uotPending =
        done ++ notOfKey UotPending.key (domain, port) rest := by
  induction rest generalizing done ac with
  | nil => exact ⟨.refl h ac, hq⟩
  | cons p rest ih =>
    unfold uotFlushLoop
    by_cases hp : p.key = (domain, port)
    · have hfor : p.isFor domain port = true := by simp [UotPending.isFor_eq, hp]
      have hfirst : ∀ b ∈ done, b.key ≠ p.key := fun b hb => hp ▸ hdone b hb
      have hsame := uotSendResolved_same dst p.payload h ac
      have hname : domain = p.domain ∧ port = p.port := by
        have hpair := Prod.mk.inj hp
        exact ⟨hpair.1.symm, hpair.2.symm⟩
      rw [hfor, Bool.not_true, if_neg Bool.false_ne_true, notOfKey,
        List.filter_cons_of_neg (by simp [hp])]
      dsimp only
      split_ifs with hsent
      · have hact : UotAct h ac _ (uotDropPendingDomain h p.domain p.port
            (uotSendResolved h dst p.payload ac).2) :=
          .sendFailed dst p (by rw [hq]; exact List.mem_append_right _ List.mem_cons_self) hsent
        have hkept : done.filter (fun b => decide ¬b.key = (domain, port)) = done := by
          apply List.filter_eq_self.mpr
          intro b hb
          simpa using hdone b hb
        rw [hname.1, hname.2] at hkept ⊢
        refine ⟨.single hact, ?_⟩
        rw [uotDropPendingDomain_queue, hsame.queue, hq, notOfKey, List.filter_append, hkept,
          List.filter_cons_of_neg (by simp [UotPending.key])]
      · have hok : (uotSendResolved h dst p.payload ac).1 = .ok := by
          by_contra hne
          exact hsent hne
        have hact : UotReaches h ac
            (uotRemovePending h p (uotSendResolved h dst p.payload ac).2) := by
          intro hb
          have hmem : p ∈ (ac.streams h).uotPending := by
            rw [hq]
            exact List.mem_append_right _ List.mem_cons_self
          obtain ⟨sa, ac', rfl, heq⟩ := uotSendResolved_sent (hb.payload p hmem) hok
          rw [heq]
          exact ⟨_, .single (.deliver sa p done rest hq hfirst heq)⟩
        have hleft : ((uotRemovePending h p (uotSendResolved h dst p.payload ac).2).streams
            h).uotPending = done ++ rest := by
          rw [uotRemovePending_queue, hsame.queue, hq, erase_first hfirst]
        obtain ⟨hrest, hqueue⟩ := ih done _ hleft hdone
        exact ⟨hact.trans hrest, hqueue⟩
    · have hfor : p.isFor domain port = false := by simp [UotPending.isFor_eq, hp]
      have hpassed : ∀ b ∈ done ++ [p], b.key ≠ (domain, port) := by
        intro b hb
        rcases List.mem_append.mp hb with hb | hb
        · exact hdone b hb
        · rw [List.mem_singleton.mp hb]
          exact hp
      obtain ⟨hrest, hqueue⟩ := ih (done ++ [p]) ac (by rw [hq, List.append_assoc]; rfl) hpassed
      rw [hfor, Bool.not_false, if_pos rfl, notOfKey, List.filter_cons_of_pos (by simp [hp])]
      refine ⟨hrest, ?_⟩
      rw [hqueue, List.append_assoc]
      rfl

private theorem uotFlushPendingDomain_reaches (domain : Bytes) (port : Nat) (h : Handle)
    (ac : Connection) : UotReaches h ac (uotFlushPendingDomain h domain port ac) :=
  (uotFlushLoop_spec domain port _ _ [] ac rfl (by simp)).1

@[simp] theorem uotFlushPendingDomain_queue (domain : Bytes) (port : Nat) (h : Handle)
    (ac : Connection) : ((uotFlushPendingDomain h domain port ac).streams h).uotPending =
      notOfKey UotPending.key (domain, port) (ac.streams h).uotPending :=
  (uotFlushLoop_spec domain port _ _ [] ac rfl (by simp)).2

end Reaching

/-- The queue after an answer, before the next name is looked up. -/
def uotAnswered (h : Handle) (a : Answer) (ac : Connection) : Connection :=
  let domain := (ac.streams h).resolverDomain
  let port := (ac.streams h).resolverPort
  match usableAddr a with
  | none =>
    let ac := clearResolverTarget h (endLookup h ac)
    if domain ≠ [] then uotDropPendingDomain h domain port ac else ac
  | some sa => uotFlushPendingDomain h domain port
      (clearResolverTarget h (copyAddr h sa (endLookup h ac)))

section Answers

variable {h : Handle} {ac ac' : Connection} {k k' : Callbacks}

/-- The answer to a packet's lookup closes nothing. -/
theorem resolveHandler_packet (hctx : (ac.streams h).resolverCtx = true)
    (htarget : (ac.streams h).resolverTarget = .uotPacket) (a : Answer) :
    resolveHandler k h a ac = uotProcessPending k h (uotAnswered h a ac) := by
  unfold resolveHandler uotAnswered
  rw [hctx, Bool.not_true, if_neg Bool.false_ne_true]
  cases usableAddr a with
  | none =>
    have hend : ((endLookup h ac).streams h).resolverTarget = .uotPacket := by
      rw [endLookup, Connection.upd_self]
      exact htarget
    simp only [muxResolveError, hend, uotPacketResolveFailed]
    rw [endLookup, Connection.upd_self]
  | some sa =>
    have hcopy : ((copyAddr h sa (endLookup h ac)).streams h).resolverTarget = .uotPacket := by
      rw [copyAddr, Connection.upd_self, endLookup, Connection.upd_self]
      exact htarget
    have hfound : ((copyAddr h sa (endLookup h ac)).streams h).target.sockaddr.isNone = false := by
      rw [copyAddr, Connection.upd_self]
      rfl
    simp only [muxResolveOk, hcopy, uotPacketResolved, hfound, if_neg Bool.false_ne_true]
    rw [if_neg (show ¬Rc.ok ≠ Rc.ok from fun hne => hne rfl)]
    have hdomain : ((copyAddr h sa (endLookup h ac)).streams h).resolverDomain =
        (ac.streams h).resolverDomain := by
      rw [copyAddr, Connection.upd_self, endLookup, Connection.upd_self]
    have hport : ((copyAddr h sa (endLookup h ac)).streams h).resolverPort =
        (ac.streams h).resolverPort := by
      rw [copyAddr, Connection.upd_self, endLookup, Connection.upd_self]
    rw [hdomain, hport]

private theorem uotAnswered_reaches (hctx : (ac.streams h).resolverCtx = true)
    (hlook : (ac.streams h).resolverTarget = .uotPacket) (a : Answer) :
    UotReaches h ac (uotAnswered h a ac) := by
  unfold uotAnswered
  cases hanswer : usableAddr a with
  | none =>
    dsimp only
    split_ifs
    · exact .single (.answerFailed a hctx hlook hanswer)
    · exact .quiet ((endLookup_same h ac).trans (clearResolverTarget_same h _))
  | some sa =>
    have hcopy := (endLookup_same h ac).trans (copyAddr_same sa h _)
    have hclear := hcopy.trans (clearResolverTarget_same h _)
    exact (UotReaches.quiet hclear).trans (uotFlushPendingDomain_reaches _ _ h _)

/-- The answer takes the datagrams of its name out of the queue. -/
theorem uotAnswered_queue (a : Answer) (hdomain : (ac.streams h).resolverDomain ≠ []) :
    ((uotAnswered h a ac).streams h).uotPending = notOfKey UotPending.key
      ((ac.streams h).resolverDomain, (ac.streams h).resolverPort)
      (ac.streams h).uotPending := by
  unfold uotAnswered
  cases usableAddr a with
  | none =>
    have hsame := (endLookup_same h ac).trans (clearResolverTarget_same h _)
    dsimp only
    rw [if_pos hdomain, uotDropPendingDomain_queue, hsame.queue]
  | some sa =>
    have hcopy := (endLookup_same h ac).trans (copyAddr_same sa h _)
    have hclear := hcopy.trans (clearResolverTarget_same h _)
    dsimp only
    rw [uotFlushPendingDomain_queue, hclear.queue]

/-- The resolver answers a packet's lookup before it returns. -/
def PacketAnswers (h : Handle) (k : Callbacks) : Prop :=
  ∀ a ac, (ac.streams h).resolverCtx = true → (ac.streams h).resolverTarget = .uotPacket →
    UotReaches h ac (k.resolved h a ac)

theorem startLookup_ctx (target : ResolveTarget) (h : Handle) (ac : Connection) :
    ((startLookup h target ac).streams h).resolverCtx = true ∧
      ((startLookup h target ac).streams h).resolverTarget = target ∧
      ((startLookup h target ac).streams h).resolverDomain = (ac.streams h).target.host ∧
      ((startLookup h target ac).streams h).resolverPort = (ac.streams h).target.port := by
  rw [startLookup, Connection.upd_self]
  exact ⟨rfl, rfl, rfl, rfl⟩

private theorem resolveAddr_reaches (hk : PacketAnswers h k) (ac : Connection) :
    UotReaches h ac (resolveAddr k h .uotPacket ac).2 := by
  rcases resolveAddr_cases h .uotPacket ac with ⟨r, hs, heq⟩ | ⟨a, ac', hs, -, -, heq⟩
  · rw [heq]
    exact .quiet hs
  · obtain ⟨hctx, htarget, -, -⟩ := startLookup_ctx .uotPacket h ac'
    rw [heq]
    have hstart := hs.trans (startLookup_same .uotPacket h ac')
    exact (UotReaches.quiet hstart).trans (hk a _ hctx htarget)

/-- The loop over the names of the queue. -/
theorem uotProcessLoop_reaches (hk : PacketAnswers h k) (fuel : Nat) (ac : Connection) :
    UotReaches h ac (uotProcessLoop k h fuel ac) := by
  induction fuel generalizing ac with
  | zero => exact .refl h ac
  | succ fuel ih =>
    unfold uotProcessLoop
    cases hq : (ac.streams h).uotPending with
    | nil => exact .refl h ac
    | cons p q =>
      dsimp only
      split_ifs
      · exact .refl h ac
      have htarget := setTarget_same { host := p.domain, port := p.port } h ac
      have hresolve := resolveAddr_reaches hk
        (setTarget h { host := p.domain, port := p.port } ac)
      cases hrc : (resolveAddr k h .uotPacket
          (setTarget h { host := p.domain, port := p.port } ac)).1 with
      | again => exact (UotReaches.quiet htarget).trans hresolve
      | error =>
        have hmem : p ∈ (ac.streams h).uotPending := by rw [hq]; exact List.mem_cons_self
        exact (UotReaches.single (.lookupFailed k p hmem hrc)).trans (ih _)
      | ok =>
        have hflush := uotFlushPendingDomain_reaches p.domain p.port h (resolveAddr k h .uotPacket
          (setTarget h { host := p.domain, port := p.port } ac)).2
        exact (UotReaches.quiet htarget).trans (hresolve.trans (hflush.trans (ih _)))

private theorem resolveHandler_reaches (hk : PacketAnswers h k)
    (hctx : (ac.streams h).resolverCtx = true)
    (htarget : (ac.streams h).resolverTarget = .uotPacket) (a : Answer) :
    UotReaches h ac (resolveHandler k h a ac) := by
  rw [resolveHandler_packet hctx htarget]
  exact (uotAnswered_reaches hctx htarget a).trans (uotProcessLoop_reaches hk _ _)

/-- However deep the answers are nested. -/
theorem callbacks_answer (process : Bytes → Connection → Rc × Connection) (depth : Nat)
    (h : Handle) : PacketAnswers h (callbacks process depth) := by
  induction depth with
  | zero => exact fun _ ac _ _ => .refl h ac
  | succ depth ih => exact fun a ac hctx htarget => resolveHandler_reaches ih hctx htarget a

private theorem uotEnqueuePending_reaches (addr : Addr) (payload : Bytes) (h : Handle)
    (ac : Connection) :
    UotReaches h ac (uotEnqueuePending h addr payload ac).2 := by
  unfold uotEnqueuePending
  dsimp only
  split_ifs with hempty hfull
  · exact .refl h ac
  · exact .refl h ac
  · exact .quiet (.refl h ac)
  · exact .quiet (.refl h ac)
  · obtain ⟨hcount, hbytes⟩ := not_or.mp hfull
    have hpayload : payload ≠ [] := fun hnil => hempty (.inr (.inr hnil))
    have hnext : SameQueue h ac ac.allocNext.allocNext := .refl h ac
    exact (UotReaches.quiet hnext).trans (.single (.enter ⟨addr.host, addr.port, payload⟩
      hpayload (not_le.mp hcount) (not_lt.mp hbytes)))

/-- A datagram of a packet-mode stream. -/
theorem uotSendPayload_reaches (hk : PacketAnswers h k) (addr : Addr) (payload : Bytes)
    (hmode : (ac.streams h).uotMode ≠ .uotV2Connect) :
    UotReaches h ac (uotSendPayload k h addr payload ac).2 := by
  unfold uotSendPayload
  split_ifs
  · exact .quiet (uotSendResolved_same _ payload h ac)
  · have henqueue := uotEnqueuePending_reaches addr payload h ac
    unfold uotSendDomainPacket
    dsimp only
    split_ifs
    · exact henqueue
    · exact henqueue.trans (uotProcessLoop_reaches hk _ _)
    · exact henqueue

end Answers

section Bounds

variable {h : Handle} {ac : Connection}

/-- A queue is shorter without the datagrams of its head's name. -/
theorem length_notOfKey_lt {q : List UotPending} {p : UotPending} (hp : p ∈ q) :
    (notOfKey UotPending.key (p.domain, p.port) q).length < q.length := by
  apply List.length_filter_lt_length_iff_exists.mpr
  exact ⟨p, hp, by simp [UotPending.key]⟩

private theorem uotProcessLoop_nil (hnil : (ac.streams h).uotPending = []) {k : Callbacks}
    {fuel : Nat} :
    uotProcessLoop k h fuel ac = ac := by
  cases fuel with
  | zero => rfl
  | succ fuel => simp only [uotProcessLoop, hnil]

/-- Turns and nested answers beyond the length of the queue change nothing: the loop ends, and the
answers stop nesting, with the queue's datagrams. -/
theorem uotProcessLoop_bounds (process process' : Bytes → Connection → Rc × Connection) (n : Nat)
    (ac : Connection) (hn : (ac.streams h).uotPending.length ≤ n) {depth depth' fuel fuel' : Nat}
    (hd : (ac.streams h).uotPending.length ≤ depth)
    (hd' : (ac.streams h).uotPending.length ≤ depth')
    (hf : (ac.streams h).uotPending.length ≤ fuel)
    (hf' : (ac.streams h).uotPending.length ≤ fuel') :
    uotProcessLoop (callbacks process depth) h fuel ac =
      uotProcessLoop (callbacks process' depth') h fuel' ac := by
  induction n generalizing ac depth depth' fuel fuel' with
  | zero =>
    have hnil : (ac.streams h).uotPending = [] := List.length_eq_zero_iff.mp (Nat.le_zero.mp hn)
    rw [uotProcessLoop_nil hnil, uotProcessLoop_nil hnil]
  | succ n ih =>
    cases hq : (ac.streams h).uotPending with
    | nil => rw [uotProcessLoop_nil hq, uotProcessLoop_nil hq]
    | cons p q =>
      have hmem : p ∈ (ac.streams h).uotPending := by rw [hq]; exact List.mem_cons_self
      have hpos : 1 ≤ (ac.streams h).uotPending.length := List.length_pos_of_mem hmem
      obtain ⟨depth, rfl⟩ := Nat.exists_eq_add_of_le' (hpos.trans hd)
      obtain ⟨depth', rfl⟩ := Nat.exists_eq_add_of_le' (hpos.trans hd')
      obtain ⟨fuel, rfl⟩ := Nat.exists_eq_add_of_le' (hpos.trans hf)
      obtain ⟨fuel', rfl⟩ := Nat.exists_eq_add_of_le' (hpos.trans hf')
      -- without the datagrams of the head's name every bound is one less
      have hnext : ∀ ac', (ac'.streams h).uotPending = notOfKey UotPending.key (p.domain, p.port)
          (ac.streams h).uotPending → ∀ {fuel fuel' : Nat},
          (ac'.streams h).uotPending.length ≤ fuel → (ac'.streams h).uotPending.length ≤ fuel' →
          ∀ {i j : Nat}, depth ≤ i → depth' ≤ j →
          uotProcessLoop (callbacks process i) h fuel ac' =
            uotProcessLoop (callbacks process' j) h fuel' ac' := by
        intro ac' hqueue fuel fuel' hfuel hfuel' i j hi hj
        have hshort := length_notOfKey_lt hmem
        rw [← hqueue] at hshort
        exact ih ac' (by omega) (by omega) (by omega) hfuel hfuel'
      have hshort := length_notOfKey_lt hmem
      unfold uotProcessLoop
      simp only [hq]
      split_ifs
      · rfl
      have htarget := setTarget_same { host := p.domain, port := p.port } h ac
      have hname : ((setTarget h { host := p.domain, port := p.port } ac).streams h).target =
          { host := p.domain, port := p.port } := by rw [setTarget, Connection.upd_self]
      rcases resolveAddr_cases h .uotPacket (setTarget h { host := p.domain, port := p.port } ac)
        with ⟨r, hs, heq⟩ | ⟨a, ac', hs, hkept, hne, heq⟩
      · have hsame := htarget.trans hs
        rw [heq, heq]
        cases r.1 with
        | again => rfl
        | error =>
          have hqueue : ((uotDropPendingDomain h p.domain p.port r.2).streams h).uotPending =
              notOfKey UotPending.key (p.domain, p.port) (ac.streams h).uotPending := by
            rw [uotDropPendingDomain_queue, hsame.queue]
          exact hnext _ hqueue (by rw [hqueue]; omega) (by rw [hqueue]; omega) (Nat.le_succ _)
            (Nat.le_succ _)
        | ok =>
          have hqueue : ((uotFlushPendingDomain h p.domain p.port r.2).streams h).uotPending =
              notOfKey UotPending.key (p.domain, p.port) (ac.streams h).uotPending := by
            rw [uotFlushPendingDomain_queue, hsame.queue]
          exact hnext _ hqueue (by rw [hqueue]; omega) (by rw [hqueue]; omega) (Nat.le_succ _)
            (Nat.le_succ _)
      · have hsame := (htarget.trans hs).trans (startLookup_same .uotPacket h ac')
        obtain ⟨hctx, hlook, hdomain, hport⟩ := startLookup_ctx .uotPacket h ac'
        rw [hkept, hname] at hdomain hport
        rw [hname] at hne
        rw [heq, heq]
        show resolveHandler (callbacks process depth) h a _ =
          resolveHandler (callbacks process' depth') h a _
        rw [resolveHandler_packet hctx hlook, resolveHandler_packet hctx hlook]
        have hqueue : ((uotAnswered h a (startLookup h .uotPacket ac')).streams h).uotPending =
            notOfKey UotPending.key (p.domain, p.port) (ac.streams h).uotPending := by
          rw [uotAnswered_queue a (by rw [hdomain]; exact hne), hdomain, hport, hsame.queue]
        exact hnext _ hqueue le_rfl le_rfl le_rfl le_rfl

end Bounds

/-- What the session does next, as far as the queue of this stream is concerned. The callbacks are
those of a frame or of an event, whichever way they parse held-back input. -/
inductive PacketOp (h : Handle) : Connection → Connection → Prop
  /-- a datagram of the client -/
  | datagram {ac} (process : Bytes → Connection → Rc × Connection) (addr : Addr) (payload : Bytes)
      (hmode : (ac.streams h).uotMode ≠ .uotV2Connect) :
      PacketOp h ac (uotSendPayload (callbacks process (resolveDepth ac.conf)) h addr payload ac).2
  /-- the answer to a packet's lookup -/
  | answer {ac} (process : Bytes → Connection → Rc × Connection) (a : Answer)
      (hctx : (ac.streams h).resolverCtx = true)
      (hlook : (ac.streams h).resolverTarget = .uotPacket) :
      PacketOp h ac (resolveHandler (callbacks process (resolveDepth ac.conf)) h a ac)
  /-- the stream's UoT side is closed -/
  | close {ac} : PacketOp h ac (uotClose h ac)
  /-- a stream that is closed empties the queue again -/
  | clear {ac} (hclosed : (ac.streams h).state = .closed) : PacketOp h ac (clearUotPending h ac)
  /-- anything that leaves the queue alone -/
  | other {ac ac'} (hs : SameQueue h ac ac') : PacketOp h ac ac'

/-- Any number of operations, in any order. -/
abbrev PacketRun (h : Handle) : Connection → Connection → Prop := Relation.ReflTransGen (PacketOp h)

section Runs

variable {h : Handle} {ac ac' : Connection}

theorem PacketOp.reaches (ho : PacketOp h ac ac') : UotReaches h ac ac' := by
  cases ho with
  | datagram process addr payload hmode =>
    exact uotSendPayload_reaches (callbacks_answer process _ h) addr payload hmode
  | answer process a hctx hlook =>
    exact resolveHandler_reaches (callbacks_answer process _ h) hctx hlook a
  | close => exact .single .close
  | clear hclosed => exact .single (.clear hclosed)
  | other hs => exact .quiet hs

theorem PacketRun.reaches (hr : PacketRun h ac ac') : UotReaches h ac ac' := by
  induction hr with
  | refl => exact .refl h ac
  | tail _ ho ih => exact ih.trans ho.reaches

/-- A new stream has nothing queued. -/
theorem newStream_balanced (id : UInt32) (ac : Connection) :
    UotBalanced ac.nstreams (newStream id ac) := by
  have hnew : (newStream id ac).streams ac.nstreams = { id := id } := by
    rw [newStream, Connection.log_streams, Connection.upd_self]
  constructor <;> rw [hnew]
  · rfl
  · rfl
  · exact Nat.zero_le _
  · exact Nat.zero_le _
  · exact nofun

end Runs

/-- A new stream in packet mode, whose first lookup has no answer yet. -/
def packetStart (env : Env) : Connection :=
  setEnv env (takeUotSlot 0 .uotPacket (newStream 1 (Connection.init sampleConf)))

def noInput (_ : Bytes) (ac : Connection) : Rc × Connection := (.error, ac)

/-- A datagram for a name, port 53. -/
def sampleSend (name : UInt8) (payload : Bytes) (ac : Connection) : Connection :=
  (uotSendPayload (callbacks noInput (resolveDepth ac.conf)) 0 { host := [name], port := 53 }
    payload ac).2

def sampleAnswer (a : Answer) (ac : Connection) : Connection :=
  resolveHandler (callbacks noInput (resolveDepth ac.conf)) 0 a ac

/-- Two datagrams for "a" and one for "b" wait. -/
def waiting : Connection :=
  sampleSend 97 [3] (sampleSend 98 [2] (sampleSend 97 [1] (packetStart {})))

/-- The lookup of "a" fails; "b" is looked up and found at once. -/
def twoNames : Connection :=
  sampleAnswer none
    (setEnv { lookup := [.done (some [SockAddr.ofBytes .inet [10, 0, 0, 1] 0])] } waiting)

private theorem twoNames_run : PacketRun 0 (newStream 1 (Connection.init sampleConf)) twoNames := by
  have hsend : ∀ (name : UInt8) (payload : Bytes) (ac : Connection),
      (ac.streams 0).uotMode ≠ .uotV2Connect → PacketOp 0 ac (sampleSend name payload ac) :=
    fun name payload ac hmode => .datagram noInput _ payload hmode
  have hopen : PacketOp 0 (newStream 1 (Connection.init sampleConf)) (packetStart {}) :=
    .other (by rfl)
  have hfirst := hsend 97 [1] (packetStart {}) (by decide)
  have hsecond := hsend 98 [2] (sampleSend 97 [1] (packetStart {})) (by decide)
  have hthird := hsend 97 [3] (sampleSend 98 [2] (sampleSend 97 [1] (packetStart {})))
    (by decide)
  have henv : PacketOp 0 waiting
      (setEnv { lookup := [.done (some [SockAddr.ofBytes .inet [10, 0, 0, 1] 0])] } waiting) :=
    .other (.refl 0 waiting)
  have hanswer : PacketOp 0
      (setEnv { lookup := [.done (some [SockAddr.ofBytes .inet [10, 0, 0, 1] 0])] } waiting)
      twoNames := .answer noInput none (by decide) (by decide +kernel)
  exact (((((Relation.ReflTransGen.single hopen).tail hfirst).tail hsecond).tail hthird).tail
    henv).tail hanswer

end NgxAnytls
