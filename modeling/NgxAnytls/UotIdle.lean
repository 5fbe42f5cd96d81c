import NgxAnytls.Accounting
import NgxAnytls.Library.Watchdog
import NgxAnytls.UotUplink

/-! The idle timer of UoT streams: sessions whose events happen at times. -/

namespace NgxAnytls

open Library.Watchdog

/-- The handler of the event is called. -/
def Connection.handles (ac : Connection) (e : Event) : Bool :=
  !ac.closing && !ac.hung && e.enabled ac

/-- The stream whose datagram was sent to a peer or read from one. -/
def Obs.datagram : Obs → Option Handle
  | .udpSend h .. | .udpRecv h _ => some h
  | _ => none

def RecvFrom.isDgram : RecvFrom → Bool
  | .dgram .. => true
  | _ => false

/-- What one event adds to the trace. -/
def stepTrace (ac : Connection) (e : Event × Env) : List Obs :=
  (step ac e).trace.drop ac.trace.length

/-- The handler of the stream's socket took a datagram with `recvfrom`. -/
def readsPacket (ac : Connection) (e : Event × Env) (h : Handle) : Bool :=
  ac.handles e.1 && e.1 = .udpRead h &&
    (e.2.recvFrom.take (e.2.recvFrom.length - (step ac e).env.recvFrom.length)).any RecvFrom.isDgram

/-- The event moved a datagram of the stream. -/
def movesDatagram (ac : Connection) (e : Event × Env) (h : Handle) : Bool :=
  (stepTrace ac e).any (fun o => o.datagram = some h) || readsPacket ac e h

/-- The event armed the stream's idle timer: it leaves it running where it was stopped before. -/
def armsTimer (ac : Connection) (e : Event × Env) (h : Handle) : Bool :=
  ((step (expireUotTimer h ac) e).streams h).uotTimer

/-- A session, the time of its last event and the idle timers of its streams. -/
structure Timed where
  conn : Connection
  now : Nat := 0
  watch : Handle → Watch := fun _ => {}

/-- One event at a time in milliseconds; a timer that is armed fires `uot_idle_timeout` later. -/
def timedStep (s : Timed) (e : Nat × Event × Env) : Timed where
  conn := step s.conn e.2
  now := e.1
  watch h := (s.watch h).next s.conn.conf.uotIdleTimeout e.1 (armsTimer s.conn e.2 h)
    (movesDatagram s.conn e.2 h)

def Timed.init (conf : Conf) : Timed := { conn := Connection.init conf }

/-- The clock does not go back, and a timer fires when it is due or later. -/
def OnTime (s : Timed) (e : Nat × Event × Env) : Prop :=
  s.now ≤ e.1 ∧ (match e.2.1 with
    | .uotIdle h => (s.watch h).deadline ≤ e.1
    | _ => True)

/-- The idle timeout closes a stream that moved a datagram less than the timeout ago. -/
def closesActive (s : Timed) (e : Nat × Event × Env) : Bool :=
  match e.2.1 with
  | .uotIdle h => s.conn.handles (.uotIdle h) && (s.conn.streams h).state ≠ .closed &&
      (s.watch h).active s.conn.conf.uotIdleTimeout e.1
  | _ => false

/-- A datagram is moved by the handler of the stream's socket, or while its idle timer is not
running yet. -/
def movesArmed (s : Timed) (e : Nat × Event × Env) : Bool :=
  (stepTrace s.conn e.2).all fun o =>
    match o.datagram with
    | some h => e.2.1 = .udpRead h || !(s.conn.streams h).uotTimer
    | none => true

section Arming

variable {ac : Connection} {e : Event × Env} {h : Handle}

private theorem step_of_not_handles (hn : ac.handles e.1 = false) : step ac e = ac := by
  unfold step
  apply if_pos
  unfold Connection.handles at hn
  cases hclosing : ac.closing with
  | true => exact .inl rfl
  | false =>
    cases hhung : ac.hung with
    | true => exact .inr (.inl rfl)
    | false =>
      rw [hclosing, hhung] at hn
      have henabled : e.1.enabled ac = false := hn
      exact .inr (.inr (by rw [henabled]; rfl))

private theorem step_of_handles (hn : ac.handles e.1 = true) :
    step ac e = handle e.1 ((setEnv e.2 ac).log (.event e.1)) := by
  unfold step
  apply if_neg
  unfold Connection.handles at hn
  simp only [Bool.and_eq_true, Bool.not_eq_true'] at hn
  obtain ⟨⟨hclosing, hhung⟩, henabled⟩ := hn
  simp [hclosing, hhung, henabled]

private theorem not_movesDatagram (hn : ac.handles e.1 = false) : movesDatagram ac e h = false := by
  unfold movesDatagram stepTrace readsPacket
  rw [step_of_not_handles hn, List.drop_length, hn]
  rfl

/-- A stopped timer is not changed by stopping it. -/
theorem expireUotTimer_of_stopped (hs : (ac.streams h).uotTimer = false) :
    expireUotTimer h ac = ac := by
  have hst : { ac.streams h with uotTimer := false } = ac.streams h := by rw [← hs]
  have hsame : Function.update ac.streams h { ac.streams h with uotTimer := false } =
    ac.streams := by
    rw [hst, Function.update_eq_self]
  exact congrArg (fun streams => { ac with streams := streams }) hsame

private theorem armsTimer_of_stopped (hs : (ac.streams h).uotTimer = false) :
    armsTimer ac e h = ((step ac e).streams h).uotTimer := by
  unfold armsTimer
  rw [expireUotTimer_of_stopped hs]

/-- The timer is armed whatever it was before. -/
theorem uotArmIdleTimer_expire (hudp : (ac.streams h).udp.isSome = true)
    (hT : 0 < ac.conf.uotIdleTimeout) :
    uotArmIdleTimer h (expireUotTimer h ac) = uotArmIdleTimer h ac := by
  have hnone : (ac.streams h).udp.isNone = false := by
    rw [← Option.not_isSome, hudp]
    rfl
  have hleft : ¬(((expireUotTimer h ac).streams h).udp.isNone = true ∨
      (expireUotTimer h ac).conf.uotIdleTimeout = 0) := by
    rintro (hu | ht)
    · rw [expireUotTimer, Connection.upd_self, hnone] at hu
      cases hu
    · exact hT.ne' ht
  have hright : ¬((ac.streams h).udp.isNone = true ∨ ac.conf.uotIdleTimeout = 0) := by
    rintro (hu | ht)
    · rw [hnone] at hu
      cases hu
    · exact hT.ne' ht
  unfold uotArmIdleTimer
  rw [if_neg hleft, if_neg hright]
  unfold expireUotTimer Connection.upd
  simp only [Function.update_self, Function.update_idem]

/-- The handler of the stream's socket arms the timer first. -/
theorem armsTimer_udpRead (he : e.1 = .udpRead h) (hn : ac.handles e.1 = true)
    (hT : 0 < ac.conf.uotIdleTimeout) :
    armsTimer ac e h = ((step ac e).streams h).uotTimer := by
  have hudp : (ac.streams h).udp.isSome = true := by
    unfold Connection.handles at hn
    rw [he] at hn
    simp only [Event.enabled, Bool.and_eq_true] at hn
    exact hn.2.2
  have hn' : (expireUotTimer h ac).handles e.1 = true := by
    rw [← hn, he]
    unfold Connection.handles Event.enabled expireUotTimer
    simp only [Connection.upd_self]
    rfl
  unfold armsTimer
  rw [step_of_handles hn', step_of_handles hn, he]
  have hsame : uotArmIdleTimer h (expireUotTimer h ((setEnv e.2 ac).log (.event (.udpRead h)))) =
      uotArmIdleTimer h ((setEnv e.2 ac).log (.event (.udpRead h))) :=
    uotArmIdleTimer_expire hudp hT
  unfold handle udpReadHandler
  exact congrArg (fun w : Connection => ((if (w.streams h).uotMode = .uotV2Connect then
    onReadReady (outerCallbacks ac.conf) h w
    else if w.outputPressure ∨ !hasRoom 0 w then (blockRead h w).2
    else udpReadLoop (outerCallbacks ac.conf) h (w.env.recvFrom.length + 1) w).streams h).uotTimer)
      hsame

/-- A datagram moved by the handler of the socket, or before the timer runs, comes with the timer
armed. -/
theorem armsTimer_of_moves {s : Timed} {e : Nat × Event × Env} (hm : movesArmed s e = true)
    (hmoves : movesDatagram s.conn e.2 h = true) (hT : 0 < s.conn.conf.uotIdleTimeout) :
    armsTimer s.conn e.2 h = ((step s.conn e.2).streams h).uotTimer := by
  have hn : s.conn.handles e.2.1 = true := by
    by_contra hno
    rw [not_movesDatagram (Bool.eq_false_of_not_eq_true hno)] at hmoves
    cases hmoves
  unfold movesDatagram at hmoves
  rw [Bool.or_eq_true, List.any_eq_true] at hmoves
  rcases hmoves with ⟨o, hmem, ho⟩ | hread
  · have hall := List.all_eq_true.mp hm o hmem
    rw [of_decide_eq_true ho] at hall
    simp only [Bool.or_eq_true, decide_eq_true_eq, Bool.not_eq_true'] at hall
    rcases hall with hevent | hstopped
    · exact armsTimer_udpRead hevent hn hT
    · exact armsTimer_of_stopped hstopped
  · unfold readsPacket at hread
    simp only [Bool.and_eq_true, decide_eq_true_eq] at hread
    exact armsTimer_udpRead hread.1.2 hn hT

end Arming

/-- What holds of the timers after every event: one that runs is not due before the timeout. -/
structure Timed.Guarded (conf : Conf) (s : Timed) : Prop where
  reached : ∃ es, s.conn = run conf es
  past : ∀ h, (s.watch h).Past s.now
  covers : ∀ h, (s.conn.streams h).uotTimer = true → (s.watch h).Covers conf.uotIdleTimeout

theorem Timed.Guarded.config {conf : Conf} {s : Timed} (hg : s.Guarded conf) :
    s.conn.conf = conf := by
  obtain ⟨es, hes⟩ := hg.reached
  have hconf : (run conf es).conf = conf := Reaches.conf (run_reaches conf es) (init_sane conf)
  rw [hes, hconf]

theorem init_guarded (conf : Conf) : (Timed.init conf).Guarded conf where
  reached := ⟨[], rfl⟩
  past _ _ ha := by cases ha
  covers _ _ _ ha := by cases ha

private theorem timedStep_guarded {conf : Conf} {s : Timed} {e : Nat × Event × Env}
    (hT : 0 < conf.uotIdleTimeout) (hg : s.Guarded conf) (hnow : s.now ≤ e.1)
    (hm : movesArmed s e = true) : (timedStep s e).Guarded conf := by
  have hconf := hg.config
  have hpast : ∀ h, (s.watch h).Past e.1 := fun h => (hg.past h).mono hnow
  refine ⟨?_, fun h => (hpast h).next, fun h hruns => ?_⟩
  · obtain ⟨es, hes⟩ := hg.reached
    refine ⟨es ++ [e.2], ?_⟩
    rw [run, List.foldl_append, ← run, ← hes]
    rfl
  · have hwatch : (timedStep s e).watch h = (s.watch h).next conf.uotIdleTimeout e.1
        (armsTimer s.conn e.2 h) (movesDatagram s.conn e.2 h) := by
      rw [← hconf]
      rfl
    rw [hwatch]
    cases harms : armsTimer s.conn e.2 h with
    | true => exact (hpast h).covers_armed
    | false =>
      -- a timer that runs and was not armed ran before, and no datagram was moved
      have hmoves : movesDatagram s.conn e.2 h = false := by
        by_contra hyes
        have harmed := armsTimer_of_moves hm (Bool.eq_true_of_not_eq_false hyes) (by rwa [hconf])
        rw [harms] at harmed
        exact absurd hruns (by rw [timedStep, ← harmed]; exact Bool.false_ne_true)
      have hran : (s.conn.streams h).uotTimer = true := by
        by_contra hno
        have harmed := armsTimer_of_stopped (e := e.2) (Bool.eq_false_of_not_eq_true hno)
        rw [harms] at harmed
        exact absurd hruns (by rw [timedStep, ← harmed]; exact Bool.false_ne_true)
      rw [hmoves]
      exact (hg.covers h hran).next_idle

/-- A due timer closes no active stream. -/
theorem Timed.Guarded.not_closesActive {conf : Conf} {s : Timed} {e : Nat × Event × Env}
    (hg : s.Guarded conf) (hdue : OnTime s e) : closesActive s e = false := by
  have hconf := hg.config
  obtain ⟨time, ev, env⟩ := e
  cases ev with
  | uotIdle h =>
    cases hn : s.conn.handles (.uotIdle h) with
    | false =>
      show (s.conn.handles (.uotIdle h) && _ && _) = false
      rw [hn]
      rfl
    | true =>
      have hruns : (s.conn.streams h).uotTimer = true := by
        unfold Connection.handles Event.enabled at hn
        simp only [Bool.and_eq_true] at hn
        exact hn.2.2
      have hquiet := (hg.covers h hruns).not_active hdue.2
      show (_ && _ && (s.watch h).active s.conn.conf.uotIdleTimeout time) = false
      rw [hconf, hquiet, Bool.and_false]
  | _ => rfl

/-- While every datagram is moved by the handler of its socket or before the stream's timer runs,
the idle timeout closes no stream that moved one during the timeout. -/
theorem run_uotIdle (conf : Conf) (es : List (Nat × Event × Env)) (hT : 0 < conf.uotIdleTimeout)
    (ht : Every timedStep OnTime (Timed.init conf) es)
    (hm : Every timedStep (fun s e => movesArmed s e = true) (Timed.init conf) es) :
    Every timedStep (fun s e => closesActive s e = false) (Timed.init conf) es := by
  have hstep : ∀ s e, Timed.Guarded conf s → (OnTime s e ∧ movesArmed s e = true) →
      closesActive s e = false ∧ (timedStep s e).Guarded conf := by
    intro s e hg ⟨hdue, hmoves⟩
    exact ⟨hg.not_closesActive hdue, timedStep_guarded hT hg hdue.1 hmoves⟩
  exact Every.of_invariant hstep (init_guarded conf) (ht.and hm)

/-- A stream whose datagrams name their destinations. -/
def packetTarget : Bytes := 3 :: UInt8.ofNat uotSuffix.length :: uotSuffix ++ [0, 0]

/-- One byte for 127.0.0.1:53. -/
def packetBytes : Bytes := [0, 127, 0, 0, 1, 0, 53, 0, 1, 7]

/-- A datagram at the start, and one from the peer 200 seconds later. -/
def idleRun : List (Nat × Event × Env) :=
  [(0, sampleOpen sampleV2 (packetTarget ++ packetBytes) {}),
    (200000, .udpRead 0, { recvFrom := [.dgram uotSampleDst [8]] }),
    (500000, .uotIdle 0, {})]

theorem run_uotIdle_sample :
    Every timedStep (fun s e => closesActive s e = false) (Timed.init sampleConf) idleRun :=
  run_uotIdle sampleConf idleRun (by decide)
    ⟨⟨by decide, trivial⟩, ⟨by decide, trivial⟩, ⟨by decide, by decide +kernel⟩, trivial⟩
    ⟨by decide, by decide +kernel, by decide +kernel, trivial⟩

/-- The client's datagrams do not arm the timer again. -/
def uplinkRun : List (Nat × Event × Env) :=
  [(0, sampleOpen sampleV2 (packetTarget ++ packetBytes) {}),
    (200000, sampleRead (encodeFrame 2 1 packetBytes) {}),
    (300000, .uotIdle 0, {})]

theorem uotIdle_closes_active : Every timedStep OnTime (Timed.init sampleConf) uplinkRun ∧
    ¬ Every timedStep (fun s e => closesActive s e = false) (Timed.init sampleConf) uplinkRun := by
  refine ⟨⟨⟨by decide, trivial⟩, ⟨by decide, trivial⟩, ⟨by decide, by decide +kernel⟩,
    trivial⟩, ?_⟩
  rintro ⟨-, -, hlast, -⟩
  revert hlast
  decide

end NgxAnytls
