import NgxAnytls.HeldInput

/-! What the fallback relay sends is what the client sent: the bytes pass from the buffer of
authentication to the replay buffer and to the relay's buffer. -/

namespace NgxAnytls

open Relation

/-- What a buffer still has to send. -/
def restOf : Option FbBuf → Bytes
  | none => []
  | some b => b.rest

/-- No buffer is sent beyond its end. -/
def FbBuf.Sound (b : FbBuf) : Prop := b.pos ≤ b.data.length

/-- The auth buffer held all that the client had sent when the relay started. -/
def NoOverflow (t : List Obs) : Prop :=
  ∀ s header u, t = s ++ .fallbackOpen header :: u → (received s).length ≤ authBufSize

theorem NoOverflow.of_le {s t : List Obs} (h : NoOverflow t) (hle : s <+: t) : NoOverflow s := by
  obtain ⟨u, rfl⟩ := hle
  rintro s' header u' rfl
  exact h s' header (u' ++ u) (by simp)

/-- What the fallback upstream took, and what waits in the two buffers, is the header and then what
the client sent; before that, the auth buffer holds what the client sent. -/
structure View.Relayed (v : View) : Prop where
  remnant : v.authenticated = false → v.remnant = []
  refused : v.authenticated = false → v.Refused ∨ v.Waiting
  auth : v.authenticated = false → v.state ≠ .fallback →
    v.auth = (received v.trace).take authBufSize
  relay : v.state = .fallback → v.authenticated = false ∧ v.Refused
  idle : v.state ≠ .fallback → relaySent v.trace = [] ∧ relayHeader v.trace = [] ∧
    v.replay = none ∧ v.clientBuf = none
  sent : v.state = .fallback → relaySent v.trace ++ restOf v.replay ++ restOf v.clientBuf =
    relayHeader v.trace ++ received v.trace
  replay : ∀ b, v.replay = some b → b.Sound
  clientBuf : ∀ b, v.clientBuf = some b → b.Sound

/-- Effects under which the bytes stay on their way. -/
def View.Carries (v v' : View) : Prop :=
  v.trace <+: v'.trace ∧ (NoOverflow v'.trace → v.Relayed → v'.Relayed)

section Effects

variable {v v' : View}

theorem View.Carries.refl (v : View) : v.Carries v := ⟨List.prefix_refl _, fun _ => id⟩

theorem View.Carries.trans {a b c : View} (hab : a.Carries b) (hbc : b.Carries c) : a.Carries c :=
  ⟨hab.1.trans hbc.1, fun hn hi => hbc.2 hn (hab.2 (hn.of_le hbc.1) hi)⟩

/-- Effects that concern neither the input nor the relay. -/
theorem View.Relayed.held (hi : v.Relayed) (h : v.Held v') (ha : v.Apart v') : v'.Relayed where
  remnant := by
    rw [h.authenticated, h.remnant]
    exact hi.remnant
  refused := by
    rw [h.authenticated, View.Waiting, h.auth, h.matched]
    exact fun hn => (hi.refused hn).imp (fun hr => hr.held h.conf h.auth h.matched) id
  auth := by
    rw [h.authenticated, h.state, h.auth, h.received]
    exact hi.auth
  relay := by
    rw [h.state, h.authenticated]
    exact fun hs => ⟨(hi.relay hs).1, (hi.relay hs).2.held h.conf h.auth h.matched⟩
  idle := by
    rw [h.state, ha.sent, ha.header, ha.replay, ha.clientBuf]
    exact hi.idle
  sent := by
    rw [h.state, ha.sent, ha.header, ha.replay, ha.clientBuf, h.received]
    exact hi.sent
  replay := by
    rw [ha.replay]
    exact hi.replay
  clientBuf := by
    rw [ha.clientBuf]
    exact hi.clientBuf

theorem View.Held.carries (h : v.Held v') (ha : v.Apart v') (ht : v.trace <+: v'.trace) :
    v.Carries v' := ⟨ht, fun _ hi => hi.held h ha⟩

/-- An authenticated session has no relay, whatever it does. -/
theorem View.Relayed.away (hi : v.Relayed) (hauth : v.authenticated = true) (ha : v.Apart v') :
    v'.Relayed := by
  have hauth' : v'.authenticated = true := ha.authenticated.trans hauth
  have hnot : v.state ≠ .fallback := fun hs => by
    rw [(hi.relay hs).1] at hauth
    cases hauth
  have hnot' : v'.state ≠ .fallback := ha.state ▸ hnot
  refine ⟨fun h => ?_, fun h => ?_, fun h => ?_, fun h => absurd h hnot', fun _ => ?_,
    fun h => absurd h hnot', ?_, ?_⟩
  · rw [hauth'] at h
    cases h
  · rw [hauth'] at h
    cases h
  · rw [hauth'] at h
    cases h
  · rw [ha.sent, ha.header, ha.replay, ha.clientBuf]
    exact hi.idle hnot
  · rw [ha.replay]
    exact hi.replay
  · rw [ha.clientBuf]
    exact hi.clientBuf

end Effects

private theorem resume_carries (conf : Conf) (ac : Connection) :
    Call View.Carries ac.view
      (inputResume (processClientBytes (innerCallbacks conf)) ac).2.view := by
  intro hs
  have hcall := parsed_reaches.resume conf ac hs
  refine ⟨hcall.1, hcall.1.trace, fun _ hi => ?_⟩
  cases hauth : ac.authenticated with
  | true =>
    have hsane : (setRemnant [] (setInputPaused false ac)).view.Sane :=
      SessionAct.sane (v := ac.view)
        (.input ⟨rfl, rfl, rfl, rfl, rfl, rfl, rfl, rfl, rfl, rfl, rfl, rfl⟩ rfl) hs
    have hauth' : (setRemnant [] (setInputPaused false ac)).authenticated = true := hauth
    have hparse := (processFrames_apart conf ((setInputPaused false ac).remnant.length + 1)
      (setInputPaused false ac).remnant (setRemnant [] (setInputPaused false ac)) hsane).2
    have hfirst : ac.view.Apart (setRemnant [] (setInputPaused false ac)).view :=
      .none rfl rfl rfl rfl rfl
    have henable : ∀ ac : Connection, ac.view.Apart (setReadBlocked false ac).view :=
      fun _ => .none rfl rfl rfl rfl rfl
    unfold inputResume
    split_ifs
    · exact hi
    · exact hi
    · exact hi
    · dsimp only
      by_cases hrem : (setInputPaused false ac).remnant ≠ []
      · rw [if_pos hrem, processClientBytes, if_pos hauth', if_neg hrem]
        generalize processFrames (innerCallbacks conf) _ _ _ = r at hparse ⊢
        split_ifs
        · exact hi.away hauth (hfirst.trans hparse)
        · exact hi.away hauth (hfirst.trans hparse)
        · rw [enableClientRead_view]
          exact hi.away hauth ((hfirst.trans hparse).trans (henable _))
      · rw [if_neg hrem, enableClientRead_view]
        exact hi.away hauth (.none rfl rfl rfl rfl rfl)
  | false =>
    have hrem : ¬ (setInputPaused false ac).remnant ≠ [] := not_not.mpr (hi.remnant hauth)
    unfold inputResume
    split_ifs
    · exact hi
    · exact hi
    · exact hi
    · rw [if_neg hrem, enableClientRead_view]
      exact ⟨hi.remnant, hi.refused, hi.auth, hi.relay, hi.idle, hi.sent, hi.replay, hi.clientBuf⟩

private theorem ends_carries : Ends View.Carries where
  refl := .refl
  trans := .trans
  send ha := ha.held.carries ha.apart (by cases ha <;> simp)
  note o ho := View.Held.carries (.one o ho.noInput rfl rfl ⟨rfl, rfl, rfl, rfl, rfl, rfl, rfl⟩)
    (.one o ho.noRelay rfl rfl rfl rfl rfl) (by simp)
  close ha := ha.held.carries ha.apart (by cases ha <;> simp)

private theorem outer_carries (conf : Conf) : Closed (outerCallbacks conf) (Call View.Carries) :=
  ends_carries.toSteps.callbacks
    (fun hs h => h.held.carries h.apart (SessionAct.trace_le (.act h) hs)) (resume_carries conf) _

theorem View.Waiting.auth_le {v : View} (h : v.Waiting) : v.auth.length < authBufSize := by
  have hpad := be16_lt (v.auth.getD 32 0) (v.auth.getD 33 0)
  rcases h with h | ⟨-, h⟩
  · unfold authPrefixLen at h
    unfold authBufSize
    omega
  · unfold authNeed authPrefixLen at h
    unfold authBufSize
    omega

/-- The relay starts with all that the client sent in its replay buffer. -/
theorem startReplay_relayed (header : Bytes) (ac : Connection) (hi : ac.view.Relayed)
    (hauth : ac.authenticated = false) (hstate : ac.state ≠ .fallback) (hr : ac.view.Refused)
    (hn : NoOverflow (startReplay header ac.auth ac).trace) :
    (startReplay header ac.auth ac).view.Relayed := by
  have htrace : (startReplay header ac.auth ac).view.trace = ac.trace ++ [.fallbackOpen header] :=
    rfl
  have hall : ac.auth = received ac.trace := by
    have hle : (received ac.trace).length ≤ authBufSize := hn ac.trace header [] rfl
    exact (hi.auth hauth hstate).trans (List.take_of_length_le hle)
  obtain ⟨hsent, hheader, hreplay, hbuf⟩ := hi.idle hstate
  have hbuf' : (startReplay header ac.auth ac).view.clientBuf = none := hbuf
  refine ⟨fun _ => hi.remnant hauth, fun _ => .inl hr, fun _ h => absurd rfl h,
    fun _ => ⟨hauth, hr⟩, fun h => absurd rfl h, fun _ => ?_, ?_, ?_⟩
  · rw [htrace, hbuf', relaySent_append, relayHeader_append, received_append,
      show relaySent ac.trace = [] from hsent, show relayHeader ac.trace = [] from hheader, ← hall]
    show [] ++ [] ++ (header ++ ac.auth).drop 0 ++ [] = _
    simp [relayHeader, received]
  · rintro b ⟨⟩
    exact Nat.zero_le _
  · rw [hbuf']
    rintro - ⟨⟩

private theorem fallbackStart_relayed (ac : Connection) (hi : ac.view.Relayed)
    (hauth : ac.authenticated = false) (hstate : ac.state ≠ .fallback) (hr : ac.view.Refused)
    (hn : NoOverflow (fallbackStart ac.auth ac).2.trace) :
    (fallbackStart ac.auth ac).2.view.Relayed := by
  rcases fallbackStart_cases ac.auth ac with h | ⟨header, ac', hview, h⟩
  · exact h ▸ hi
  · have hauthBuf : ac'.auth = ac.auth := congrArg View.auth hview
    rw [h] at hn ⊢
    rw [← hauthBuf] at hn ⊢
    refine startReplay_relayed header ac' (hview ▸ hi) ?_ ?_ (hview ▸ hr) hn
    · exact (congrArg View.authenticated hview).trans hauth
    · rw [show ac'.state = ac.state from congrArg View.state hview]
      exact hstate

private theorem authProcess_fb (data : Bytes) (ac : Connection) :
    (authProcess data ac).2.2.fb = ac.fb := by
  have htake : ∀ limit (data : Bytes) (ac : Connection),
      (if ac.auth.length < limit then authTake limit data ac else (0, ac)).2.fb = ac.fb :=
    fun _ _ _ => by split_ifs <;> rfl
  have hpad : ∀ consumed (data : Bytes) (ac : Connection),
      (authPad consumed data ac).2.2.fb = ac.fb := fun _ _ _ => by
    unfold authPad
    dsimp only
    split_ifs <;> rfl
  have hfirst := htake authPrefixLen data ac
  unfold authProcess
  dsimp only
  generalize (if ac.auth.length < authPrefixLen then authTake authPrefixLen data ac
    else (0, ac)) = t at hfirst ⊢
  split_ifs
  · exact hfirst
  · exact (hpad _ _ _).trans hfirst
  · cases matchUser t.2 with
    | none => exact hfirst
    | some u => exact (hpad _ _ _).trans hfirst

/-- Bytes of a client that is not authenticated and whose session has no relay yet. -/
theorem unauthenticated_relayed (conf : Conf) (before bs : Bytes) (ac : Connection)
    (hs : ac.view.Sane) (hauth : ac.authenticated = false) (hrem : ac.remnant = [])
    (hstate : ac.state ≠ .fallback) (hwait : ac.view.Refused ∨ ac.view.Waiting)
    (hrec : received ac.trace = before ++ bs) (hbuf : ac.auth = before.take authBufSize)
    (hidle : relaySent ac.trace = [] ∧ relayHeader ac.trace = [] ∧ ac.fb.replay = none ∧
      ac.fb.clientBuf = none)
    (hn : NoOverflow (processClientBytes (innerCallbacks conf) bs ac).2.trace) :
    (processClientBytes (innerCallbacks conf) bs ac).2.view.Relayed := by
  obtain ⟨hstep, hrefused⟩ := authProcess_step bs ac hwait
  have hsame := authProcess_same bs ac
  have hfb := authProcess_fb bs ac
  unfold processClientBytes at hn ⊢
  rw [if_neg (by simp [hauth])] at hn ⊢
  generalize authProcess bs ac = r at *
  obtain ⟨res, consumed, ac'⟩ := r
  dsimp only at hstep hrefused hsame hfb
  have hidle' : relaySent ac'.view.trace = [] ∧ relayHeader ac'.view.trace = [] ∧
      ac'.view.replay = none ∧ ac'.view.clientBuf = none := by
    show relaySent ac'.trace = [] ∧ relayHeader ac'.trace = [] ∧ ac'.fb.replay = none ∧
      ac'.fb.clientBuf = none
    rw [hstep.trace, hfb]
    exact hidle
  have hsound : (∀ b, ac'.view.replay = some b → b.Sound) ∧
      ∀ b, ac'.view.clientBuf = some b → b.Sound := by
    rw [hidle'.2.2.1, hidle'.2.2.2]
    exact ⟨nofun, nofun⟩
  have hrem' : ac'.remnant = [] := hstep.remnant.trans hrem
  cases res with
  | more =>
    have hstate' : ac'.state ≠ .fallback := by rwa [hstep.state nofun]
    obtain ⟨hlen, hwait'⟩ := hstep.more rfl
    refine ⟨fun _ => hrem', fun _ => .inr hwait', fun _ _ => ?_, fun h => absurd h hstate',
      fun _ => hidle', fun h => absurd h hstate', hsound.1, hsound.2⟩
    have hshort : ac'.auth.length < authBufSize := hwait'.auth_le
    show ac'.auth = (received ac'.trace).take authBufSize
    have htaken := hstep.auth
    rw [List.take_of_length_le hlen, hbuf] at htaken
    rw [htaken, List.length_append, List.length_take] at hshort
    rw [htaken, hstep.trace, hrec, List.take_of_length_le (by omega),
      List.take_of_length_le (by rw [List.length_append]; omega)]
  | fallback =>
    have hauth' : ac'.authenticated = false := (hstep.authenticated nofun).trans hauth
    have hstate' : ac'.state ≠ .fallback := by rwa [hstep.state nofun]
    have hr := hstep.fallback rfl
    have hle : ac.auth.length ≤ authBufSize := by
      rw [hbuf, List.length_take]
      exact Nat.min_le_left _ _
    have hrelayed : ac'.view.Relayed := by
      refine ⟨fun _ => hrem', fun _ => .inl hr, fun _ _ => ?_, fun h => absurd h hstate',
        fun _ => hidle', fun h => absurd h hstate', hsound.1, hsound.2⟩
      show ac'.auth = (received ac'.trace).take authBufSize
      rw [hstep.replayed rfl hle, hbuf, take_append_take, hstep.trace, hrec]
    dsimp only at hn ⊢
    split_ifs at hn ⊢
    · exact hrelayed
    · exact fallbackStart_relayed ac' hrelayed hauth' hstate' hr hn
  | ok =>
    obtain ⟨hauth', hsettings, -⟩ := hstep.ok rfl
    have hstate' : ac'.state ≠ .fallback := by
      rw [hsettings]
      nofun
    have hno : ¬ ac'.view.authenticated = false := by
      rw [show ac'.view.authenticated = true from hauth']
      nofun
    have hrelayed : ac'.view.Relayed :=
      ⟨fun h => absurd h hno, fun h => absurd h hno, fun h => absurd h hno,
        fun h => absurd h hstate', fun _ => hidle', fun h => absurd h hstate', hsound.1, hsound.2⟩
    have hsane : ac'.view.Sane := SessionAct.sane (.input hsame.1 hsame.2) hs
    dsimp only
    split_ifs
    · exact hrelayed
    · exact hrelayed.away hauth' (processFrames_apart conf _ _ _ hsane).2

/-- Bytes of a client whose session has no relay yet. -/
theorem feed_carries (conf : Conf) (bs : Bytes) (ac : Connection) (hstate : ac.state ≠ .fallback) :
    Call View.Carries ac.view (processClientBytes (innerCallbacks conf) (ac.remnant ++ bs)
      ((setRemnant [] ac).log (.clientRecv bs))).2.view := by
  intro hs
  have hcall := parsed_reaches.fed.feed conf bs ac hs
  refine ⟨hcall.1, hcall.1.trace, fun hn hi => ?_⟩
  have hlog : SessionAct ac.view ((setRemnant [] ac).log (.clientRecv bs)).view :=
    .inputLog (.clientRecv bs) trivial
      ⟨rfl, rfl, rfl, rfl, rfl, rfl, rfl, rfl, rfl, rfl, rfl, rfl⟩ rfl
  have hsane := hlog.sane hs
  have hfirst : ac.view.Apart ((setRemnant [] ac).log (.clientRecv bs)).view :=
    .one (.clientRecv bs) ⟨rfl, rfl⟩ rfl rfl rfl rfl rfl
  have hrecv : received ((setRemnant [] ac).log (.clientRecv bs)).trace =
      received ac.trace ++ bs := by
    show received (ac.trace ++ [.clientRecv bs]) = _
    simp [received]
  cases hauth : ac.authenticated with
  | true =>
    have hauth' : ((setRemnant [] ac).log (.clientRecv bs)).authenticated = true := hauth
    unfold processClientBytes
    rw [if_pos hauth']
    split_ifs
    · exact hi.away hauth hfirst
    · exact hi.away hauth (hfirst.trans (processFrames_apart conf _ _ _ hsane).2)
  | false =>
    have hrem : ac.remnant = [] := hi.remnant hauth
    have hauth' : ((setRemnant [] ac).log (.clientRecv bs)).authenticated = false := hauth
    have hwait : ((setRemnant [] ac).log (.clientRecv bs)).view.Refused ∨
        ((setRemnant [] ac).log (.clientRecv bs)).view.Waiting := hi.refused hauth
    have hbuf : ((setRemnant [] ac).log (.clientRecv bs)).auth =
        (received ac.trace).take authBufSize := hi.auth hauth hstate
    have hidle : relaySent ((setRemnant [] ac).log (.clientRecv bs)).trace = [] ∧
        relayHeader ((setRemnant [] ac).log (.clientRecv bs)).trace = [] ∧
        ac.fb.replay = none ∧ ac.fb.clientBuf = none := by
      obtain ⟨hsent, hheader, hreplay, hclient⟩ := hi.idle hstate
      exact ⟨hfirst.sent.trans hsent, hfirst.header.trans hheader, hreplay, hclient⟩
    have hrem' : ((setRemnant [] ac).log (.clientRecv bs)).remnant = [] := rfl
    have hstate' : ((setRemnant [] ac).log (.clientRecv bs)).state ≠ .fallback := hstate
    rw [hrem, List.nil_append] at hn ⊢
    exact unauthenticated_relayed conf (received ac.trace) bs _ hsane hauth' hrem'
      hstate' hwait hrecv
      hbuf hidle hn

/-- What a send of the relay does: the fallback upstream takes `bs`. -/
structure View.Sends (bs : Bytes) (v v' : View) : Prop where
  held : v.Held v'
  replay : v'.replay = v.replay
  clientBuf : v'.clientBuf = v.clientBuf
  sent : relaySent v'.trace = relaySent v.trace ++ bs
  header : relayHeader v'.trace = relayHeader v.trace
  trace : v.trace <+: v'.trace

theorem View.Sends.refl (v : View) : v.Sends [] v :=
  ⟨.none rfl rfl ⟨rfl, rfl, rfl, rfl, rfl, rfl, rfl⟩, rfl, rfl, (List.append_nil _).symm, rfl,
    List.prefix_refl _⟩

theorem View.Held.trans {a b c : View} (hab : a.Held b) (hbc : b.Held c) : a.Held c where
  received := hbc.received.trans hab.received
  frames := hbc.frames.trans hab.frames
  conf := hbc.conf.trans hab.conf
  state := hbc.state.trans hab.state
  remnant := hbc.remnant.trans hab.remnant
  auth := hbc.auth.trans hab.auth
  authenticated := hbc.authenticated.trans hab.authenticated
  matched := hbc.matched.trans hab.matched
  paused h := hbc.paused (hab.paused h)
  blocked h := hbc.blocked (hab.blocked h)
  kept h := hbc.kept (hab.kept h)

theorem View.Sends.trans {a b c : View} {bs bs' : Bytes} (hab : a.Sends bs b)
    (hbc : b.Sends bs' c) :
    a.Sends (bs ++ bs') c where
  held := hab.held.trans hbc.held
  replay := hbc.replay.trans hab.replay
  clientBuf := hbc.clientBuf.trans hab.clientBuf
  sent := by rw [hbc.sent, hab.sent, List.append_assoc]
  header := hbc.header.trans hab.header
  trace := hab.trace.trans hbc.trace

/-- What the fallback upstream takes of bytes sent to `dst`. -/
def FbSide.taken (dst : FbSide) (bs : Bytes) : Bytes :=
  match dst with
  | .upstream => bs
  | .client => []

theorem FbSide.taken_append (dst : FbSide) (bs bs' : Bytes) :
    dst.taken bs ++ dst.taken bs' = dst.taken (bs ++ bs') := by
  cases dst <;> rfl

private theorem logRelay_sends (dst : FbSide) (bs : Bytes) (ac : Connection) :
    ac.view.Sends (dst.taken bs) (logRelay dst bs ac).view := by
  cases dst with
  | client =>
    exact ⟨.one (.fallbackRelay bs) ⟨rfl, rfl, by simp [NotDropped]⟩ rfl rfl
      ⟨rfl, rfl, rfl, rfl, rfl, rfl, rfl⟩, rfl, rfl, by simp [logRelay, relaySent, FbSide.taken],
      by simp [logRelay, relayHeader], by simp [logRelay]⟩
  | upstream =>
    exact ⟨.one (.fallbackSend bs) ⟨rfl, rfl, by simp [NotDropped]⟩ rfl rfl
      ⟨rfl, rfl, rfl, rfl, rfl, rfl, rfl⟩, rfl, rfl, by simp [logRelay, relaySent, FbSide.taken],
      by simp [logRelay, relayHeader], by simp [logRelay]⟩

/-- What a flush leaves of a buffer: what was taken came from its front, and a flush that is through
left nothing. -/
structure Flushed (b : FbBuf) (bs : Bytes) (rc : Rc) (b' : FbBuf) : Prop where
  sound : b'.Sound
  rest : b.rest = bs ++ b'.rest
  all : rc = .ok → b'.rest = []

theorem FbBuf.rest_advance (b : FbBuf) (n : Nat) :
    b.rest.take n ++ (b.advance n).rest = b.rest := by
  rw [FbBuf.rest, FbBuf.rest, FbBuf.advance, ← List.drop_drop, List.take_append_drop]

private theorem flushBufLoop_sends (dst : FbSide) (n sent : Nat) (b : FbBuf) (ac : Connection)
    (hb : b.Sound) (hn : b.data.length - b.pos < n) :
    ∃ bs, ac.view.Sends (dst.taken bs) (flushBufLoop dst n sent b ac).2.2.view ∧
      Flushed b bs (flushBufLoop dst n sent b ac).1 (flushBufLoop dst n sent b ac).2.1 := by
  have hmixed : ∀ r : Rc × Connection, (if r.1 ≠ .ok then Rc.error else .again) ≠ Rc.ok :=
    fun r => by
    split_ifs <;> rintro ⟨⟩
  induction n generalizing sent b ac with
  | zero => exact absurd hn (Nat.not_lt_zero _)
  | succ n ih =>
    have hnone : ∀ (rc : Rc) (ac' : Connection), ac'.view = ac.view → rc ≠ .ok →
        ∃ bs, ac.view.Sends (dst.taken bs) ac'.view ∧ Flushed b bs rc b :=
          fun rc ac' hview hrc => by
      refine ⟨[], ?_, hb, rfl, fun h => absurd h hrc⟩
      rw [hview]
      cases dst <;> exact .refl _
    unfold flushBufLoop
    split_ifs with hlen
    · refine ⟨[], ?_, Nat.le_refl 0, ?_, fun _ => rfl⟩
      · cases dst <;> exact .refl _
      · exact (List.drop_of_length_le hlen).trans rfl
    · cases ac.sendRes with
      | again => exact hnone _ ac.sendNext.arm.2 rfl (hmixed _)
      | error => exact hnone _ ac.sendNext rfl (by rintro ⟨⟩)
      | done m =>
        dsimp only
        generalize hsize : min m (min (b.data.length - b.pos) (fallbackWriteBudget - sent)) = size
        by_cases hzero : size = 0
        · rw [if_pos hzero]
          exact hnone _ ac.sendNext rfl (by rintro ⟨⟩)
        rw [if_neg hzero]
        have hle : size ≤ b.data.length - b.pos := by
          rw [← hsize]
          exact (Nat.min_le_right _ _).trans (Nat.min_le_left _ _)
        have hadvance : (b.advance size).Sound := by
          show b.pos + size ≤ b.data.length
          omega
        have hlog := logRelay_sends dst (b.rest.take size) ac.sendNext
        have hlog : ac.view.Sends (dst.taken (b.rest.take size))
            (logRelay dst (b.rest.take size) ac.sendNext).view := hlog
        by_cases hbudget : fallbackWriteBudget ≤ sent + size ∧
            (b.advance size).pos < (b.advance size).data.length
        · rw [if_pos hbudget]
          exact ⟨b.rest.take size, hlog, hadvance, (b.rest_advance size).symm,
            fun h => absurd h (hmixed _)⟩
        · rw [if_neg hbudget]
          obtain ⟨bs, hsends, hflushed⟩ := ih (sent + size) (b.advance size)
            (logRelay dst (b.rest.take size) ac.sendNext) hadvance (by
              show b.data.length - (b.pos + size) < n
              omega)
          refine ⟨b.rest.take size ++ bs, ?_, hflushed.sound, ?_, hflushed.all⟩
          · rw [← dst.taken_append]
            exact hlog.trans hsends
          · rw [List.append_assoc, ← hflushed.rest, b.rest_advance size]

private theorem flushBuf_sends (dst : FbSide) (b : FbBuf) (ac : Connection) (hb : b.Sound) :
    ∃ bs, ac.view.Sends (dst.taken bs) (flushBuf dst b ac).2.2.view ∧
      Flushed b bs (flushBuf dst b ac).1 (flushBuf dst b ac).2.1 :=
  flushBufLoop_sends dst _ 0 b ac hb (by omega)

/-- The upstream takes bytes from the front of what is on its way. -/
theorem View.Relayed.sends {v v' w : View} {bs : Bytes} (hi : v.Relayed) (h : v.Sends bs v')
    (hheld : v'.Held w) (ht : w.trace = v'.trace) (hidle : v.state ≠ .fallback → w.replay = none ∧
      w.clientBuf = none ∧ bs = [])
    (hrest : restOf v.replay ++ restOf v.clientBuf = bs ++ (restOf w.replay ++ restOf w.clientBuf))
    (hreplay : ∀ b, w.replay = some b → b.Sound) (hbuf : ∀ b, w.clientBuf = some b → b.Sound) :
    w.Relayed := by
  have hall := h.held.trans hheld
  refine ⟨?_, ?_, ?_, ?_, ?_, ?_, hreplay, hbuf⟩
  · rw [hall.authenticated, hall.remnant]
    exact hi.remnant
  · rw [hall.authenticated, View.Waiting, hall.auth, hall.matched]
    exact fun hn => (hi.refused hn).imp (fun hr => hr.held hall.conf hall.auth hall.matched) id
  · rw [hall.authenticated, hall.state, hall.auth, hall.received]
    exact hi.auth
  · rw [hall.state, hall.authenticated]
    exact fun hs => ⟨(hi.relay hs).1, (hi.relay hs).2.held hall.conf hall.auth hall.matched⟩
  · rw [hall.state, ht, h.sent, h.header]
    intro hs
    obtain ⟨hsent, hheader, -, -⟩ := hi.idle hs
    obtain ⟨hnone, hnone', hnil⟩ := hidle hs
    exact ⟨by rw [hsent, hnil]; rfl, hheader, hnone, hnone'⟩
  · rw [hall.state, hall.received, ht, h.sent, h.header]
    intro hs
    rw [← hi.sent hs, List.append_assoc, List.append_assoc, List.append_assoc, ← hrest]

/-- A complete call that carries the bytes, from what the sessions' refinement says of it. -/
theorem carries_call {v v' : View} (hr : Reached v v')
    (h : NoOverflow v'.trace → v.Relayed → v'.Relayed) :
    Call View.Carries v v' := fun hs => ⟨(hr hs).1, (hr hs).1.trace, h⟩

private theorem flushReplay_carries (ac : Connection) :
    Call View.Carries ac.view (flushReplay ac).2.view := by
  refine carries_call (parsed_reaches.fed.flushReplay ac) fun _ hi => ?_
  unfold flushReplay
  cases hreplay : ac.fb.replay with
  | none => exact hi
  | some b =>
    have hb : b.Sound := hi.replay b hreplay
    have hstate : ac.state = .fallback := by
      by_contra hs
      rw [show ac.fb.replay = none from (hi.idle hs).2.2.1] at hreplay
      cases hreplay
    obtain ⟨bs, hsends, hflushed⟩ := flushBuf_sends .upstream b ac hb
    have hset : ∀ (b : Option FbBuf) (ac : Connection), ac.view.Held (setReplay b ac).view :=
      fun _ _ => .none rfl rfl ⟨rfl, rfl, rfl, rfl, rfl, rfl, rfl⟩
    dsimp only
    generalize flushBuf .upstream b ac = r at hsends hflushed ⊢
    have hbuf : r.2.2.fb.clientBuf = ac.fb.clientBuf := hsends.clientBuf
    have hrest : ∀ b' : FbBuf, b'.rest = r.2.1.rest →
      restOf ac.fb.replay ++ restOf ac.fb.clientBuf =
        bs ++ (b'.rest ++ restOf r.2.2.fb.clientBuf) := fun b' hb' => by
      rw [hreplay, hb', hbuf, ← List.append_assoc, ← hflushed.rest]
      rfl
    have hkeep : (setReplay (some r.2.1) r.2.2).view.Relayed := by
      refine hi.sends hsends (hset _ _) rfl (absurd hstate) (hrest r.2.1 rfl) ?_ ?_
      · rintro b' ⟨⟩
        exact hflushed.sound
      · intro b' hb'
        exact hi.clientBuf b' (hbuf.symm.trans hb')
    obtain ⟨_ | _ | _, b', ac'⟩ := r
    · refine hi.sends hsends (hset none ac') rfl (absurd hstate) ?_ nofun ?_
      · exact hrest { cap := 0 } (hflushed.all rfl).symm
      · intro b' hb'
        exact hi.clientBuf b' (hbuf.symm.trans hb')
    · exact hkeep
    · exact hkeep

private theorem flushReplay_done (ac : Connection) (h : (flushReplay ac).1 = .ok) :
    (flushReplay ac).2.fb.replay = none := by
  unfold flushReplay at h ⊢
  cases hreplay : ac.fb.replay with
  | none => exact hreplay
  | some b =>
    rw [hreplay] at h
    dsimp only at h ⊢
    generalize flushBuf .upstream b ac = r at h ⊢
    obtain ⟨_ | _ | _, b', ac'⟩ := r
    · rfl
    · cases h
    · cases h

private theorem flushBufLoop_client (n sent : Nat) (b : FbBuf) (ac : Connection) :
    ac.view.Sends [] (flushBufLoop .client n sent b ac).2.2.view := by
  induction n generalizing sent b ac with
  | zero => exact .refl _
  | succ n ih =>
    unfold flushBufLoop
    split_ifs
    · exact .refl _
    · cases ac.sendRes with
      | again => exact .refl _
      | error => exact .refl _
      | done m =>
        have hlog := fun bs => logRelay_sends .client bs ac.sendNext
        dsimp only
        split_ifs
        · exact .refl _
        · exact hlog _
        · exact hlog _
        · exact (hlog _).trans (ih _ _ _)

/-- A flush of the relay's buffer, which the caller puts back. -/
theorem flush_relayed (dst : FbSide) (b : FbBuf) (ac : Connection)
    (hreplay : dst = .upstream → ac.fb.replay = none)
    (hstate : dst = .upstream → ac.state = .fallback)
    (hi : (setFbBuf dst (some b) ac).view.Relayed) :
    (setFbBuf dst (some (flushBuf dst b ac).2.1) (flushBuf dst b ac).2.2).view.Relayed := by
  cases dst with
  | client =>
    have hsends : ac.view.Sends [] (flushBuf .client b ac).2.2.view := flushBufLoop_client _ _ b ac
    have hi : ac.view.Relayed := hi
    have hset : ∀ (b : Option FbBuf) (ac : Connection), (setFbBuf .client b ac).view = ac.view :=
      fun _ _ => rfl
    rw [hset]
    refine hi.sends hsends (.none rfl rfl ⟨rfl, rfl, rfl, rfl, rfl, rfl, rfl⟩) rfl
      (fun hs => ?_) ?_ ?_ ?_
    · obtain ⟨-, -, hnone, hnone'⟩ := hi.idle hs
      exact ⟨hsends.replay.trans hnone, hsends.clientBuf.trans hnone', rfl⟩
    · rw [hsends.replay, hsends.clientBuf, List.nil_append]
    · rw [hsends.replay]
      exact hi.replay
    · rw [hsends.clientBuf]
      exact hi.clientBuf
  | upstream =>
    have hb : b.Sound := hi.clientBuf b rfl
    have hnone := hreplay rfl
    have hfb := hstate rfl
    obtain ⟨bs, hsends, hflushed⟩ := flushBuf_sends .upstream b ac hb
    generalize flushBuf .upstream b ac = r at hsends hflushed ⊢
    have hnone' : r.2.2.fb.replay = none := hsends.replay.trans hnone
    have hset : (setFbBuf .upstream (some b) ac).view.Sends bs
        (setFbBuf .upstream (some b) r.2.2).view := by
      obtain ⟨hheld, hrep, -, hsent, hheader, htrace⟩ := hsends
      exact ⟨⟨hheld.received, hheld.frames, hheld.conf, hheld.state, hheld.remnant, hheld.auth,
        hheld.authenticated, hheld.matched, hheld.paused, hheld.blocked, hheld.kept⟩,
          hrep, rfl, hsent,
        hheader, htrace⟩
    refine hi.sends hset (.none rfl rfl ⟨rfl, rfl, rfl, rfl, rfl, rfl, rfl⟩) rfl (absurd hfb)
      ?_ ?_ ?_
    · show restOf ac.fb.replay ++ b.rest = bs ++ (restOf r.2.2.fb.replay ++ r.2.1.rest)
      rw [hnone, hnone', hflushed.rest]
      rfl
    · rw [show (setFbBuf .upstream (some r.2.1) r.2.2).view.replay = none from hnone']
      nofun
    · rintro b' ⟨⟩
      exact hflushed.sound

private theorem flushBufLoop_fb (dst : FbSide) (n sent : Nat) (b : FbBuf) (ac : Connection) :
    (flushBufLoop dst n sent b ac).2.2.fb = ac.fb := by
  have hlog : ∀ (bs : Bytes) (ac : Connection), (logRelay dst bs ac).fb = ac.fb := fun _ _ => rfl
  induction n generalizing sent b ac with
  | zero => rfl
  | succ n ih =>
    unfold flushBufLoop
    split_ifs
    · rfl
    · cases ac.sendRes with
      | again => rfl
      | error => rfl
      | done m =>
        dsimp only
        split_ifs
        · rfl
        · rfl
        · rfl
        · exact (ih _ _ _).trans (hlog _ _)

private theorem setFbBuf_self {dst : FbSide} {b : FbBuf} {ac : Connection}
    (h : fbBuf dst ac = some b) :
    (setFbBuf dst (some b) ac).view = ac.view := by
  cases dst with
  | client => rfl
  | upstream =>
    have h : ac.fb.clientBuf = some b := h
    show ({ ac with fb := { ac.fb with clientBuf := some b } } : Connection).view = ac.view
    rw [← h]

private theorem flushFbBuf_carries (dst : FbSide) (ac : Connection)
    (hreplay : dst = .upstream → ac.fb.replay = none) :
    Call View.Carries ac.view (flushFbBuf dst ac).2.view := by
  refine carries_call (parsed_reaches.fed.flushFbBuf dst ac) fun _ hi => ?_
  unfold flushFbBuf
  cases hbuf : fbBuf dst ac with
  | none => exact hi
  | some b =>
    have hsame := setFbBuf_self hbuf
    have hstate : dst = .upstream → ac.state = .fallback := by
      rintro rfl
      by_contra hs
      rw [show fbBuf .upstream ac = none from (hi.idle hs).2.2.2] at hbuf
      cases hbuf
    exact flush_relayed dst b ac hreplay hstate (hsame ▸ hi)

section Handlers

variable (conf : Conf)

private theorem armOrFinalize_carries (ac : Connection) :
    Call View.Carries ac.view (armOrFinalize (outerCallbacks conf) ac).view := by
  unfold armOrFinalize
  dsimp only
  split_ifs
  · exact (outer_carries conf).finalize ends_carries.ending ac.arm.2
  · exact (outer_carries conf).refl _

private theorem fallbackConnect_carries (timedout : Bool) (ac : Connection) :
    Call View.Carries ac.view (fallbackConnect (outerCallbacks conf) timedout ac).2.view := by
  have hk := outer_carries conf
  have hset : ∀ ac : Connection, (setFbConnected ac).view = ac.view := fun _ => rfl
  unfold fallbackConnect
  dsimp only
  split_ifs
  · exact hk.refl _
  · exact hk.finalizeRc ends_carries.ending _ _
  · exact armOrFinalize_carries conf ac.writableNext
  · exact hk.finalizeRc ends_carries.ending _ ac.writableNext.sockErrNext
  · rw [hset]
    exact hk.refl _

private theorem fallbackWriteUpstream_carries (ac : Connection) :
    Call View.Carries ac.view (fallbackWriteUpstream (outerCallbacks conf) ac).view := by
  have hk := outer_carries conf
  have hreplay := flushReplay_carries ac
  have hdone := flushReplay_done ac
  unfold fallbackWriteUpstream
  dsimp only
  generalize flushReplay ac = r at hreplay hdone ⊢
  obtain ⟨_ | _ | _, ac'⟩ := r
  · have hflush := hk.trans hreplay (flushFbBuf_carries .upstream ac' fun _ => hdone rfl)
    dsimp only
    generalize flushFbBuf .upstream ac' = r at hflush ⊢
    obtain ⟨_ | _ | _, ac''⟩ := r
    · dsimp only
      split_ifs
      · exact hk.trans hflush (hk.finalize ends_carries.ending ac''.arm.2)
      · exact hk.trans hflush (armOrFinalize_carries conf ac''.arm.2)
    · exact hflush
    · exact hk.trans hflush (hk.finalize ends_carries.ending _)
  · exact hreplay
  · exact hk.trans hreplay (hk.finalize ends_carries.ending _)

private theorem fallbackWrite_carries (dst : FbSide) (timedout : Bool) (ac : Connection) :
    Call View.Carries ac.view (fallbackWrite (outerCallbacks conf) dst timedout ac).view := by
  have hk := outer_carries conf
  have hconnect : Call View.Carries ac.view (if dst = .upstream then
      fallbackConnect (outerCallbacks conf) timedout ac else (true, ac)).2.view := by
    split_ifs
    · exact fallbackConnect_carries conf timedout ac
    · exact hk.refl _
  unfold fallbackWrite
  dsimp only
  generalize (if dst = .upstream then fallbackConnect (outerCallbacks conf) timedout ac
    else (true, ac)) = r at hconnect ⊢
  have hclient := hk.trans hconnect (flushFbBuf_carries .client r.2.writableNext nofun)
  generalize flushFbBuf .client r.2.writableNext = w at hclient ⊢
  by_cases hgo : (!r.1) = true
  · rw [if_pos hgo]
    exact hconnect
  rw [if_neg hgo]
  by_cases hwritable : (!r.2.writableRes) = true
  · rw [if_pos hwritable]
    exact hk.trans hconnect (armOrFinalize_carries conf r.2.writableNext)
  rw [if_neg hwritable]
  by_cases hdst : dst = .upstream
  · rw [if_pos hdst]
    exact hk.trans hconnect (fallbackWriteUpstream_carries conf r.2.writableNext)
  rw [if_neg hdst]
  obtain ⟨_ | _ | _, ac'⟩ := w
  · exact hk.trans hclient (armOrFinalize_carries conf ac')
  · exact hclient
  · exact hk.trans hclient (hk.finalize ends_carries.ending _)

/-- A read of the relay puts what it brings behind what the buffer holds. -/
theorem relayRecv_carries (dst : FbSide) (size : Nat) (b : FbBuf) (bs : Bytes) (ac : Connection)
    (hstate : dst = .upstream → ac.state = .fallback)
    (hres : (relayRecv dst size ac).1 = .data bs) :
    Call View.Carries (setFbBuf dst (some b) ac).view
      (setFbBuf dst (some { b with data := b.data ++ bs }) (relayRecv dst size ac).2).view := by
  unfold relayRecv at hres ⊢
  cases dst with
  | client =>
    have hset : ∀ (b : Option FbBuf) (ac : Connection), (setFbBuf .client b ac).view = ac.view :=
      fun _ _ => rfl
    rw [hset, hset]
    dsimp only
    cases ac.recvRes <;> exact (outer_carries ac.conf).refl _
  | upstream =>
    dsimp only at hres ⊢
    cases hrecv : ac.clientRecvRes with
    | again =>
      rw [hrecv] at hres
      cases hres
    | error =>
      rw [hrecv] at hres
      cases hres
    | data bs' =>
      rw [hrecv] at hres
      obtain rfl : bs'.take size = bs := Recv.data.inj hres
      have hreached : ∀ (b b' : Option FbBuf) (ac : Connection),
        Reached (setFbBuf .upstream b ac).view
          (setFbBuf .upstream b' (ac.log (.clientRecv (bs'.take size)))).view := fun _ _ _ =>
        .input (.clientRecv (bs'.take size)) trivial
          ⟨rfl, rfl, rfl, rfl, rfl, rfl, rfl, rfl, rfl, rfl, rfl, rfl⟩ rfl
      refine carries_call (hreached (some b) _ ac.clientRecvNext) fun _ hi => ?_
      have hfb : ac.state = .fallback := hstate rfl
      have hb : b.Sound := hi.clientBuf b rfl
      obtain ⟨hauth, hrefused⟩ := hi.relay hfb
      refine ⟨hi.remnant, fun _ => .inl hrefused, fun _ h => absurd hfb h, fun _ =>
        ⟨hauth, hrefused⟩,
        fun h => absurd hfb h, fun _ => ?_, hi.replay, ?_⟩
      · have hsent : relaySent ac.trace ++ restOf ac.fb.replay ++ b.rest =
            relayHeader ac.trace ++ received ac.trace := hi.sent hfb
        show relaySent (ac.trace ++ [.clientRecv (bs'.take size)]) ++ restOf ac.fb.replay ++
          (b.data ++ bs'.take size).drop b.pos =
          relayHeader (ac.trace ++ [.clientRecv (bs'.take size)]) ++
            received (ac.trace ++ [.clientRecv (bs'.take size)])
        rw [relaySent_append, relayHeader_append, received_append, List.drop_append_of_le_length hb,
          ← List.append_assoc _ (b.data.drop b.pos), ← List.append_assoc]
        show relaySent ac.trace ++ [] ++ restOf ac.fb.replay ++ b.rest ++ bs'.take size = _
        rw [List.append_nil, hsent]
        simp [relayHeader, received]
      · rintro b' ⟨⟩
        exact hb.trans (by simp)

private theorem relayRecv_none (dst : FbSide) (size : Nat) (b : FbBuf) (ac : Connection)
    (hres : ∀ bs, (relayRecv dst size ac).1 ≠ .data bs) :
    (setFbBuf dst (some b) (relayRecv dst size ac).2).view = (setFbBuf dst (some b) ac).view := by
  unfold relayRecv at hres ⊢
  cases dst with
  | client =>
    dsimp only
    cases ac.recvRes <;> rfl
  | upstream =>
    dsimp only at hres ⊢
    cases hrecv : ac.clientRecvRes with
    | again => rfl
    | error => rfl
    | data bs =>
      rw [hrecv] at hres
      exact absurd rfl (hres (bs.take size))

private theorem fallbackReadLoop_carries (dst : FbSide) (n bytes : Nat) (b : FbBuf)
    (ac : Connection) (hstate : dst = .upstream → ac.state = .fallback)
    (hreplay : dst = .upstream → ac.fb.replay = none) :
    Call View.Carries (setFbBuf dst (some b) ac).view
      (fallbackReadLoop (outerCallbacks conf) dst n bytes b ac).view := by
  have hk := outer_carries conf
  have hstop : ∀ (b : FbBuf) (ac : Connection), Call View.Carries (setFbBuf dst (some b) ac).view
      (armOrFinalize (outerCallbacks conf) (setFbBuf dst (some b) ac)).view :=
    fun _ _ => armOrFinalize_carries conf _
  have hfail : ∀ (b : FbBuf) (ac : Connection), Call View.Carries (setFbBuf dst (some b) ac).view
      (finalize (outerCallbacks conf) (setFbBuf dst (some b) ac)).view :=
    fun _ _ => hk.finalize ends_carries.ending _
  induction n generalizing bytes b ac with
  | zero => exact hstop b ac
  | succ n ih =>
    have hrecv := relayRecv_carries dst (b.cap - b.data.length) b
    have hnone := relayRecv_none dst (b.cap - b.data.length) b ac
    have hrecvState := relayRecv_state dst (b.cap - b.data.length) ac
    have hrecvReplay : (relayRecv dst (b.cap - b.data.length) ac).2.fb = ac.fb := by
      unfold relayRecv
      cases dst with
      | client => cases ac.recvRes <;> rfl
      | upstream => cases ac.clientRecvRes <;> rfl
    have hrecv := fun bs => hrecv bs ac hstate
    unfold fallbackReadLoop
    generalize relayRecv dst (b.cap - b.data.length) ac = r at hrecv hnone hrecvState hrecvReplay ⊢
    by_cases hfull : b.cap ≤ b.data.length
    · rw [if_pos hfull]
      exact hstop b ac
    · rw [if_neg hfull]
      obtain ⟨_ | _ | bs, ac'⟩ := r
      · have hstop' := hstop b ac'
        rw [hnone (by rintro _ ⟨⟩)] at hstop'
        exact hstop'
      · have hfail' := hfail b ac'
        rw [hnone (by rintro _ ⟨⟩)] at hfail'
        exact hfail'
      · dsimp only
        have hdata := hrecv bs rfl
        dsimp only at hdata hrecvState hrecvReplay
        by_cases hnil : bs = []
        · rw [if_pos hnil]
          obtain rfl := hnil
          rw [List.append_nil] at hdata
          exact hk.trans hdata (hfail b ac')
        · rw [if_neg hnil]
          have hstate' : dst = .upstream → ac'.state = .fallback := fun h =>
            hrecvState.trans (hstate h)
          have hreplay' : dst = .upstream → ac'.fb.replay = none := fun h => by
            rw [hrecvReplay]
            exact hreplay h
          have hput : ∀ (b : FbBuf) (ac : Connection),
              Reached (setFbBuf dst (some b) ac).view ac.view ∧
                Reached ac.view (setFbBuf dst (some b) ac).view := fun b ac => by
            cases dst
            · exact ⟨.refl _, .refl _⟩
            · exact ⟨parsed_reaches.same
                ⟨⟨rfl, rfl, rfl, rfl, rfl, rfl, rfl, rfl, rfl, rfl, rfl, rfl⟩, rfl⟩,
                parsed_reaches.same
                  ⟨⟨rfl, rfl, rfl, rfl, rfl, rfl, rfl, rfl, rfl, rfl, rfl, rfl⟩, rfl⟩⟩
          have hmid := parsed_reaches.fed.flushBuf dst { b with data := b.data ++ bs } ac'
          have hflush : Call View.Carries
            (setFbBuf dst (some { b with data := b.data ++ bs }) ac').view
              (setFbBuf dst (some (flushBuf dst { b with data := b.data ++ bs } ac').2.1)
                (flushBuf dst { b with data := b.data ++ bs } ac').2.2).view :=
            carries_call (((hput _ ac').1.trans hmid).trans (hput _ _).2) fun _ hi =>
              flush_relayed dst _ ac' hreplay' hstate' hi
          have hflushState : (flushBuf dst { b with data := b.data ++ bs } ac').2.2.state =
              ac'.state := flushBufLoop_state _ _ _ _ _
          have hflushReplay : (flushBuf dst { b with data := b.data ++ bs } ac').2.2.fb = ac'.fb :=
            flushBufLoop_fb _ _ _ _ _
          generalize flushBuf dst { b with data := b.data ++ bs } ac' = w
            at hflush hflushState hflushReplay ⊢
          have hall := hk.trans hdata hflush
          obtain ⟨_ | _ | _, b', ac''⟩ := w
          · dsimp only
            split_ifs
            · exact hk.trans hall (hstop b' ac'')
            · refine hk.trans hall
                (ih _ b' ac'' (fun h => hflushState.trans (hstate' h)) fun h => ?_)
              rw [show ac''.fb = ac'.fb from hflushReplay]
              exact hreplay' h
          · exact hall
          · exact hk.trans hall (hfail b' ac'')

private theorem fallbackRead_carries (dst : FbSide) (ac : Connection)
    (hstate : dst = .upstream → ac.state = .fallback) :
    Call View.Carries ac.view (fallbackRead (outerCallbacks conf) dst ac).view := by
  have hk := outer_carries conf
  unfold fallbackRead
  dsimp only
  by_cases hreplay : dst = .upstream ∧ ac.fb.replay.isSome
  · rw [if_pos hreplay]
    exact armOrFinalize_carries conf ac
  · rw [if_neg hreplay]
    have hnone : dst = .upstream → ac.fb.replay = none := fun hdst =>
      Option.not_isSome_iff_eq_none.mp fun h => hreplay ⟨hdst, h⟩
    have hflush := flushFbBuf_carries dst ac hnone
    cases hbuf : fbBuf dst ac with
    | none =>
      have hnew : Call View.Carries ac.view
          (setFbBuf dst (some { cap := ac.conf.bufferSize }) ac.allocNext).view := by
        cases dst with
        | client => exact hk.refl ac.view
        | upstream =>
          have hreached : Reached ac.view
              (setFbBuf .upstream (some { cap := ac.conf.bufferSize }) ac.allocNext).view :=
            parsed_reaches.same ⟨⟨rfl, rfl, rfl, rfl, rfl, rfl, rfl, rfl, rfl, rfl, rfl, rfl⟩, rfl⟩
          have hbuf : ac.view.clientBuf = none := hbuf
          refine carries_call hreached fun _ hi => ?_
          have hfb : ac.view.state = .fallback := hstate rfl
          refine ⟨hi.remnant, hi.refused, hi.auth, hi.relay, fun h => absurd hfb h, fun h => ?_,
            hi.replay, ?_⟩
          · have hsent := hi.sent h
            rw [hbuf] at hsent
            exact hsent
          · rintro b ⟨⟩
            exact Nat.zero_le _
      dsimp only
      split_ifs
      · exact hk.finalize ends_carries.ending ac.allocNext
      · exact hk.trans hnew (fallbackReadLoop_carries conf dst _ _ _ ac.allocNext hstate hnone)
    | some b =>
      have hloop := fallbackReadLoop_carries conf dst fallbackReadBudgetLoops 0 b ac hstate hnone
      rw [setFbBuf_self hbuf] at hloop
      dsimp only
      split_ifs
      · exact hk.trans hflush (hk.finalize ends_carries.ending _)
      · exact hflush
      · exact hloop

end Handlers

private theorem clientReadOnce_carries (ac : Connection) (hstate : ac.state ≠ .fallback) :
    Call View.Carries ac.view (clientReadOnce ac).2.view ∧
      ((clientReadOnce ac).1.isSome → (clientReadOnce ac).2.state ≠ .fallback) := by
  have hk := outer_carries ac.conf
  have hdone := Ended.clientReadDone_view false ac.clientRecvNext
  unfold clientReadOnce
  dsimp only
  cases ac.clientRecvRes with
  | again =>
    refine ⟨?_, nofun⟩
    dsimp only
    rw [hdone]
    exact hk.refl _
  | error => exact ⟨hk.finalize ends_carries.ending ac.clientRecvNext, nofun⟩
  | data bs =>
    have hfeed := feed_carries ac.conf (bs.take (readBufSize ac.conf)) ac.clientRecvNext hstate
    have hconf : ac.clientRecvNext.conf = ac.conf := rfl
    have hfinal := fun w => hk.finalize ends_carries.ending w
    dsimp only
    rw [hconf]
    generalize processClientBytes (innerCallbacks ac.conf)
      (ac.clientRecvNext.remnant ++ bs.take (readBufSize ac.conf)) _ = r at hfeed ⊢
    have hfeed : Call View.Carries ac.view r.2.view := hfeed
    by_cases hnil : bs.take (readBufSize ac.conf) = []
    · rw [if_pos hnil]
      exact ⟨hfinal (setClientEof ac.clientRecvNext), nofun⟩
    · rw [if_neg hnil]
      by_cases hrc : r.1 ≠ .ok
      · rw [if_pos hrc]
        refine ⟨?_, nofun⟩
        dsimp only
        split_ifs
        · exact hk.trans hfeed (hfinal _)
        · exact hfeed
      · rw [if_neg hrc]
        by_cases hfb : r.2.state = .fallback ∨ r.2.clientReadBlocked
        · rw [if_pos hfb]
          exact ⟨hfeed, nofun⟩
        · rw [if_neg hfb]
          exact ⟨hfeed, fun _ h => hfb (.inl h)⟩

private theorem clientReadLoop_carries (n bytes : Nat) (ac : Connection)
    (hstate : ac.state ≠ .fallback) :
    Call View.Carries ac.view (clientReadLoop n bytes ac).view := by
  have hk := outer_carries ac.conf
  induction n generalizing bytes ac with
  | zero =>
    rw [clientReadLoop, Ended.clientReadDone_view]
    exact hk.refl _
  | succ n ih =>
    obtain ⟨hone, hgo⟩ := clientReadOnce_carries ac hstate
    unfold clientReadLoop
    generalize clientReadOnce ac = r at hone hgo ⊢
    obtain ⟨_ | m, ac'⟩ := r
    · exact hone
    · dsimp only
      split_ifs
      · rw [Ended.clientReadDone_view]
        exact hone
      · exact hk.trans hone (ih _ ac' (hgo rfl) (outer_carries ac'.conf))

private theorem clientReadHandler_carries (timedout : Bool) (ac : Connection) :
    Call View.Carries ac.view (clientReadHandler timedout ac).view := by
  have hk := outer_carries ac.conf
  have hresume := hk.resume ac
  have hfinal := fun w => hk.finalize ends_carries.ending w
  unfold clientReadHandler
  dsimp only
  generalize (outerCallbacks ac.conf).resume ac = r at hresume ⊢
  split_ifs with _ hstate
  · exact hfinal ac
  · exact fallbackRead_carries ac.conf .upstream ac fun _ => hstate
  · exact hk.trans hresume (hfinal _)
  · exact hresume
  · exact hk.refl _
  · exact clientReadLoop_carries _ _ _ hstate

private theorem clientWriteHandler_carries (ac : Connection) :
    Call View.Carries ac.view (clientWriteHandler ac).view := by
  have hk := outer_carries ac.conf
  have hdrain := hk.drain 0 true (clearWritePending ac)
  have hfallback := fallbackWrite_carries ac.conf .client false (clearWritePending ac)
  have hfinal := fun w => hk.finalize ends_carries.ending w
  unfold clientWriteHandler
  dsimp only
  generalize clientMuxDrain (outerCallbacks ac.conf) 0 true (clearWritePending ac) = r
    at hdrain ⊢
  split_ifs
  · exact hfallback
  · exact hk.trans hdrain (hfinal _)
  · exact hdrain

/-- The handler of an event that can happen. -/
theorem handle_carries (e : Event) (ac : Connection) (he : e.enabled ac) :
    Call View.Carries ac.view (handle e ac).view := by
  have hk := outer_carries ac.conf
  unfold handle
  cases e with
  | clientRead timedout => exact clientReadHandler_carries timedout (unpostRead ac)
  | clientWrite => exact clientWriteHandler_carries (unpostWrite ac)
  | upstreamRead h => exact hk.readReady h ac
  | upstreamWrite h timedout ready =>
    obtain ⟨hknown, hup⟩ : h < ac.nstreams ∧ (ac.streams h).upstream.isSome := by
      simpa [Event.enabled] using he
    have hview : (if ready then reportWritable h ac else ac).view = ac.view := by
      split_ifs
      · exact Unfed.reportWritable_view h ac
      · rfl
    dsimp only
    generalize (if ready then reportWritable h ac else ac) = ac' at hview ⊢
    rw [← hview]
    have hn : ac'.nstreams = ac.nstreams := congrArg View.nstreams hview
    refine hk.writeHandler h timedout ac' ?_ (by rwa [hn])
    exact (congrArg (fun v => (v.streams h).hasUpstream) hview).trans hup
  | udpRead h => exact hk.udpRead h ac (by simp [Event.enabled] at he; exact he.1)
  | uotIdle h =>
    have hview := Unfed.expireUotTimer_view h ac
    have hknown : h < ac.nstreams := by simp [Event.enabled] at he; exact he.1
    dsimp only
    generalize expireUotTimer h ac = ac' at hview ⊢
    rw [← hview]
    have hn : ac'.nstreams = ac.nstreams := congrArg View.nstreams hview
    exact hk.uotIdle h ac' (by rwa [hn])
  | resolved h a => exact hk.resolveHandler h a ac
  | writeTimeout => exact hk.finalize ends_carries.ending (stopWriteTimer ac)
  | fallbackRead => exact fallbackRead_carries ac.conf .client ac (by rintro ⟨⟩)
  | fallbackWrite timedout => exact fallbackWrite_carries ac.conf .upstream timedout ac

private theorem step_carries (ac : Connection) (e : Event × Env) :
    Call View.Carries ac.view (step ac e).view := by
  have hk := outer_carries ac.conf
  unfold step
  split_ifs with hstop
  · exact hk.refl _
  · simp only [not_or, Bool.not_eq_true', Bool.not_eq_false] at hstop
    have hreached : Reached ac.view ((setEnv e.2 ac).log (.event e.1)).view :=
      .input (.event e.1) trivial ⟨rfl, rfl, rfl, rfl, rfl, rfl, rfl, rfl, rfl, rfl, rfl, rfl⟩ rfl
    have hheld : ac.view.Held ((setEnv e.2 ac).log (.event e.1)).view :=
      .one (.event e.1) ⟨rfl, rfl, by simp [NotDropped]⟩ rfl rfl ⟨rfl, rfl, rfl, rfl, rfl, rfl, rfl⟩
    have hapart : ac.view.Apart ((setEnv e.2 ac).log (.event e.1)).view :=
      .one (.event e.1) ⟨rfl, rfl⟩ rfl rfl rfl rfl rfl
    have he : e.1.enabled ((setEnv e.2 ac).log (.event e.1)) := hstop.2.2
    exact hk.trans (carries_call hreached fun _ hi => hi.held hheld hapart)
      (handle_carries e.1 _ he)

/-- At first nothing is on its way. -/
theorem init_relayed (conf : Conf) : (Connection.init conf).view.Relayed where
  remnant _ := rfl
  refused _ := .inr (.inl (Nat.succ_pos 33))
  auth _ _ := rfl
  relay h := nomatch h
  idle _ := ⟨rfl, rfl, rfl, rfl⟩
  sent h := nomatch h
  replay := nofun
  clientBuf := nofun

private theorem steps_carries (es : List (Event × Env)) (ac : Connection) :
    Call View.Carries ac.view (es.foldl step ac).view := by
  induction es generalizing ac with
  | nil => exact (outer_carries ac.conf).refl _
  | cons e es ih => exact (outer_carries ac.conf).trans (step_carries ac e) (ih _)

/-- The fallback upstream gets the header and then what the client sent, in order and without a gap,
as long as the auth buffer could hold all that had been sent when the relay started. -/
theorem run_relay_order (conf : Conf) (es : List (Event × Env))
    (hn : NoOverflow (run conf es).trace) :
    relaySent (run conf es).trace <+:
      relayHeader (run conf es).trace ++ received (run conf es).trace := by
  have hi : (run conf es).view.Relayed :=
    (steps_carries es (Connection.init conf) (init_sane conf)).2.2 hn (init_relayed conf)
  by_cases hstate : (run conf es).state = .fallback
  · exact ⟨_, (List.append_assoc _ _ _).symm.trans (hi.sent hstate)⟩
  · rw [show relaySent (run conf es).trace = [] from (hi.idle hstate).1]
    exact List.nil_prefix

/-- A client that sends less than the auth buffer holds cannot overflow it. -/
theorem NoOverflow.of_length {t : List Obs} (h : (received t).length ≤ authBufSize) :
    NoOverflow t := by
  rintro s header u rfl
  rw [received_append, List.length_append] at h
  omega

/-- Sessions of these have a fallback and read large chunks. -/
def relayConf : Conf :=
  { users := [{ name := [97], hash := List.replicate 32 1 }], bufferSize := 70000
    fallback := true }

/-- A client that is no user; the upstream takes the replay in two parts. -/
def relayRun : List (Event × Env) :=
  [sampleRead (List.replicate 20 7) {}, sampleRead (List.replicate 20 8) { connect := [.ok] },
    (.fallbackWrite false, { send := [.done 25, .again], writable := [true] }),
    (.fallbackWrite false, { send := [.done 100], writable := [true] }),
    sampleRead [9, 9] { send := [.done 1, .again] }]

theorem run_relay_order_sample : relaySent (run relayConf relayRun).trace <+:
    relayHeader (run relayConf relayRun).trace ++ received (run relayConf relayRun).trace :=
  run_relay_order relayConf relayRun (.of_length (by decide))

/-- A buffer that the far end takes in one call. -/
theorem flushBuf_whole (dst : FbSide) (b : FbBuf) (ac : Connection) (n : Nat)
    (hres : ac.sendRes = .done n) (hpos : b.pos = 0) (hne : b.data ≠ [])
    (hn : b.data.length ≤ n) (hbudget : b.data.length ≤ fallbackWriteBudget) :
    flushBuf dst b ac = (.ok, b.reset, logRelay dst b.data ac.sendNext) := by
  have hlen : 0 < b.data.length := List.length_pos_iff.mpr hne
  obtain ⟨m, hm⟩ : ∃ m, b.data.length = m + 1 := ⟨b.data.length - 1, by omega⟩
  have hsize : min n (min (b.data.length - b.pos) (fallbackWriteBudget - 0)) = b.data.length := by
    omega
  have hrest : b.rest.take b.data.length = b.data := by
    rw [FbBuf.rest, hpos, List.drop_zero, List.take_length]
  have hdone : ∀ (fuel sent : Nat) (ac : Connection),
      flushBufLoop dst (fuel + 1) sent (b.advance b.data.length) ac = (.ok, b.reset, ac) := by
    intro fuel sent ac
    have hpast : (b.advance b.data.length).data.length ≤ (b.advance b.data.length).pos :=
      Nat.le_add_left _ _
    rw [flushBufLoop, if_pos hpast]
    rfl
  rw [flushBuf, flushBufLoop, if_neg (by omega), hres]
  dsimp only
  rw [hsize, if_neg hlen.ne', hrest, if_neg]
  · have hend := hdone m (0 + b.data.length) (logRelay dst b.data ac.sendNext)
    rwa [← hm] at hend
  · rintro ⟨-, hshort⟩
    have hpast : ¬ b.pos + b.data.length < b.data.length := by omega
    exact hpast hshort

private theorem fallbackWriteUpstream_replayed (k : Callbacks) {ac ac' : Connection}
    (hreplay : flushReplay ac = (.ok, ac')) (hbuf : ac'.fb.clientBuf = none)
    (harm : ac'.env.arm = []) : fallbackWriteUpstream k ac = ac'.arm.2.arm.2 := by
  simp [fallbackWriteUpstream, hreplay, flushFbBuf, fbBuf, hbuf, Connection.arm,
    Connection.armOk, Connection.armNext, harm, armOrFinalize]

/-- The upstream is writable and takes all that is sent again. -/
theorem relay_replays {ac : Connection} {b : FbBuf} {n : Nat} (hopen : ac.closing = false)
    (hhung : ac.hung = false) (hopened : ac.fb.opened = true)
    (hconnected : ac.fb.connected = true) (hreplay : ac.fb.replay = some b) (hpos : b.pos = 0)
    (hne : b.data ≠ []) (hn : b.data.length ≤ n) (hbudget : b.data.length ≤ fallbackWriteBudget)
    (hbuf : ac.fb.clientBuf = none) :
    step ac (.fallbackWrite false, { send := [.done n], writable := [true] }) =
      (setReplay none (logRelay .upstream b.data
        ((setEnv {} ac).log (.event (.fallbackWrite false))))).arm.2.arm.2 := by
  rw [step, if_neg (by simp [hopen, hhung, hopened, Event.enabled])]
  show fallbackWrite (outerCallbacks ac.conf) .upstream false
    ((setEnv { send := [.done n], writable := [true] } ac).log (.event (.fallbackWrite false))) = _
  have hconnect : ∀ k : Callbacks, fallbackConnect k false
      ((setEnv { send := [.done n], writable := [true] } ac).log (.event (.fallbackWrite false))) =
        (true, (setEnv { send := [.done n], writable := [true] } ac).log
          (.event (.fallbackWrite false))) := fun _ => if_pos hconnected
  rw [fallbackWrite, if_pos rfl, hconnect]
  show fallbackWriteUpstream (outerCallbacks ac.conf)
    ((setEnv { send := [.done n] } ac).log (.event (.fallbackWrite false))) = _
  refine fallbackWriteUpstream_replayed _ ?_ hbuf rfl
  rw [flushReplay, show ((setEnv { send := [.done n] } ac).log
    (.event (.fallbackWrite false))).fb.replay = some b from hreplay]
  dsimp only
  rw [flushBuf_whole .upstream b _ n rfl hpos hne hn hbudget]
  rfl

private theorem clientReadHandler_relay {ac : Connection} (hstate : ac.state = .fallback) :
    clientReadHandler false ac = fallbackRead (outerCallbacks ac.conf) .upstream ac := by
  rw [clientReadHandler, if_neg (by simp), if_pos hstate]

/-- The relay takes one byte of the client, and the upstream takes it too. -/
theorem fallbackRead_byte (k : Callbacks) {ac : Connection} (hreplay : ac.fb.replay = none)
    (hbuf : ac.fb.clientBuf = none) (hsize : ac.conf.bufferSize = 70000) (b : UInt8) :
    (fallbackRead k .upstream
      (setEnv { send := [.done 1], clientRecv := [.data [b]] } ac)).trace =
        ac.trace ++ [.clientRecv [b], .fallbackSend [b]] := by
  have hnone :
      fbBuf .upstream (setEnv { send := [.done 1], clientRecv := [.data [b]] } ac) = none := hbuf
  have hdone : ¬(FbSide.upstream = .upstream ∧
      (setEnv { send := [.done 1], clientRecv := [.data [b]] } ac).fb.replay.isSome) := by
    show ¬(_ ∧ ac.fb.replay.isSome)
    simp [hreplay]
  rw [fallbackRead, if_neg hdone, hnone]
  show (fallbackReadLoop _ _ _ _ { cap := ac.conf.bufferSize } _).trace = _
  rw [hsize]
  show (ac.trace ++ [_]) ++ [_] = _
  rw [List.append_assoc]
  rfl

/-- The read event of the client is one of the relay. -/
theorem relay_reads {ac : Connection} (hopen : ac.closing = false) (hhung : ac.hung = false)
    (hstate : ac.state = .fallback) (hreplay : ac.fb.replay = none)
    (hbuf : ac.fb.clientBuf = none) (hsize : ac.conf.bufferSize = 70000) (b : UInt8) :
    (step ac (sampleRead [b] { send := [.done 1] })).trace =
      ac.trace ++ [.event (.clientRead false), .clientRecv [b], .fallbackSend [b]] := by
  rw [step, if_neg (by simp [hopen, hhung, sampleRead, Event.enabled])]
  show (clientReadHandler false (setEnv { send := [.done 1], clientRecv := [.data [b]] }
    (unpostRead (ac.log (.event (.clientRead false)))))).trace = _
  have hstate' : (setEnv { send := [.done 1], clientRecv := [.data [b]] }
      (unpostRead (ac.log (.event (.clientRead false))))).state = .fallback := hstate
  have hreplay' : (unpostRead (ac.log (.event (.clientRead false)))).fb.replay = none := hreplay
  rw [clientReadHandler_relay hstate', fallbackRead_byte _ hreplay' hbuf hsize]
  show (ac.trace ++ [_]) ++ _ = _
  rw [List.append_assoc]
  rfl

/-- A read of 33 bytes and one of the largest size, and then one more byte. -/
def overflowRun : List (Event × Env) :=
  [sampleRead (List.replicate 33 0) {}, sampleRead (List.replicate 65542 0) { connect := [.ok] },
    (.fallbackWrite false, { send := [.done 100000], writable := [true] }),
    sampleRead [1] { send := [.done 1] }]

/-- The two reads with which the relay starts. -/
def overflowOpened (bs : Bytes) : Connection :=
  run relayConf
    [sampleRead (List.replicate 33 0) {}, sampleRead (0 :: 0 :: bs) { connect := [.ok] }]

/-- What the auth buffer holds then. -/
def overflowHeld (bs : Bytes) : Bytes :=
  List.replicate 34 0 ++
    (List.take 65541 (0 :: bs)).take (min (List.take 65541 (0 :: bs)).length 65535)

private theorem overflowOpened_replay (bs : Bytes) : (overflowOpened bs).fb.replay =
    some { cap := (overflowHeld bs).length + 128, data := overflowHeld bs } := by rfl

private theorem overflowOpened_trace (bs : Bytes) : (overflowOpened bs).trace =
    [.event (.clientRead false), .clientRecv (List.replicate 33 0), .event (.clientRead false),
      .clientRecv (0 :: List.take 65541 (0 :: bs)), .fallbackOpen []] := by rfl

-- the lists stay variables here: nothing below evaluates them

private theorem overflowOpened_relaying (bs : Bytes) : (overflowOpened bs).closing = false ∧
    (overflowOpened bs).hung = false ∧ (overflowOpened bs).fb.opened = true ∧
    (overflowOpened bs).fb.connected = true ∧ (overflowOpened bs).fb.clientBuf = none ∧
    (overflowOpened bs).state = .fallback ∧ (overflowOpened bs).conf = relayConf :=
  ⟨by rfl, by rfl, by rfl, by rfl, by rfl, by rfl, by rfl⟩

/-- The upstream takes what is sent again, and then one byte of the client. -/
theorem relay_goes_on {ac : Connection} {b : FbBuf} {n : Nat} (hopen : ac.closing = false)
    (hhung : ac.hung = false) (hopened : ac.fb.opened = true)
    (hconnected : ac.fb.connected = true) (hreplay : ac.fb.replay = some b) (hpos : b.pos = 0)
    (hne : b.data ≠ []) (hn : b.data.length ≤ n) (hbudget : b.data.length ≤ fallbackWriteBudget)
    (hbuf : ac.fb.clientBuf = none) (hstate : ac.state = .fallback)
    (hsize : ac.conf.bufferSize = 70000) (x : UInt8) :
    (step (step ac (.fallbackWrite false, { send := [.done n], writable := [true] }))
      (sampleRead [x] { send := [.done 1] })).trace =
    ac.trace ++ [.event (.fallbackWrite false), .fallbackSend b.data, .event (.clientRead false),
      .clientRecv [x], .fallbackSend [x]] := by
  rw [relay_replays hopen hhung hopened hconnected hreplay hpos hne hn hbudget hbuf]
  obtain ⟨w, hw⟩ : ∃ w, w = (setReplay none (logRelay .upstream b.data
      ((setEnv {} ac).log (.event (.fallbackWrite false))))).arm.2.arm.2 := ⟨_, rfl⟩
  have htrace :
      w.trace = ac.trace ++ [.event (.fallbackWrite false)] ++ [.fallbackSend b.data] := by
    rw [hw]
    rfl
  have hread : (step w (sampleRead [x] { send := [.done 1] })).trace =
      w.trace ++ [.event (.clientRead false), .clientRecv [x], .fallbackSend [x]] := by
    have hfields : w.closing = ac.closing ∧ w.hung = ac.hung ∧ w.state = ac.state ∧
        w.fb.replay = none ∧ w.fb.clientBuf = ac.fb.clientBuf ∧ w.conf = ac.conf := by
      rw [hw]
      dsimp only [setReplay, logRelay, Connection.log, setEnv, Connection.arm, Connection.armNext]
      exact ⟨rfl, rfl, rfl, rfl, rfl, rfl⟩
    obtain ⟨hclosing', hhung', hstate', hreplay', hbuf', hconf'⟩ := hfields
    exact relay_reads (hclosing'.trans hopen) (hhung'.trans hhung) (hstate'.trans hstate) hreplay'
      (hbuf'.trans hbuf) (hconf' ▸ hsize) x
  rw [← hw, hread, htrace]
  simp only [List.append_assoc, List.cons_append, List.nil_append]

private theorem overflowOpened_relays {bs : Bytes} (hlen : (overflowHeld bs).length = authBufSize) :
    (step (step (overflowOpened bs)
      (.fallbackWrite false, { send := [.done 100000], writable := [true] }))
      (sampleRead [1] { send := [.done 1] })).trace =
    (overflowOpened bs).trace ++ [.event (.fallbackWrite false), .fallbackSend (overflowHeld bs),
      .event (.clientRead false), .clientRecv [1], .fallbackSend [1]] := by
  obtain ⟨hopen, hhung, hopened, hconnected, hbuf, hstate, hconf⟩ := overflowOpened_relaying bs
  have hne : overflowHeld bs ≠ [] := fun hnil => by
    rw [hnil] at hlen
    cases hlen
  have hfits : (overflowHeld bs).length ≤ 100000 := hlen.trans_le (by decide)
  have hbudget : (overflowHeld bs).length ≤ fallbackWriteBudget := hlen.trans_le (by decide)
  exact relay_goes_on hopen hhung hopened hconnected (overflowOpened_replay bs) rfl hne hfits
    hbudget hbuf hstate (by rw [hconf]; rfl) 1

/-- What the records of the run say, whatever bytes they hold. -/
theorem overflow_records (a b d : Bytes) {t : List Obs}
    (ht : t = [.event (.clientRead false), .clientRecv a, .event (.clientRead false), .clientRecv b,
      .fallbackOpen [], .event (.fallbackWrite false), .fallbackSend d, .event (.clientRead false),
      .clientRecv [1], .fallbackSend [1]]) :
    relaySent t = d ++ [1] ∧ relayHeader t ++ received t = a ++ b ++ [1] := by
  subst ht
  simp [relaySent, relayHeader, received]

private theorem overflowRun_trace : (run relayConf overflowRun).trace =
    [.event (.clientRead false), .clientRecv (List.replicate 33 0), .event (.clientRead false),
      .clientRecv (List.replicate 65542 0), .fallbackOpen [], .event (.fallbackWrite false),
      .fallbackSend (List.replicate 65569 0), .event (.clientRead false), .clientRecv [1],
      .fallbackSend [1]] := by
  have htake :
      List.take 65541 (0 :: List.replicate 65540 (0 : UInt8)) = List.replicate 65541 0 := by
    rw [← List.replicate_succ, List.take_replicate]
    exact congrArg (List.replicate · 0) (by decide)
  have hheld : overflowHeld (List.replicate 65540 0) = List.replicate 65569 0 := by
    rw [overflowHeld, htake, List.length_replicate, List.take_replicate,
      List.replicate_append_replicate]
    exact congrArg (List.replicate · 0) (by decide)
  have hlen : (overflowHeld (List.replicate 65540 0)).length = authBufSize := by
    rw [hheld, List.length_replicate]
    rfl
  have hrelays := overflowOpened_relays hlen
  rw [overflowOpened_trace, hheld, htake] at hrelays
  have hbig : List.replicate 65542 (0 : UInt8) = 0 :: 0 :: List.replicate 65540 0 := by
    rw [← List.replicate_succ, ← List.replicate_succ]
  have hrun : run relayConf overflowRun = step (step (overflowOpened (List.replicate 65540 0))
      (.fallbackWrite false, { send := [.done 100000], writable := [true] }))
      (sampleRead [1] { send := [.done 1] }) := by
    have hsplit : overflowRun =
        [sampleRead (List.replicate 33 0) {},
          sampleRead (0 :: 0 :: List.replicate 65540 0) { connect := [.ok] }] ++
        [(.fallbackWrite false, { send := [.done 100000], writable := [true] }),
          sampleRead [1] { send := [.done 1] }] := by
      rw [overflowRun, hbig, List.cons_append, List.cons_append, List.nil_append]
    rw [hsplit, run_append, List.foldl_cons, List.foldl_cons, List.foldl_nil, overflowOpened]
  have hread : List.replicate 65542 (0 : UInt8) = 0 :: List.replicate 65541 0 := by
    rw [← List.replicate_succ]
  rw [hrun, hrelays, hread]
  simp only [List.cons_append, List.nil_append]

private theorem zeros_not_prefix {m n : Nat} (hlt : m < n) :
    ¬ List.replicate m (0 : UInt8) ++ [1] <+: List.replicate n 0 ++ [1] := by
  rintro ⟨rest, hrest⟩
  have hone : (List.replicate m (0 : UInt8) ++ [1] ++ rest)[m]? = some 1 := by simp
  have hzero : (List.replicate n (0 : UInt8) ++ [1])[m]? = some 0 := by
    rw [List.getElem?_append_left (by simp [hlt]), List.getElem?_replicate, if_pos hlt]
  rw [hrest, hzero] at hone
  exact absurd hone (by decide)

/-- The six bytes that the auth buffer could not hold are missing from what the upstream gets. -/
theorem relay_overflow : ¬ relaySent (run relayConf overflowRun).trace <+:
    relayHeader (run relayConf overflowRun).trace ++
      received (run relayConf overflowRun).trace := by
  obtain ⟨hsent, hreceived⟩ := overflow_records _ _ _ overflowRun_trace
  rw [hsent, hreceived, List.replicate_append_replicate]
  exact zeros_not_prefix (by decide)

end NgxAnytls
