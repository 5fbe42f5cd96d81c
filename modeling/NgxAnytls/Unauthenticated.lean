import NgxAnytls.Accounting
import NgxAnytls.AuthSplit

/-! Nobody gets past authentication without the hash of a user: until its 32 bytes were received, no
frame is parsed and no stream is opened, whatever else happens to the session. -/

namespace NgxAnytls

/-- What was received begins with the hash of a configured user and a padding length. -/
def View.Entered (v : View) : Prop :=
  authPrefixLen ≤ (received v.trace).length ∧
    ∃ u ∈ v.conf.users, (received v.trace).take 32 = u.hash

/-- What an authentication buffer holds of the hash and the padding length came first. -/
structure AuthFront (auth bs : Bytes) : Prop where
  front : auth.take authPrefixLen <+: bs
  short : auth.length < authPrefixLen → auth = bs

/-- Nothing but authentication and the relay has run. -/
structure View.Locked (v : View) : Prop where
  authenticated : v.authenticated = false
  matched : v.authHashMatched = false
  streams : v.nstreams = 0
  frames : parsedFrames v.trace = []
  remnant : v.remnant = []
  front : AuthFront v.auth (received v.trace)
  relay : v.state = .fallback → authPrefixLen ≤ v.auth.length

/-- Effects that let nobody in without a hash. -/
structure View.Guards (v v' : View) : Prop where
  conf : v'.conf = v.conf
  trace : v.trace <+: v'.trace
  locked : v.Locked → v'.Entered ∨ v'.Locked

section Guards

variable {v v' : View}

private theorem received_mono {s t : List Obs} (h : s <+: t) : received s <+: received t := by
  obtain ⟨rest, rfl⟩ := h
  rw [received_append]
  exact List.prefix_append _ _

namespace AuthFront

variable {auth bs : Bytes}

/-- A buffer that holds the hash and the padding length holds the first bytes received. -/
theorem hash (h : AuthFront auth bs) (hlen : authPrefixLen ≤ auth.length) :
    authPrefixLen ≤ bs.length ∧ bs.take 32 = auth.take 32 := by
  have hfull : (auth.take authPrefixLen).length = authPrefixLen := by
    rw [List.length_take]
    exact min_eq_left hlen
  obtain ⟨rest, rfl⟩ := h.front
  refine ⟨?_, ?_⟩
  · rw [List.length_append, hfull]
    exact Nat.le_add_right _ _
  · rw [List.take_append_of_le_length (by rw [hfull, authPrefixLen]; omega), List.take_take]
    rfl

/-- A buffer that is not full takes what comes. -/
theorem fill (h : AuthFront auth bs) (data : Bytes) (hlen : auth.length < authPrefixLen) (n : Nat)
    (hn : auth.length + (data.take n).length < authPrefixLen → data.length ≤ n) :
    AuthFront (auth ++ data.take n) (bs ++ data) := by
  rw [← h.short hlen]
  refine ⟨?_, fun hshort => ?_⟩
  · exact (List.take_prefix _ _).trans
      ((List.prefix_append_right_inj _).mpr (List.take_prefix _ _))
  · rw [List.take_of_length_le (hn (by rwa [List.length_append] at hshort))]

/-- What follows the hash and the padding length does not change them. -/
theorem more (h : AuthFront auth bs) (hlen : authPrefixLen ≤ auth.length) (data rest : Bytes) :
    AuthFront (auth ++ data) (bs ++ rest) := by
  refine ⟨?_, fun hshort => ?_⟩
  · rw [List.take_append_of_le_length hlen]
    exact h.front.trans (List.prefix_append _ _)
  · rw [List.length_append] at hshort
    omega

end AuthFront

theorem View.Entered.mono (h : v.Entered) (hconf : v'.conf = v.conf)
    (ht : v.trace <+: v'.trace) : v'.Entered := by
  obtain ⟨hlen, u, hu, htake⟩ := h
  obtain ⟨rest, hrest⟩ := received_mono ht
  unfold authPrefixLen at hlen
  refine ⟨?_, u, hconf ▸ hu, ?_⟩
  · rw [← hrest, List.length_append, authPrefixLen]
    omega
  · rw [← hrest, List.take_append_of_le_length (by omega)]
    exact htake

theorem View.Guards.trans {a b c : View} (hab : a.Guards b) (hbc : b.Guards c) : a.Guards c where
  conf := hbc.conf.trans hab.conf
  trace := hab.trace.trans hbc.trace
  locked hl := by
    rcases hab.locked hl with he | hl
    · exact .inl (he.mono hbc.conf hbc.trace)
    · exact hbc.locked hl

/-- What leaves the input alone and opens no stream leaves the session locked. -/
theorem View.Held.guards (h : v.Held v') (ht : v.trace <+: v'.trace)
    (hn : v'.nstreams = v.nstreams) : v.Guards v' where
  conf := h.conf
  trace := ht
  locked hl := by
    refine .inr ⟨h.authenticated.trans hl.authenticated, h.matched.trans hl.matched,
      hn.trans hl.streams, h.frames.trans hl.frames, h.remnant.trans hl.remnant, ?_, ?_⟩
    · rw [h.auth, h.received]
      exact hl.front
    · rw [h.state, h.auth]
      exact hl.relay

private theorem startReplay_locked (header raw : Bytes) (ac : Connection) (hl : ac.view.Locked)
    (hlen : authPrefixLen ≤ ac.auth.length) : (startReplay header raw ac).view.Locked := by
  have htrace : (startReplay header raw ac).view.trace = ac.view.trace ++ [.fallbackOpen header] :=
    rfl
  refine ⟨hl.authenticated, hl.matched, hl.streams, ?_, hl.remnant, ?_, fun _ => hlen⟩
  · rw [htrace, parsedFrames_append, hl.frames]
    rfl
  · rw [htrace, received_append, show received [.fallbackOpen header] = [] from rfl,
      List.append_nil]
    exact hl.front

private theorem fallbackStart_locked (raw : Bytes) (ac : Connection) (hl : ac.view.Locked)
    (hlen : authPrefixLen ≤ ac.auth.length) : (fallbackStart raw ac).2.view.Locked := by
  rcases fallbackStart_cases raw ac with h | ⟨header, ac', hview, h⟩
  · exact h ▸ hl
  · rw [h]
    refine startReplay_locked header raw ac' (hview ▸ hl) ?_
    rwa [show ac'.auth = ac.auth from congrArg View.auth hview]

/-- The part of the prefix that is there is taken first. -/
theorem AuthFront.first {ac : Connection} {bs : Bytes} (h : AuthFront ac.auth bs) (data : Bytes) :
    AuthFront (authFirst data ac).2.auth (bs ++ data) := by
  have hauth := authFirst_auth data ac
  rcases authFirst_length data ac with ⟨hlen, -⟩ | ⟨heq, hlen⟩
  · rw [hauth]
    refine h.fill data hlen _ fun hshort => authFirst_more ?_
    rwa [hauth, List.length_append]
  · rw [heq]
    have hmore := h.more hlen [] data
    rwa [List.append_nil] at hmore

/-- Bytes that bring no hash of a user do not authenticate. -/
theorem authProcess_stranger (data : Bytes) (ac : Connection) {bs : Bytes}
    (h : AuthFront ac.auth bs)
    (hmatched : ac.authHashMatched = false)
    (hstranger : authPrefixLen ≤ (bs ++ data).length →
      ∀ u ∈ ac.conf.users, (bs ++ data).take 32 ≠ u.hash) :
    (authProcess data ac).1 ≠ .ok ∧ (authProcess data ac).2.2.authHashMatched = false ∧
      AuthFront (authProcess data ac).2.2.auth (bs ++ data) ∧
      ((authProcess data ac).1 = .fallback →
        authPrefixLen ≤ (authProcess data ac).2.2.auth.length) := by
  have hfirst := h.first data
  obtain ⟨hkept, -, hconf⟩ := authFirst_kept data ac
  rw [authProcess_eq]
  generalize authFirst data ac = t at hfirst hkept hconf ⊢
  have hm : t.2.authHashMatched = false := hkept.trans hmatched
  by_cases hshort : t.2.auth.length < authPrefixLen
  · rw [if_pos hshort]
    exact ⟨nofun, hm, hfirst, nofun⟩
  · have hlen : authPrefixLen ≤ t.2.auth.length := Nat.le_of_not_lt hshort
    obtain ⟨hfull, htake⟩ := hfirst.hash hlen
    have hnone : matchUser t.2 = none := by
      rw [matchUser_eq_none, hconf, ← htake]
      exact hstranger hfull
    rw [if_neg hshort, if_neg (by simp [hm]), hnone]
    have hmore := hfirst.more hlen ((data.drop t.1).take
      (authTake authBufSize (data.drop t.1) t.2).1) []
    rw [List.append_nil] at hmore
    refine ⟨nofun, hm, hmore, fun _ => ?_⟩
    show authPrefixLen ≤ (t.2.auth ++ _).length
    rw [List.length_append]
    omega

/-- A read that brings no hash of a user leaves the session locked: the bytes wait for the rest of
the prefix, or the relay starts. -/
theorem stranger_locked (conf : Conf) (bs : Bytes) (ac : Connection) (hl : ac.view.Locked)
    (hstranger : ¬((setRemnant [] ac).log (.clientRecv bs)).view.Entered) :
    (processClientBytes (innerCallbacks conf) (ac.remnant ++ bs)
      ((setRemnant [] ac).log (.clientRecv bs))).2.view.Locked := by
  have hrec : received ((setRemnant [] ac).log (.clientRecv bs)).view.trace =
      received ac.view.trace ++ bs := by
    show received (ac.view.trace ++ [.clientRecv bs]) = _
    simp [received]
  have hframes : parsedFrames ((setRemnant [] ac).log (.clientRecv bs)).view.trace = [] := by
    show parsedFrames (ac.view.trace ++ [.clientRecv bs]) = []
    rw [parsedFrames_append, hl.frames]
    rfl
  have hnone : authPrefixLen ≤ (received ac.view.trace ++ bs).length →
      ∀ u ∈ ac.conf.users, (received ac.view.trace ++ bs).take 32 ≠ u.hash := fun hlen u hu heq =>
    hstranger ⟨hrec ▸ hlen, u, hu, hrec ▸ heq⟩
  have hwaits : ac.view.Refused ∨ ac.view.Waiting := by
    by_cases hshort : ac.auth.length < authPrefixLen
    · exact .inr (.inl hshort)
    · obtain ⟨hlen, htake⟩ := hl.front.hash (Nat.le_of_not_lt hshort)
      refine .inl ⟨Nat.le_of_not_lt hshort, hl.matched, fun u hu heq => ?_⟩
      refine hnone (hlen.trans (by rw [List.length_append]; omega)) u hu ?_
      unfold authPrefixLen at hlen
      rw [List.take_append_of_le_length (by omega), htake]
      exact heq
  obtain ⟨hnot, hm, hfront, hfull⟩ := authProcess_stranger bs
    ((setRemnant [] ac).log (.clientRecv bs)) hl.front hl.matched hnone
  obtain ⟨hstep, -⟩ := authProcess_step bs ((setRemnant [] ac).log (.clientRecv bs)) hwaits
  have hstreams : (authProcess bs ((setRemnant [] ac).log (.clientRecv bs))).2.2.nstreams = 0 :=
    (authProcess_same bs ((setRemnant [] ac).log (.clientRecv bs))).1.nstreams.trans hl.streams
  have hauth : ((setRemnant [] ac).log (.clientRecv bs)).authenticated = false := hl.authenticated
  have hrelay : ((setRemnant [] ac).log (.clientRecv bs)).state = .fallback →
      authPrefixLen ≤ ((setRemnant [] ac).log (.clientRecv bs)).auth.length := hl.relay
  rw [show ac.remnant = [] from hl.remnant, List.nil_append]
  unfold processClientBytes
  rw [if_neg (by simp [hauth])]
  have hrem : ((setRemnant [] ac).log (.clientRecv bs)).remnant = [] := rfl
  generalize (setRemnant [] ac).log (.clientRecv bs) = ac₀ at *
  generalize authProcess bs ac₀ = r at *
  obtain ⟨res, consumed, ac'⟩ := r
  have hlocked : ac'.view.Locked := by
    refine ⟨(hstep.authenticated hnot).trans hauth, hm, hstreams, ?_, hstep.remnant.trans hrem,
      ?_, fun hfb => ?_⟩
    · exact (congrArg parsedFrames hstep.trace).trans hframes
    · exact (congrArg received hstep.trace).trans hrec ▸ hfront
    · have hlen := hrelay ((hstep.state hnot).symm.trans hfb)
      rw [show ac'.view.auth = ac₀.auth ++ bs.take consumed from hstep.auth, List.length_append]
      omega
  cases res with
  | ok => exact absurd rfl hnot
  | more => exact hlocked
  | fallback =>
    dsimp only
    split_ifs
    · exact hlocked
    · exact fallbackStart_locked _ _ hlocked (hfull rfl)

/-- What a read brought. -/
theorem feed_guards (conf : Conf) (bs : Bytes) (ac : Connection) (hs : ac.view.Sane) :
    ac.view.Guards (processClientBytes (innerCallbacks conf) (ac.remnant ++ bs)
      ((setRemnant [] ac).log (.clientRecv bs))).2.view := by
  have hlog : SessionAct ac.view ((setRemnant [] ac).log (.clientRecv bs)).view :=
    .inputLog (.clientRecv bs) trivial
      ⟨rfl, rfl, rfl, rfl, rfl, rfl, rfl, rfl, rfl, rfl, rfl, rfl⟩ rfl
  obtain ⟨hk, hr⟩ := parsed_reaches.fed.feed conf bs ac hs
  obtain ⟨hk', hr'⟩ := parsed_reaches.clientBytes conf (ac.remnant ++ bs)
    ((setRemnant [] ac).log (.clientRecv bs)) (hlog.sane hs)
  refine ⟨hr.conf hs, hk.trace, fun hl => ?_⟩
  by_cases he : ((setRemnant [] ac).log (.clientRecv bs)).view.Entered
  · exact .inl (he.mono (hr'.conf (hlog.sane hs)) hk'.trace)
  · exact .inr (stranger_locked conf bs ac hl he)

/-- While the session is locked nothing is held back. -/
theorem resume_guards (conf : Conf) (ac : Connection) (hs : ac.view.Sane) :
    ac.view.Guards (inputResume (processClientBytes (innerCallbacks conf)) ac).2.view := by
  obtain ⟨hk, hr⟩ := parsed_reaches.resume conf ac hs
  refine ⟨hr.conf hs, hk.trace, fun hl => .inr ?_⟩
  have hrem : ¬(setInputPaused false ac).remnant ≠ [] := not_not.mpr hl.remnant
  unfold inputResume
  split_ifs
  · exact hl
  · exact hl
  · exact hl
  · rw [if_neg hrem, enableClientRead_view]
    exact ⟨hl.authenticated, hl.matched, hl.streams, hl.frames, hl.remnant, hl.front, hl.relay⟩

/-- The relay takes more bytes of a client that it has refused. -/
theorem View.Locked.received (hl : v.Locked) (bs : Bytes) (hstate : v.state = .fallback) :
    (v.log (.clientRecv bs)).Locked := by
  refine ⟨hl.authenticated, hl.matched, hl.streams, ?_, hl.remnant, ?_, hl.relay⟩
  · rw [View.log_trace, parsedFrames_append, hl.frames]
    rfl
  · have hmore := hl.front.more (hl.relay hstate) [] bs
    have hrec : NgxAnytls.received [.clientRecv bs] = bs := List.append_nil bs
    rw [View.log_trace, received_append, hrec]
    rwa [List.append_nil] at hmore

private theorem ended_guards : Ended View.Guards where
  refl _ := ⟨rfl, List.prefix_refl _, .inr⟩
  trans := .trans
  send ha := ha.held.guards (by cases ha <;> simp) (by cases ha <;> rfl)
  note {v} o ho := by
    have hh : v.Held (v.log o) :=
      .one o ho.noInput rfl rfl ⟨rfl, rfl, rfl, rfl, rfl, rfl, rfl⟩
    exact hh.guards (by simp) rfl
  act hs ha := ha.held.guards (SessionAct.trace_le (.act ha) hs) ha.nstreams
  relay hm hh ht := (View.Held.none ht hm.conf hh).guards (by rw [ht]) hm.nstreams
  relayLog o ho hm hh ht :=
    (View.Held.one o ho.noInput ht hm.conf hh).guards (by simp [ht]) hm.nstreams
  received bs hstate := ⟨rfl, by simp, fun hl => .inr (hl.received bs hstate)⟩
  resume conf ac hs := ⟨(parsed_reaches.resume conf ac hs).1, resume_guards conf ac hs⟩
  feed conf bs ac hs := ⟨(parsed_reaches.fed.feed conf bs ac hs).1, feed_guards conf bs ac hs⟩
  close ha := ha.held.guards (by cases ha <;> simp) (by cases ha <;> rfl)

theorem init_locked (conf : Conf) : (Connection.init conf).view.Locked :=
  ⟨rfl, rfl, rfl, rfl, rfl, ⟨List.prefix_refl _, fun _ => rfl⟩, nofun⟩

theorem run_entered (conf : Conf) (es : List (Event × Env)) :
    (run conf es).view.Entered ∨ (run conf es).view.Locked :=
  (ended_guards.run conf es).2.locked (init_locked conf)

end Guards

/-- A client whose first bytes are the hash of no user gets nothing of the mux, in any order of
events: it is not authenticated, none of its bytes is parsed as a frame, no stream is opened, and
no record of the run is about the client data, the socket or a frame of a stream. -/
theorem run_stranger (conf : Conf) (es : List (Event × Env))
    (hstranger : ∀ u ∈ conf.users, (received (run conf es).trace).take 32 ≠ u.hash) :
    (run conf es).authenticated = false ∧ parsedFrames (run conf es).trace = [] ∧
      (run conf es).nstreams = 0 ∧ ∀ o ∈ (run conf es).trace, o.stream? = none := by
  have hconf : (run conf es).conf = conf := Reaches.conf (run_reaches conf es) (init_sane conf)
  rcases run_entered conf es with ⟨-, u, hu, htake⟩ | hl
  · rw [show (run conf es).view.conf = conf from hconf] at hu
    exact absurd htake (hstranger u hu)
  · refine ⟨hl.authenticated, hl.frames, hl.streams, fun o ho => ?_⟩
    cases hst : o.stream? with
    | none => rfl
    | some h =>
      have hknown := (run_sane conf es).known o ho h hst
      rw [hl.streams] at hknown
      exact absurd hknown (Nat.not_lt_zero h)

/-- A client that sends whole frames behind the hash of no user, in two reads. -/
def strangerRun : List (Event × Env) :=
  [sampleRead (List.replicate 31 0) {},
    sampleRead ([1, 0, 0] ++ encodeFrame 4 0 sampleV2 ++ encodeFrame 1 1 [] ++
      encodeFrame 2 1 sampleTarget) { connect := [.ok] }]

theorem run_stranger_sample : (run sampleConf strangerRun).authenticated = false ∧
    parsedFrames (run sampleConf strangerRun).trace = [] ∧
      (run sampleConf strangerRun).nstreams = 0 ∧
        ∀ o ∈ (run sampleConf strangerRun).trace, o.stream? = none :=
  run_stranger sampleConf strangerRun (by decide)

end NgxAnytls
