import NgxAnytls.InputFlow

/-! Authentication depends on the bytes a client sends and not on how they are cut into reads. -/

namespace NgxAnytls

/-- A read of a client that is handed to `ngx_anytls_auth_process`, as long as the session is not
authenticated: the results and the bytes consumed so far, and the state. -/
def authRead (s : List (AuthResult × Nat) × Connection) (data : Bytes) :
    List (AuthResult × Nat) × Connection :=
  if s.2.authenticated then s
  else
    let r := authProcess data s.2
    (s.1 ++ [(r.1, r.2.1)], r.2.2)

/-- The reads of a new session. -/
def authReads (conf : Conf) (reads : List Bytes) : List (AuthResult × Nat) × Connection :=
  reads.foldl authRead ([], Connection.init conf)

private theorem authReads_concat (conf : Conf) (reads : List Bytes) (data : Bytes) :
    authReads conf (reads ++ [data]) = authRead (authReads conf reads) data := by
  rw [authReads, List.foldl_append]
  rfl

/-- The user whose hash the bytes start with. -/
def authUser (users : List User) (bs : Bytes) : Option User :=
  users.find? fun u => bs.take 32 = u.hash

/-- The answer to the bytes so far. -/
def authVerdict (users : List User) (bs : Bytes) : AuthResult :=
  if bs.length < authPrefixLen then .more
  else if authUser users bs = none then .fallback
  else if bs.length < authNeed bs then .more
  else .ok

section Verdict

variable {users : List User} {bs : Bytes}

private theorem authUser_eq_none : authUser users bs = none ↔ ∀ u ∈ users, bs.take 32 ≠ u.hash := by
  simp [authUser]

/-- With 34 bytes the user is known. -/
theorem authUser_append (h : authPrefixLen ≤ bs.length) (more : Bytes) :
    authUser users (bs ++ more) = authUser users bs := by
  unfold authPrefixLen at h
  rw [authUser, authUser, List.take_append_of_le_length (by omega)]

/-- Among distinct hashes the user is the one whose hash it is. -/
theorem authUser_eq {u : User} (hd : users.Pairwise fun a b => a.hash ≠ b.hash) (hu : u ∈ users)
    (hhash : bs.take 32 = u.hash) : authUser users bs = some u := by
  induction users with
  | nil => cases hu
  | cons a users ih =>
    obtain ⟨hne, hd'⟩ := List.pairwise_cons.mp hd
    unfold authUser at ih ⊢
    rw [List.find?_cons]
    by_cases ha : bs.take 32 = a.hash
    · rcases List.mem_cons.mp hu with rfl | hmem
      · simp [ha]
      · exact absurd (ha.symm.trans hhash) (hne u hmem)
    · rcases List.mem_cons.mp hu with rfl | hmem
      · exact absurd hhash ha
      · simp only [ha, decide_false]
        exact ih hd' hmem

end Verdict

/-- The padding leaves the match alone. -/
theorem authPad_kept (consumed : Nat) (data : Bytes) (ac : Connection) :
    (authPad consumed data ac).2.2.authHashMatched = ac.authHashMatched ∧
      (authPad consumed data ac).2.2.userName = ac.userName ∧
      (authPad consumed data ac).2.2.conf = ac.conf ∧
      ∃ more, (authPad consumed data ac).2.2.auth = ac.auth ++ more := by
  have hnone : ac.auth = ac.auth ++ [] := (List.append_nil _).symm
  unfold authPad
  dsimp only
  split_ifs
  · exact ⟨rfl, rfl, rfl, _, rfl⟩
  · exact ⟨rfl, rfl, rfl, _, rfl⟩
  · exact ⟨rfl, rfl, rfl, [], hnone⟩

theorem authFirst_kept (data : Bytes) (ac : Connection) :
    (authFirst data ac).2.authHashMatched = ac.authHashMatched ∧
      (authFirst data ac).2.userName = ac.userName ∧ (authFirst data ac).2.conf = ac.conf := by
  unfold authFirst
  split_ifs <;> exact ⟨rfl, rfl, rfl⟩

theorem authProcess_eq (data : Bytes) (ac : Connection) :
    authProcess data ac =
      if (authFirst data ac).2.auth.length < authPrefixLen then
        (.more, (authFirst data ac).1, (authFirst data ac).2)
      else if (authFirst data ac).2.authHashMatched then
        authPad (authFirst data ac).1 (data.drop (authFirst data ac).1) (authFirst data ac).2
      else
        match matchUser (authFirst data ac).2 with
        | none =>
          let rest := authTake authBufSize (data.drop (authFirst data ac).1) (authFirst data ac).2
          (.fallback, (authFirst data ac).1 + rest.1, rest.2)
        | some u => authPad (authFirst data ac).1 (data.drop (authFirst data ac).1)
            (setUser u (authFirst data ac).2) := rfl

/-- The match of a session, when there is one, and its name are those of its first 34 bytes. -/
structure Connection.Named (ac : Connection) : Prop where
  full : ac.authHashMatched = true → authPrefixLen ≤ ac.auth.length
  name : ac.authHashMatched = true →
    ∃ u, authUser ac.conf.users ac.auth = some u ∧ ac.userName = some u.name
  unnamed : ac.authHashMatched = false → ac.userName = none

/-- A match stays one while bytes come. -/
theorem Connection.Named.append {ac ac' : Connection} (h : ac.Named) {more : Bytes}
    (hauth : ac'.auth = ac.auth ++ more) (hmatched : ac'.authHashMatched = ac.authHashMatched)
    (hname : ac'.userName = ac.userName) (hconf : ac'.conf = ac.conf) : ac'.Named := by
  refine ⟨fun hm => ?_, fun hm => ?_, fun hm => hname.trans (h.unnamed (hmatched ▸ hm))⟩
  · rw [hauth, List.length_append]
    exact (h.full (hmatched ▸ hm)).trans (Nat.le_add_right _ _)
  · rw [hauth, hconf, hname, authUser_append (h.full (hmatched ▸ hm))]
    exact h.name (hmatched ▸ hm)

private theorem authProcess_named (data : Bytes) (ac : Connection) (h : ac.Named) :
    (authProcess data ac).2.2.Named ∧
      ((authProcess data ac).1 = .ok → (authProcess data ac).2.2.authHashMatched = true) := by
  obtain ⟨hmatched, hname, hconf⟩ := authFirst_kept data ac
  have hfirst := h.append (authFirst_auth data ac) hmatched hname hconf
  rw [authProcess_eq]
  generalize authFirst data ac = t at hfirst ⊢
  split_ifs with hshort hm
  · exact ⟨hfirst, nofun⟩
  · obtain ⟨hkept, hname', hconf', more, hauth⟩ := authPad_kept t.1 (data.drop t.1) t.2
    exact ⟨hfirst.append hauth hkept hname' hconf', fun _ => hkept.trans hm⟩
  · cases huser : matchUser t.2 with
    | none => exact ⟨hfirst.append rfl rfl rfl rfl, nofun⟩
    | some u =>
      obtain ⟨hkept, hname', hconf', more, hauth⟩ :=
        authPad_kept t.1 (data.drop t.1) (setUser u t.2)
      have hset : (setUser u t.2).Named :=
        ⟨fun _ => Nat.le_of_not_lt hshort, fun _ => ⟨u, huser, rfl⟩, nofun⟩
      exact ⟨hset.append hauth hkept hname' hconf', fun _ => hkept⟩

private theorem authPad_length (consumed : Nat) (data : Bytes) (ac : Connection) :
    (authPad consumed data ac).2.2.auth.length + consumed =
      ac.auth.length + (authPad consumed data ac).2.1 := by
  have htake := authTake_length (authPrefixLen + authPadding ac) data
    (setAuthPadding (authPadding ac) ac)
  have hcount : (authTake (authPrefixLen + authPadding ac) data
    (setAuthPadding (authPadding ac) ac)).1 =
      min data.length (authPrefixLen + authPadding ac - ac.auth.length) := rfl
  have hkept : (setAuthPadding (authPadding ac) ac).auth.length = ac.auth.length := rfl
  rw [hkept, ← hcount] at htake
  unfold authPad
  dsimp only
  have hneed : (setAuthPadding (authPadding ac) ac).authPaddingLen = authPadding ac := rfl
  rw [hneed, hkept]
  have hset : ∀ w : Connection, (setAuthenticated w).auth = w.auth := fun _ => rfl
  split_ifs
  · dsimp only
    omega
  · dsimp only
    rw [hset]
    omega
  · dsimp only
    omega
  · dsimp only
    rw [hset]
    omega

/-- What a call consumes goes into the buffer. -/
theorem authProcess_length (data : Bytes) (ac : Connection) :
    (authProcess data ac).2.2.auth.length = ac.auth.length + (authProcess data ac).2.1 := by
  have hfirst : (authFirst data ac).2.auth.length = ac.auth.length + (authFirst data ac).1 := by
    unfold authFirst
    split_ifs
    · exact authTake_length _ _ _
    · rfl
  rw [authProcess_eq]
  generalize authFirst data ac = t at hfirst ⊢
  have hpad := authPad_length t.1 (data.drop t.1)
  split_ifs
  · exact hfirst
  · have := hpad t.2
    omega
  · cases matchUser t.2 with
    | none =>
      have htake := authTake_length authBufSize (data.drop t.1) t.2
      have hcount : (authTake authBufSize (data.drop t.1) t.2).1 =
        min (data.drop t.1).length (authBufSize - t.2.auth.length) := rfl
      dsimp only
      omega
    | some u =>
      have := hpad (setUser u t.2)
      have hkept : (setUser u t.2).auth.length = t.2.auth.length := rfl
      dsimp only
      omega

/-- The name that the bytes stand for. -/
def authName (users : List User) (bs : Bytes) : Option Bytes :=
  if bs.length < authPrefixLen then none else (authUser users bs).map User.name

/-- Where authentication stands when the bytes `bs` have come in the reads that were handed to it:
`rs` are their results. -/
structure AuthAfter (conf : Conf) (bs : Bytes) (rs : List (AuthResult × Nat)) (ac : Connection) :
    Prop where
  config : ac.conf = conf
  named : ac.Named
  auth : ac.authenticated = false → ac.auth = bs.take authBufSize
  waits : ac.authenticated = false → ac.view.Refused ∨ (ac.view.Waiting ∧ ac.auth = bs)
  done : ac.authenticated = true → authPrefixLen ≤ ac.auth.length ∧
    ac.auth.length = authNeed ac.auth ∧ ac.auth <+: bs ∧ ac.authHashMatched = true
  name : ac.userName = authName conf.users bs
  consumed : (rs.map Prod.snd).sum = ac.auth.length

private theorem authNeed_le (bs : Bytes) : authNeed bs ≤ authBufSize :=
  Nat.add_le_add_left (Nat.le_of_lt_succ (be16_lt _ _)) _

section Reads

variable {conf : Conf} {bs : Bytes} {rs : List (AuthResult × Nat)} {ac : Connection}

/-- A call on the bytes of one more read, and what it answers. -/
theorem AuthAfter.call (h : AuthAfter conf bs rs ac) (hauth : ac.authenticated = false)
    (data : Bytes) :
    (authProcess data ac).1 = authVerdict conf.users (bs ++ data) ∧
      AuthAfter conf (bs ++ data) (rs ++ [((authProcess data ac).1, (authProcess data ac).2.1)])
        (authProcess data ac).2.2 := by
  obtain ⟨hstep, hrefused⟩ := authProcess_step data ac ((h.waits hauth).imp_right And.left)
  obtain ⟨hnamed, hmatched⟩ := authProcess_named data ac h.named
  have hlength := authProcess_length data ac
  generalize authProcess data ac = r at hstep hrefused hnamed hmatched hlength ⊢
  obtain ⟨res, n, ac'⟩ := r
  dsimp only at hstep hrefused hnamed hmatched hlength ⊢
  have hconf : ac'.conf = conf := hstep.conf.trans h.config
  have hconsumed : ((rs ++ [(res, n)]).map Prod.snd).sum = ac'.auth.length := by
    simp [h.consumed, hlength]
  have hwhole : res ≠ .fallback → ac.auth = bs := fun hne =>
    ((h.waits hauth).resolve_left fun hr => hne (hrefused hr)).2
  cases res with
  | more =>
    obtain ⟨hall, hwait⟩ := hstep.more rfl
    have hbuf : ac'.auth = bs ++ data := by
      rw [hstep.auth, hwhole nofun, List.take_of_length_le hall]
    have hwait : ac'.auth.length < authPrefixLen ∨
        (ac'.authHashMatched ∧ ac'.auth.length < authNeed ac'.auth) := hwait
    have hname : ac'.userName = authName conf.users (bs ++ data) ∧
        AuthResult.more = authVerdict conf.users (bs ++ data) := by
      rcases hwait with hshort | ⟨hm, hshort⟩
      · have hun : ac'.authHashMatched = false := by
          by_contra hm
          exact absurd (hnamed.full (Bool.eq_true_of_not_eq_false hm)) (not_le.mpr hshort)
        rw [hbuf] at hshort
        rw [authName, authVerdict, if_pos hshort, if_pos hshort]
        exact ⟨hnamed.unnamed hun, rfl⟩
      · obtain ⟨u, huser, hname⟩ := hnamed.name hm
        have hfull := hnamed.full hm
        rw [hconf, hbuf] at huser
        rw [hbuf] at hshort hfull
        rw [authName, authVerdict, if_neg (not_lt.mpr hfull), if_neg (not_lt.mpr hfull), huser,
          if_neg nofun, if_pos hshort]
        exact ⟨hname, rfl⟩
    refine ⟨hname.2, ⟨hconf, hnamed, fun _ => ?_, fun _ => .inr ⟨hwait, hbuf⟩, fun hok => ?_,
      hname.1, hconsumed⟩⟩
    · have hle : ac'.auth.length ≤ authBufSize := by
        rcases hwait with hshort | ⟨-, hshort⟩
        · exact hshort.le.trans (Nat.le_add_right _ _)
        · exact hshort.le.trans (authNeed_le _)
      rw [← hbuf, List.take_of_length_le hle]
    · rw [hstep.authenticated nofun, hauth] at hok
      cases hok
  | fallback =>
    obtain ⟨hlen, hun, hnone⟩ := hstep.fallback rfl
    have hlen : authPrefixLen ≤ ac'.auth.length := hlen
    have hun : ac'.authHashMatched = false := hun
    have hnone : ∀ u ∈ ac'.conf.users, ac'.auth.take 32 ≠ u.hash := hnone
    have hbuf : ac'.auth = (bs ++ data).take authBufSize := by
      have hle : ac.auth.length ≤ authBufSize := by
        rw [h.auth hauth, List.length_take]
        exact min_le_left _ _
      rw [hstep.replayed rfl hle, h.auth hauth]
      exact take_append_take authBufSize bs data
    have hfull : ¬ (bs ++ data).length < authPrefixLen := by
      rw [hbuf, List.length_take] at hlen
      omega
    have huser : authUser conf.users (bs ++ data) = none := by
      rw [hconf, hbuf, List.take_take] at hnone
      exact authUser_eq_none.mpr hnone
    refine ⟨?_, ⟨hconf, hnamed, fun _ => hbuf, fun _ => .inl ⟨hlen, hun, hnone⟩, fun hok => ?_, ?_,
      hconsumed⟩⟩
    · rw [authVerdict, if_neg hfull, if_pos huser]
    · rw [hstep.authenticated nofun, hauth] at hok
      cases hok
    · rw [hnamed.unnamed hun, authName, if_neg hfull, huser]
      rfl
  | ok =>
    obtain ⟨hok, -, hlen, hneed⟩ := hstep.ok rfl
    have hm := hmatched rfl
    have hpre : ac'.auth <+: bs ++ data := by
      rw [hstep.auth, hwhole nofun]
      exact (List.prefix_append_right_inj bs).mpr (List.take_prefix _ _)
    obtain ⟨u, huser, hname⟩ := hnamed.name hm
    obtain ⟨more, hmore⟩ := hpre
    have hfull : ¬ (bs ++ data).length < authPrefixLen := by
      rw [← hmore, List.length_append]
      omega
    have huser : authUser conf.users (bs ++ data) = some u := by
      rw [← hmore, authUser_append hlen, ← hconf]
      exact huser
    have hthere : ¬ (bs ++ data).length < authNeed (bs ++ data) := by
      rw [← hmore, authNeed_append hlen, List.length_append]
      omega
    refine ⟨?_, ⟨hconf, hnamed, fun hn => ?_, fun hn => ?_,
      fun _ => ⟨hlen, hneed, ⟨more, hmore⟩, hm⟩,
      ?_, hconsumed⟩⟩
    · rw [authVerdict, if_neg hfull, huser, if_neg nofun, if_neg hthere]
    · rw [hok] at hn
      cases hn
    · rw [hok] at hn
      cases hn
    · rw [hname, authName, if_neg hfull, huser]
      rfl

/-- One more read of a session that may be authenticated. -/
theorem AuthAfter.read {s : List (AuthResult × Nat) × Connection} (h : AuthAfter conf bs s.1 s.2)
    (data : Bytes) : AuthAfter conf (bs ++ data) (authRead s data).1 (authRead s data).2 := by
  unfold authRead
  split_ifs with hauth
  · obtain ⟨hlen, hneed, hpre, hm⟩ := h.done hauth
    refine ⟨h.config, h.named, fun hn => ?_, fun hn => ?_, fun _ => ⟨hlen, hneed, ?_, hm⟩, ?_,
      h.consumed⟩
    · rw [hauth] at hn
      cases hn
    · rw [hauth] at hn
      cases hn
    · exact hpre.trans (List.prefix_append _ _)
    · have hfull : authPrefixLen ≤ bs.length := hlen.trans hpre.length_le
      have hfull' : ¬ (bs ++ data).length < authPrefixLen := by
        rw [List.length_append]
        omega
      rw [h.name, authName, authName, if_neg (not_lt.mpr hfull), if_neg hfull',
        authUser_append hfull]
  · exact (h.call (Bool.eq_false_iff.mpr hauth) data).2

end Reads

private theorem authReads_after (conf : Conf) (reads : List Bytes) :
    AuthAfter conf reads.flatten (authReads conf reads).1 (authReads conf reads).2 := by
  induction reads using List.reverseRecOn with
  | nil =>
    refine ⟨rfl, ⟨nofun, nofun, fun _ => rfl⟩, fun _ => rfl, fun _ => .inr ⟨.inl ?_, rfl⟩,
      nofun, rfl, rfl⟩
    exact Nat.succ_pos 33
  | append_singleton reads data ih =>
    rw [authReads_concat, List.flatten_append, List.flatten_cons, List.flatten_nil, List.append_nil]
    exact ih.read data

/-- What a client's bytes make of authentication, in the reads they come in. -/
structure AuthOutcome (conf : Conf) (reads : List Bytes) : Prop where
  /-- The hash of a user and the whole padding. -/
  authenticated : (authReads conf reads).2.authenticated = true ↔
    (∃ u ∈ conf.users, reads.flatten.take 32 = u.hash) ∧
      authNeed reads.flatten ≤ reads.flatten.length
  user : (authReads conf reads).2.authenticated = true →
    ∀ u ∈ conf.users, reads.flatten.take 32 = u.hash →
      (authReads conf reads).2.userName = some u.name
  consumed : (authReads conf reads).2.authenticated = true →
    ((authReads conf reads).1.map Prod.snd).sum = authNeed reads.flatten
  /-- Each call answers from the bytes so far. -/
  result : ∀ before data after, reads = before ++ data :: after →
    (authReads conf before).2.authenticated = false → ∃ n,
      (authReads conf (before ++ [data])).1 = (authReads conf before).1 ++
        [(authVerdict conf.users (before ++ [data]).flatten, n)]
  refused : (∀ u ∈ conf.users, reads.flatten.take 32 ≠ u.hash) →
    ∀ before data after, reads = before ++ data :: after →
      (authReads conf before).2.authenticated = false ∧
      (before.flatten.length < authPrefixLen → authPrefixLen ≤ (before ++ [data]).flatten.length →
        ∃ n, (authReads conf (before ++ [data])).1 = (authReads conf before).1 ++ [(.fallback, n)])
  /-- Other cuts of the same bytes end in the same state. -/
  cuts : ∀ reads', reads'.flatten = reads.flatten →
    (authReads conf reads').2.authenticated = (authReads conf reads).2.authenticated ∧
      (authReads conf reads').2.userName = (authReads conf reads).2.userName ∧
      (authReads conf reads').2.auth = (authReads conf reads).2.auth
  bounded : (authReads conf reads).2.auth.length ≤ authBufSize

section Outcome

variable {conf : Conf} {bs : Bytes} {rs : List (AuthResult × Nat)} {ac : Connection}

private theorem authPrefixLen_le_of_need (h : authNeed bs ≤ bs.length) :
    authPrefixLen ≤ bs.length :=
  (authPrefixLen_le_authNeed bs).trans h

/-- The buffer of an authenticated session holds the prefix of the bytes and no more. -/
theorem AuthAfter.prefix_eq (h : AuthAfter conf bs rs ac) (hauth : ac.authenticated = true) :
    ac.auth = bs.take (authNeed bs) ∧ authNeed bs ≤ bs.length := by
  obtain ⟨hlen, hneed, ⟨more, rfl⟩, -⟩ := h.done hauth
  rw [authNeed_append hlen, ← hneed, List.take_left, List.length_append]
  exact ⟨rfl, Nat.le_add_right _ _⟩

theorem AuthAfter.authenticated_iff (h : AuthAfter conf bs rs ac) : ac.authenticated = true ↔
    (∃ u ∈ conf.users, bs.take 32 = u.hash) ∧ authNeed bs ≤ bs.length := by
  constructor
  · intro hauth
    obtain ⟨hbuf, hneed⟩ := h.prefix_eq hauth
    obtain ⟨hlen, -, ⟨more, hmore⟩, hm⟩ := h.done hauth
    obtain ⟨u, huser, -⟩ := h.named.name hm
    rw [h.config, ← authUser_append hlen more, hmore] at huser
    refine ⟨⟨u, List.mem_of_find?_eq_some huser, ?_⟩, hneed⟩
    simpa using List.find?_some huser
  · rintro ⟨⟨u, hu, hhash⟩, hneed⟩
    by_contra hn
    have hn : ac.authenticated = false := Bool.eq_false_iff.mpr hn
    have hlen := authPrefixLen_le_of_need hneed
    rcases h.waits hn with ⟨-, -, hnone⟩ | ⟨hwait, hbuf⟩
    · have hbuf : ac.view.auth = bs.take authBufSize := h.auth hn
      have hconf : ac.view.conf = conf := h.config
      rw [hbuf, List.take_take, hconf] at hnone
      exact hnone u hu hhash
    · have hbuf : ac.view.auth = bs := hbuf
      rcases hwait with hshort | ⟨-, hshort⟩
      · rw [hbuf] at hshort
        exact absurd hlen (not_le.mpr hshort)
      · rw [hbuf] at hshort
        exact absurd hneed (not_le.mpr hshort)

theorem AuthAfter.auth_eq (h : AuthAfter conf bs rs ac) :
    ac.auth = bs.take (if ac.authenticated then authNeed bs else authBufSize) := by
  split_ifs with hauth
  · exact (h.prefix_eq hauth).1
  · exact h.auth (Bool.eq_false_iff.mpr hauth)

end Outcome

/-- Authentication depends on the client's bytes and not on the reads they come in: it succeeds when
they start with the hash of a user and the padding is complete, and then exactly this prefix is
consumed; bytes of no user are never authenticated and go to the fallback with their 34th. -/
theorem auth_reads (conf : Conf) (hd : conf.users.Pairwise fun a b => a.hash ≠ b.hash)
    (reads : List Bytes) : AuthOutcome conf reads := by
  have hafter := authReads_after conf reads
  have hresult : ∀ before data, (authReads conf before).2.authenticated = false →
      ∃ n, (authReads conf (before ++ [data])).1 = (authReads conf before).1 ++
        [(authVerdict conf.users (before ++ [data]).flatten, n)] := fun before data hn => by
    obtain ⟨hverdict, -⟩ := (authReads_after conf before).call hn data
    rw [authReads_concat, authRead, if_neg (by simp [hn]), List.flatten_append, List.flatten_cons,
      List.flatten_nil, List.append_nil, ← hverdict]
    exact ⟨_, rfl⟩
  refine ⟨hafter.authenticated_iff, fun hauth u hu hhash => ?_, fun hauth => ?_,
    fun before data _ _ hn => hresult before data hn, fun hnone before data after heq => ?_,
    fun reads' hsame => ?_, ?_⟩
  · obtain ⟨-, hneed⟩ := hafter.prefix_eq hauth
    rw [hafter.name, authName, if_neg (not_lt.mpr (authPrefixLen_le_of_need hneed)),
      authUser_eq hd hu hhash]
    rfl
  · obtain ⟨hbuf, hneed⟩ := hafter.prefix_eq hauth
    rw [hafter.consumed, hbuf, List.length_take, min_eq_left hneed]
  · have hfront : ∀ bs : Bytes, authPrefixLen ≤ bs.length → bs <+: reads.flatten →
        ∀ u ∈ conf.users, bs.take 32 ≠ u.hash := fun bs hlen hpre u hu hhash => by
      obtain ⟨more, hmore⟩ := hpre
      refine hnone u hu ?_
      unfold authPrefixLen at hlen
      rw [← hmore, List.take_append_of_le_length (by omega)]
      exact hhash
    have hbefore : before.flatten <+: reads.flatten := by
      rw [heq, List.flatten_append]
      exact List.prefix_append _ _
    have hn : (authReads conf before).2.authenticated = false :=
      Bool.eq_false_iff.mpr fun hauth => by
      obtain ⟨⟨u, hu, hhash⟩, hneed⟩ := (authReads_after conf before).authenticated_iff.mp hauth
      exact hfront _ (authPrefixLen_le_of_need hneed) hbefore u hu hhash
    refine ⟨hn, fun _ hlen => ?_⟩
    have hwith : (before ++ [data]).flatten <+: reads.flatten :=
      ⟨after.flatten, by rw [heq]; simp⟩
    obtain ⟨n, hn⟩ := hresult before data hn
    refine ⟨n, ?_⟩
    rw [hn, authVerdict, if_neg (not_lt.mpr hlen),
      if_pos (authUser_eq_none.mpr (hfront _ hlen hwith))]
  · have hafter' := authReads_after conf reads'
    rw [hsame] at hafter'
    have hboth : (authReads conf reads').2.authenticated = (authReads conf reads).2.authenticated :=
      Bool.eq_iff_iff.mpr (hafter'.authenticated_iff.trans hafter.authenticated_iff.symm)
    refine ⟨hboth, hafter'.name.trans hafter.name.symm, ?_⟩
    rw [hafter'.auth_eq, hafter.auth_eq, hboth]
  · rw [hafter.auth_eq, List.length_take]
    split_ifs
    · exact (min_le_left _ _).trans (authNeed_le _)
    · exact min_le_left _ _

theorem auth_reads_sample :
    AuthOutcome sampleConf [List.replicate 20 0, List.replicate 12 0 ++ [0, 2], [7],
    [7, 4, 0]] :=
  auth_reads sampleConf (by decide) _

end NgxAnytls
