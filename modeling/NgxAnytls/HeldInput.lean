import NgxAnytls.FrameEffects
import NgxAnytls.Finalize

/-! Input that was held back and cannot be parsed ends the session, when a read of the client finds
it. -/

namespace NgxAnytls

open Relation

private theorem fallbackStart_kept (raw : Bytes) (ac : Connection) (hn : NotDropped ac.trace) :
    NotDropped (fallbackStart raw ac).2.trace := by
  rcases fallbackStart_cases raw ac with h | ⟨header, ac', hview, h⟩
  · have htrace : (fallbackStart raw ac).2.trace = ac.trace := congrArg View.trace h
    rwa [htrace]
  · have htrace : ac'.trace = ac.trace := congrArg View.trace hview
    rw [h]
    refine NotDropped.append ?_ (by simp [NotDropped])
    show NotDropped ac'.trace
    rwa [htrace]

/-- Client bytes that are handled without an error are all kept or parsed. -/
theorem processClientBytes_kept (conf : Conf) (data : Bytes) (ac : Connection) (hs : ac.view.Sane)
    (hrem : ac.remnant = []) (hstate : ac.authenticated = true → ac.state ≠ .fallback)
    (hwait : ac.authenticated = false → ac.view.Refused ∨ ac.view.Waiting)
    (hrc : (processClientBytes (innerCallbacks conf) data ac).1 = .ok ∨
      (processClientBytes (innerCallbacks conf) data ac).2.state = .fallback)
    (hn : NotDropped ac.trace) :
    NotDropped (processClientBytes (innerCallbacks conf) data ac).2.trace := by
  have hframes : ∀ (n : Nat) (pos : Bytes) (ac : Connection), pos.length < n → ac.view.Sane →
      ac.remnant = [] → ac.state ≠ .fallback →
      ((processFrames (innerCallbacks conf) n pos ac).1 = .ok ∨
        (processFrames (innerCallbacks conf) n pos ac).2.state = .fallback) →
      NotDropped ac.trace → NotDropped (processFrames (innerCallbacks conf) n pos ac).2.trace :=
    fun n pos ac hlen hs hrem hstate hrc hn => by
      rcases hrc with hok | hfb
      · exact (processFrames_flow conf n pos ac hlen hs hrem hok).kept hn
      · exact absurd ((processFrames_apart conf n pos ac hs).2.state.symm.trans hfb) hstate
  cases hauth : ac.authenticated with
  | true =>
    unfold processClientBytes at hrc ⊢
    rw [if_pos hauth] at hrc ⊢
    split_ifs at hrc ⊢
    · exact hn
    · exact hframes _ _ _ (Nat.lt_succ_self _) hs hrem (hstate hauth) hrc hn
  | false =>
    obtain ⟨hstep, -⟩ := authProcess_step data ac (hwait hauth)
    have hsame := authProcess_same data ac
    unfold processClientBytes at hrc ⊢
    rw [if_neg (by simp [hauth])] at hrc ⊢
    generalize authProcess data ac = r at *
    obtain ⟨res, consumed, ac'⟩ := r
    have hn' : NotDropped ac'.trace := hstep.trace.symm ▸ hn
    cases res with
    | more => exact hn'
    | fallback =>
      dsimp only
      split_ifs
      · exact hn'
      · exact fallbackStart_kept _ _ hn'
    | ok =>
      have hnot : ac'.state ≠ .fallback := by
        rw [(hstep.ok rfl).2.1]
        nofun
      have hsane : ac'.view.Sane := SessionAct.sane (.input hsame.1 hsame.2) hs
      have hshort : (data.drop consumed).length < data.length + 1 := by
        rw [List.length_drop]
        omega
      dsimp only at hrc ⊢
      split_ifs at hrc ⊢
      · exact hn'
      · exact hframes _ _ _ hshort hsane (hstep.remnant.trans hrem) hnot hrc hn'

/-- A resume without an error keeps what it finds, or parses it. -/
theorem resume_kept (conf : Conf) (ac : Connection) (hs : ac.view.Sane) (hi : ac.view.Flow)
    (hrc : (inputResume (processClientBytes (innerCallbacks conf)) ac).1 = .ok)
    (hn : NotDropped ac.trace) :
    NotDropped (inputResume (processClientBytes (innerCallbacks conf)) ac).2.view.trace := by
  have hsane : (setRemnant [] (setInputPaused false ac)).view.Sane :=
    SessionAct.sane (v := ac.view)
      (.input ⟨rfl, rfl, rfl, rfl, rfl, rfl, rfl, rfl, rfl, rfl, rfl, rfl⟩ rfl) hs
  have hstate : ac.authenticated = true → ac.state ≠ .fallback := fun hauth hfb => by
    rw [show ac.authenticated = false from (hi.relay hfb).1] at hauth
    cases hauth
  have hparse := fun hrc => processClientBytes_kept conf (setInputPaused false ac).remnant
    (setRemnant [] (setInputPaused false ac)) hsane rfl hstate
    (fun hauth => (hi.unread hauth).imp_right And.left) (.inl hrc) hn
  unfold inputResume at hrc ⊢
  split_ifs at hrc ⊢
  · exact hn
  · exact hn
  · exact hn
  · dsimp only at hrc ⊢
    generalize processClientBytes (innerCallbacks conf) (setInputPaused false ac).remnant
      (setRemnant [] (setInputPaused false ac)) = r at hparse hrc ⊢
    split_ifs at hrc ⊢ with _ hok
    · exact hparse hrc
    · exact hparse (not_not.mp hok)
    · rw [enableClientRead_view]
      exact hparse (not_not.mp hok)
    · rw [enableClientRead_view]
      exact hn

/-- The relay takes the bytes of the client, and none are held back. -/
structure View.Relaying (v : View) : Prop where
  auth : v.authenticated = false
  refused : v.Refused
  remnant : v.remnant = []

/-- Effects of a session whose bytes the relay takes. -/
def View.Relays (v v' : View) : Prop :=
  v.Relaying → v'.Relaying ∧ (NotDropped v.trace → NotDropped v'.trace)

section Relays

variable {v v' : View}

theorem View.Held.relays (h : v.Held v') : v.Relays v' := fun hr =>
  ⟨⟨h.authenticated.trans hr.auth, hr.refused.held h.conf h.auth h.matched,
    h.remnant.trans hr.remnant⟩, h.kept⟩

private theorem resume_relays (conf : Conf) (ac : Connection) :
    ac.view.Relays (inputResume (processClientBytes (innerCallbacks conf)) ac).2.view := by
  intro hr
  have hrem : ¬ (setInputPaused false ac).remnant ≠ [] := not_not.mpr hr.remnant
  unfold inputResume
  split_ifs
  · exact ⟨hr, id⟩
  · exact ⟨hr, id⟩
  · exact ⟨hr, id⟩
  · rw [if_neg hrem, enableClientRead_view]
    exact ⟨⟨hr.auth, hr.refused, hr.remnant⟩, id⟩

private theorem feed_relays (conf : Conf) (bs : Bytes) (ac : Connection) :
    ac.view.Relays (processClientBytes (innerCallbacks conf) (ac.remnant ++ bs)
      ((setRemnant [] ac).log (.clientRecv bs))).2.view := by
  intro hr
  have hrem : ac.remnant = [] := hr.remnant
  have hwait : ((setRemnant [] ac).log (.clientRecv bs)).view.Refused := hr.refused
  obtain ⟨hstep, hres⟩ := authProcess_step bs ((setRemnant [] ac).log (.clientRecv bs)) (.inl hwait)
  have hres := hres hwait
  have hauth : ((setRemnant [] ac).log (.clientRecv bs)).authenticated = false := hr.auth
  have hkept : NotDropped ac.trace →
      NotDropped ((setRemnant [] ac).log (.clientRecv bs)).trace := fun hn =>
    NotDropped.append hn (by simp [NotDropped])
  rw [hrem, List.nil_append]
  unfold processClientBytes
  rw [if_neg (by simp [hauth])]
  have hrem' : ((setRemnant [] ac).log (.clientRecv bs)).remnant = [] := rfl
  generalize (setRemnant [] ac).log (.clientRecv bs) = ac₀ at *
  generalize authProcess bs ac₀ = r at *
  obtain ⟨res, consumed, ac'⟩ := r
  obtain rfl : res = .fallback := hres
  have hrelaying : ac'.view.Relaying :=
    ⟨(hstep.authenticated (by rintro ⟨⟩)).trans hauth, hstep.fallback rfl,
      hstep.remnant.trans hrem'⟩
  have hkept' : NotDropped ac.trace → NotDropped ac'.trace := fun hn => hstep.trace.symm ▸ hkept hn
  dsimp only
  split_ifs
  · exact ⟨hrelaying, hkept'⟩
  · refine ⟨?_, fun hn => fallbackStart_kept _ _ (hkept' hn)⟩
    rcases fallbackStart_cases ac'.auth ac' with h | ⟨header, ac'', hview, h⟩
    · exact h ▸ hrelaying
    · rw [h]
      have hrelaying' : ac''.view.Relaying := hview ▸ hrelaying
      exact ⟨hrelaying'.auth, hrelaying'.refused, hrelaying'.remnant⟩

private theorem ended_relays : Ended View.Relays where
  refl _ hr := ⟨hr, id⟩
  trans hab hbc hr := ⟨(hbc (hab hr).1).1, fun hn => (hbc (hab hr).1).2 ((hab hr).2 hn)⟩
  send ha := ha.held.relays
  note o ho := View.Held.relays (.one o ho.noInput rfl rfl ⟨rfl, rfl, rfl, rfl, rfl, rfl, rfl⟩)
  act _ ha := ha.held.relays
  relay hm hh ht := (View.Held.none ht hm.conf hh).relays
  relayLog o ho hm hh ht := (View.Held.one o ho.noInput ht hm.conf hh).relays
  received bs _ hr := ⟨⟨hr.auth, hr.refused, hr.remnant⟩,
    fun hn => hn.append (by simp [NotDropped])⟩
  resume conf ac hs := ⟨(parsed_reaches.resume conf ac hs).1, resume_relays conf ac⟩
  feed conf bs ac hs := ⟨(parsed_reaches.fed.feed conf bs ac hs).1, feed_relays conf bs ac⟩
  close ha := ha.held.relays

end Relays

private theorem finalize_closing (conf : Conf) (rc : Nat) (ac : Connection) (hs : ac.view.Sane) :
    (finalizeRc (outerCallbacks conf) rc ac).closing = true := by
  by_cases hopen : ac.closing = true
  · rw [finalizeRc, if_pos hopen]
    exact hopen
  · have hmark : (markClosing ac).view.Sane :=
      SessionAct.sane (.close (.finalizing (v := ac.view) (Bool.eq_false_iff.mpr hopen))) hs
    rw [finalizeRc, if_neg hopen]
    exact ((fed_calm.outer conf).closeAll ac.streamList (markClosing ac) rfl hmark).1.closing rfl

/-- Nothing of the client's input is given up by a handler that leaves the session open. -/
def Connection.Keeps (ac ac' : Connection) : Prop :=
  ac'.closing = false → NotDropped ac.trace → NotDropped ac'.trace

theorem Connection.Keeps.finalize (conf : Conf) {ac ac' : Connection} (rc : Nat)
    (hs : ac'.view.Sane) : ac.Keeps (finalizeRc (outerCallbacks conf) rc ac') := fun hopen => by
  rw [finalize_closing conf rc ac' hs] at hopen
  cases hopen

/-- A session that is not authenticated still waits, or the hash was refused, when bytes come. -/
theorem feed_waits (bs : Bytes) (ac : Connection) (hi : ac.view.Flow)
    (hauth : ac.authenticated = false) :
    ((setRemnant [] ac).log (.clientRecv bs)).view.Refused ∨
      ((setRemnant [] ac).log (.clientRecv bs)).view.Waiting :=
  (hi.unread hauth).imp_right And.left

/-- One read: an error of a frame ends the session. -/
theorem clientReadOnce_kept (ac : Connection) (hs : ac.view.Sane) (hi : ac.view.Flow) :
    ac.Keeps (clientReadOnce ac).2 := by
  have hfinal : ∀ ac' : Connection, ac'.view.Sane →
    ac.Keeps (finalize (outerCallbacks ac.conf) ac') :=
    fun ac' hs => .finalize ac.conf streamOk hs
  have hdone : (clientReadDone false ac.clientRecvNext).trace = ac.trace :=
    congrArg View.trace (Ended.clientReadDone_view false ac.clientRecvNext)
  have hstate : ac.authenticated = true → ac.state ≠ .fallback := fun hauth hfb => by
    rw [show ac.authenticated = false from (hi.relay hfb).1] at hauth
    cases hauth
  unfold clientReadOnce
  dsimp only
  cases ac.clientRecvRes with
  | again =>
    intro _ hn
    dsimp only
    rwa [hdone]
  | error => exact hfinal ac.clientRecvNext hs
  | data bs =>
    have hs' : ac.clientRecvNext.view.Sane := hs
    have hcall := ended_reaches.feed ac.conf (bs.take (readBufSize ac.conf)) ac.clientRecvNext hs'
    have hlog : SessionAct ac.view
        ((setRemnant [] ac.clientRecvNext).log
          (.clientRecv (bs.take (readBufSize ac.conf)))).view :=
      .inputLog (.clientRecv _) trivial
        ⟨rfl, rfl, rfl, rfl, rfl, rfl, rfl, rfl, rfl, rfl, rfl, rfl⟩ rfl
    have hkept := processClientBytes_kept ac.conf
      (ac.clientRecvNext.remnant ++ bs.take (readBufSize ac.conf))
      ((setRemnant [] ac.clientRecvNext).log (.clientRecv (bs.take (readBufSize ac.conf))))
      (hlog.sane hs) rfl hstate (feed_waits _ ac.clientRecvNext hi)
    have hconf : ac.clientRecvNext.conf = ac.conf := rfl
    have hlogged : NotDropped ac.trace → NotDropped ((setRemnant [] ac.clientRecvNext).log
        (.clientRecv (bs.take (readBufSize ac.conf)))).trace := fun hn =>
      NotDropped.append hn (by simp [NotDropped])
    dsimp only
    rw [hconf]
    generalize processClientBytes (innerCallbacks ac.conf)
      (ac.clientRecvNext.remnant ++ bs.take (readBufSize ac.conf)) _ = r at hcall hkept ⊢
    by_cases hnil : bs.take (readBufSize ac.conf) = []
    · rw [if_pos hnil]
      exact hfinal (setClientEof ac.clientRecvNext) hs
    · rw [if_neg hnil]
      split_ifs with hrc hfb
      · exact hfinal r.2 hcall.1.sane
      · exact fun _ hn => hkept (.inr (not_not.mp hfb)) (hlogged hn)
      · exact fun _ hn => hkept (.inl (not_not.mp hrc)) (hlogged hn)
      · exact fun _ hn => hkept (.inl (not_not.mp hrc)) (hlogged hn)

private theorem clientReadLoop_kept (n bytes : Nat) (ac : Connection) (hs : ac.view.Sane)
    (hi : ac.view.Flow) : ac.Keeps (clientReadLoop n bytes ac) := by
  induction n generalizing bytes ac with
  | zero =>
    have hdone : (clientReadDone true ac).trace = ac.trace :=
      congrArg View.trace (Ended.clientReadDone_view true ac)
    intro _ hn
    rwa [clientReadLoop, hdone]
  | succ n ih =>
    have hone := clientReadOnce_kept ac hs hi
    obtain ⟨hk, hflow⟩ := ended_flows.readOnce ac hs
    unfold clientReadLoop
    generalize clientReadOnce ac = r at hone hk hflow ⊢
    obtain ⟨_ | m, ac'⟩ := r
    · exact hone
    · have hdone := Ended.clientReadDone_view true ac'
      dsimp only
      split_ifs
      · intro hopen hn
        rw [show (clientReadDone true ac').closing = ac'.closing from
          congrArg View.closing hdone] at hopen
        rw [show (clientReadDone true ac').trace = ac'.trace from congrArg View.trace hdone]
        exact hone hopen hn
      · intro hopen hn
        have hopen' : ac'.closing = false := Bool.eq_false_iff.mpr fun hc => by
          have hlater : (clientReadLoop n (bytes + m) ac').closing = true :=
            (ended_flows.readClient n (bytes + m) ac' hk.sane).1.closing hc
          rw [hopen] at hlater
          cases hlater
        have hn' := hone hopen' hn
        exact ih _ ac' hk.sane (hflow.2 hn' hi) hopen hn'

/-- The read handler ends the session when what was held back, or what it reads, is no frame. -/
theorem clientReadHandler_kept (timedout : Bool) (ac : Connection) (hs : ac.view.Sane)
    (hi : ac.view.Flow) : ac.Keeps (clientReadHandler timedout ac) := by
  have hfinal : ∀ ac' : Connection, ac'.view.Sane →
    ac.Keeps (finalize (outerCallbacks ac.conf) ac') :=
    fun ac' hs => .finalize ac.conf streamOk hs
  have hresume : (outerCallbacks ac.conf).resume ac =
      inputResume (processClientBytes (innerCallbacks ac.conf)) ac := rfl
  have hsane := (ended_flows.resume ac.conf ac hs).1.sane
  have hkept := resume_kept ac.conf ac hs hi
  unfold clientReadHandler
  dsimp only
  rw [hresume]
  generalize inputResume (processClientBytes (innerCallbacks ac.conf)) ac = r at hsane hkept ⊢
  split_ifs with _ hstate _ hrc
  · exact hfinal ac hs
  · have hk := ended_relays.outer ac.conf
    have hrelaying : ac.view.Relaying :=
      ⟨(hi.relay hstate).1, (hi.relay hstate).2, (hi.unframed (hi.relay hstate).1).2⟩
    exact fun _ hn =>
      ((ended_relays.toUnfed.fallbackRead hk .upstream ac (ended_relays.reads _) fun _ => hstate)
        hs).2 hrelaying |>.2 hn
  · exact hfinal r.2 hsane
  · exact fun _ hn => hkept (not_not.mp hrc) hn
  · exact fun _ hn => hn
  · exact clientReadLoop_kept _ _ ac hs hi

/-- What is held back of the client's input is no whole frame. -/
def HoldsNoFrame (ac : Connection) : Prop :=
  ac.remnant = [] ∨ (ac.authenticated = true ∧ parseFrame ac.remnant = .again)

/-- Input that is not paused is parsed as far as its frames go. -/
theorem View.Flow.holdsNoFrame {ac : Connection} (hi : ac.view.Flow) (hp : ac.inputPaused = false) :
    HoldsNoFrame ac := by
  cases ha : ac.authenticated with
  | false => exact .inl (hi.unframed ha).2
  | true => exact .inr ⟨ha, hi.idle hp⟩

section Waits

/-- No whole frame is held back. -/
def View.NoFrame (v : View) : Prop :=
  v.remnant = [] ∨ (v.authenticated = true ∧ parseFrame v.remnant = .again)

/-- Effects of a session that holds no whole frame back and reads nothing of the client. -/
def View.Waits (v v' : View) : Prop :=
  v.NoFrame → v'.NoFrame ∧ (NotDropped v.trace → NotDropped v'.trace)

theorem View.Held.waits {v v' : View} (h : v.Held v') : v.Waits v' := fun hf => by
  refine ⟨?_, h.kept⟩
  unfold View.NoFrame at hf ⊢
  rwa [h.remnant, h.authenticated]

private theorem resume_waits (conf : Conf) (ac : Connection) :
    ac.view.Waits (inputResume (processClientBytes (innerCallbacks conf)) ac).2.view := by
  intro hf
  have hparse : (setInputPaused false ac).remnant ≠ [] →
      processClientBytes (innerCallbacks conf) (setInputPaused false ac).remnant
        (setRemnant [] (setInputPaused false ac)) =
          keepRemnant ac.remnant (setRemnant [] (setInputPaused false ac)) := by
    intro hne
    obtain ⟨hauth, hagain⟩ : ac.authenticated = true ∧ parseFrame ac.remnant = .again :=
      hf.resolve_left hne
    have hauth' : (setRemnant [] (setInputPaused false ac)).authenticated := hauth
    rw [processClientBytes, if_pos hauth', if_neg hne]
    show processFrames _ (ac.remnant.length + 1) ac.remnant _ = _
    rw [processFrames, hagain]
  have hback : (keepRemnant ac.remnant (setRemnant [] (setInputPaused false ac))).2.view.NoFrame :=
    hf
  unfold inputResume
  split_ifs
  · exact ⟨hf, id⟩
  · exact ⟨hf, id⟩
  · exact ⟨hf, id⟩
  · dsimp only
    by_cases hrem : (setInputPaused false ac).remnant ≠ []
    · rw [if_pos hrem, hparse hrem]
      split_ifs
      · exact ⟨hback, id⟩
      · exact ⟨hback, id⟩
      · rw [enableClientRead_view]
        exact ⟨hback, id⟩
    · rw [if_neg hrem, enableClientRead_view]
      exact ⟨hf, id⟩

private theorem unfed_waits : Unfed View.Waits where
  refl _ hf := ⟨hf, id⟩
  trans hab hbc hf := ⟨(hbc (hab hf).1).1, fun hn => (hbc (hab hf).1).2 ((hab hf).2 hn)⟩
  send ha := ha.held.waits
  note o ho := View.Held.waits (.one o ho.noInput rfl rfl ⟨rfl, rfl, rfl, rfl, rfl, rfl, rfl⟩)
  act _ ha := ha.held.waits
  relay hm hh ht := (View.Held.none ht hm.conf hh).waits
  relayLog o ho hm hh ht := (View.Held.one o ho.noInput ht hm.conf hh).waits
  resume conf ac hs := ⟨(parsed_reaches.resume conf ac hs).1, resume_waits conf ac⟩
  close ha := ha.held.waits

end Waits

/-- No event but a read of the client finds an error in input that was held back. -/
def OnlyReadsFail (conf : Conf) (es : List (Event × Env)) : Prop :=
  ∀ es₁ e es₂, es = es₁ ++ e :: es₂ → (∀ timedout, e.1 ≠ .clientRead timedout) →
    NotDropped (run conf es₁).trace → NotDropped (run conf (es₁ ++ [e])).trace

private theorem step_kept (ac : Connection) (e : Event × Env) (hs : ac.view.Sane)
    (hi : ac.view.Flow) (he : ∃ timedout, e.1 = .clientRead timedout) : ac.Keeps (step ac e) := by
  obtain ⟨timedout, he⟩ := he
  unfold step
  split_ifs
  · exact fun _ hn => hn
  · have hlog : SessionAct ac.view ((setEnv e.2 ac).log (.event e.1)).view :=
      .inputLog (.event e.1) trivial
        ⟨rfl, rfl, rfl, rfl, rfl, rfl, rfl, rfl, rfl, rfl, rfl, rfl⟩ rfl
    have hheld : ac.view.Held ((setEnv e.2 ac).log (.event e.1)).view :=
      .one (.event e.1) ⟨rfl, rfl, by simp [NotDropped]⟩ rfl rfl ⟨rfl, rfl, rfl, rfl, rfl, rfl, rfl⟩
    have hsane := hlog.sane hs
    have hflow := hi.held hheld
    have hkept := hheld.kept
    rw [he] at hsane hflow hkept ⊢
    generalize (setEnv e.2 ac).log (.event (.clientRead timedout)) = ac₀ at *
    exact fun hopen hn =>
      clientReadHandler_kept timedout (unpostRead ac₀) hsane hflow hopen (hkept hn)

/-- As long as only reads of the client find errors in its input, an open session has lost none of
it, and client reading is blocked only while input is paused: any error ended the session. -/
theorem run_held_input (conf : Conf) (es : List (Event × Env)) (h : OnlyReadsFail conf es)
    (hopen : (run conf es).closing = false) :
    NotDropped (run conf es).trace ∧
      ((run conf es).clientReadBlocked = true → (run conf es).inputPaused = true) := by
  have hn : NotDropped (run conf es).trace := by
    induction es using List.reverseRecOn with
    | nil => exact fun _ => nofun
    | append_singleton es e ih =>
      have hstep := ended_flows.step (run conf es) e (run_sane conf es)
      have hone : run conf (es ++ [e]) = step (run conf es) e := by
        rw [run_append, List.foldl_cons, List.foldl_nil]
      have hopen' : (run conf es).closing = false := Bool.eq_false_iff.mpr fun hc => by
        rw [hone, show (step (run conf es) e).closing = true from hstep.1.closing hc] at hopen
        cases hopen
      have hn := ih (fun es₁ e' es₂ heq => h es₁ e' (es₂ ++ [e]) (by simp [heq])) hopen'
      by_cases he : ∃ timedout, e.1 = .clientRead timedout
      · rw [hone] at hopen ⊢
        exact step_kept _ e (run_sane conf es) (run_flow conf es hn) he hopen hn
      · exact h es e [] rfl (fun timedout heq => he ⟨timedout, heq⟩) hn
  exact ⟨hn, (run_flow conf es hn).blocked⟩

/-- It is enough that no whole frame is held back before an event that reads nothing of the
client. -/
theorem OnlyReadsFail.of_noFrame {conf : Conf} {es : List (Event × Env)}
    (hheld : ∀ es₁ e es₂, es = es₁ ++ e :: es₂ → (∀ timedout, e.1 ≠ .clientRead timedout) →
      HoldsNoFrame (run conf es₁)) : OnlyReadsFail conf es := by
  intro es₁ e es₂ heq hread hn
  have hone : run conf (es₁ ++ [e]) = step (run conf es₁) e := by
    rw [run_append, List.foldl_cons, List.foldl_nil]
  have hwaits : (run conf es₁).view.Waits (step (run conf es₁) e).view :=
    (unfed_waits.step _ e hread (run_sane conf es₁)).2
  rw [hone]
  exact (hwaits (hheld es₁ e es₂ heq hread)).2 hn

theorem OnlyReadsFail.of_kept {conf : Conf} {es : List (Event × Env)}
    (hn : NotDropped (run conf es).trace) : OnlyReadsFail conf es := by
  rintro es₁ e es₂ rfl - -
  rw [← List.singleton_append, ← List.append_assoc, run_append] at hn
  exact hn.of_le (ended_reaches.steps es₂ _ (run_sane conf (es₁ ++ [e]))).1.trace

theorem run_held_input_pausing : NotDropped (run sampleConf pausingRun).trace ∧
    ((run sampleConf pausingRun).clientReadBlocked = true →
      (run sampleConf pausingRun).inputPaused = true) :=
  run_held_input sampleConf pausingRun (.of_kept pausingRun_kept) (by decide)

/-- A SYN without an id is held back behind a payload that pauses input; it is parsed when the
upstream takes the payload, and then the client sends on. -/
def badHeldRun : List (Event × Env) :=
  [sampleOpen sampleV2 sampleTarget { connect := [.ok], send := [.again] },
    sampleRead (encodeFrame 2 1 [6, 7, 8, 9] ++ encodeFrame 1 0 [] ++ encodeFrame 0 3 [])
      { send := [.again] },
    (.upstreamWrite 0 false true, { chain := [.done 4] }),
    sampleRead (encodeFrame 0 4 []) {}]

/-- The error only closes the stream whose payload was sent: what stood behind the bad frame is lost
and the session goes on with the next read. -/
theorem held_input_lost : (run sampleConf badHeldRun).closing = false ∧
    .inputDropped (encodeFrame 0 3 []) ∈ (run sampleConf badHeldRun).trace ∧
    (run sampleConf badHeldRun).trace.getLast? =
      some (.frame { cmd := 0, streamId := 4, dataLen := 0, data := [] }) := by
  refine ⟨by decide, by decide +kernel, by decide +kernel⟩

end NgxAnytls
