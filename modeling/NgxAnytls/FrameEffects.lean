import NgxAnytls.InputOrder

/-! Handling a frame leaves authentication and the fallback relay alone. -/

namespace NgxAnytls

open Relation

/-- The bytes the fallback upstream took so far. -/
def relaySent (t : List Obs) : Bytes :=
  t.flatMap fun
    | .fallbackSend bs => bs
    | _ => []

/-- The header in front of what the relay replays, once it has started. -/
def relayHeader (t : List Obs) : Bytes :=
  t.flatMap fun
    | .fallbackOpen header => header
    | _ => []

@[simp] theorem relaySent_append (s t : List Obs) :
    relaySent (s ++ t) = relaySent s ++ relaySent t := by simp [relaySent]

@[simp] theorem relayHeader_append (s t : List Obs) :
    relayHeader (s ++ t) = relayHeader s ++ relayHeader t := by simp [relayHeader]

/-- Records that say nothing of the relay's upstream. -/
structure NoRelay (s : List Obs) : Prop where
  sent : relaySent s = []
  header : relayHeader s = []

/-- Effects that leave authentication and the relay alone. -/
structure View.Apart (v v' : View) : Prop where
  state : v'.state = v.state
  authenticated : v'.authenticated = v.authenticated
  replay : v'.replay = v.replay
  clientBuf : v'.clientBuf = v.clientBuf
  sent : relaySent v'.trace = relaySent v.trace
  header : relayHeader v'.trace = relayHeader v.trace

section Effects

variable {v v' : View}

theorem View.Apart.refl (v : View) : v.Apart v := ⟨rfl, rfl, rfl, rfl, rfl, rfl⟩

theorem View.Apart.trans {a b c : View} (hab : a.Apart b) (hbc : b.Apart c) : a.Apart c where
  state := hbc.state.trans hab.state
  authenticated := hbc.authenticated.trans hab.authenticated
  replay := hbc.replay.trans hab.replay
  clientBuf := hbc.clientBuf.trans hab.clientBuf
  sent := hbc.sent.trans hab.sent
  header := hbc.header.trans hab.header

/-- Effects that only add records. -/
theorem View.Apart.records (s : List Obs) (hs : NoRelay s) (ht : v'.trace = v.trace ++ s)
    (hstate : v'.state = v.state) (hauth : v'.authenticated = v.authenticated)
    (hreplay : v'.replay = v.replay) (hbuf : v'.clientBuf = v.clientBuf) : v.Apart v' where
  state := hstate
  authenticated := hauth
  replay := hreplay
  clientBuf := hbuf
  sent := by rw [ht, relaySent_append, hs.sent, List.append_nil]
  header := by rw [ht, relayHeader_append, hs.header, List.append_nil]

theorem View.Apart.one (o : Obs) (ho : NoRelay [o]) (ht : v'.trace = v.trace ++ [o])
    (hstate : v'.state = v.state) (hauth : v'.authenticated = v.authenticated)
    (hreplay : v'.replay = v.replay) (hbuf : v'.clientBuf = v.clientBuf) : v.Apart v' :=
  .records [o] ho ht hstate hauth hreplay hbuf

theorem View.Apart.none (ht : v'.trace = v.trace) (hstate : v'.state = v.state)
    (hauth : v'.authenticated = v.authenticated) (hreplay : v'.replay = v.replay)
    (hbuf : v'.clientBuf = v.clientBuf) : v.Apart v' :=
  .records [] ⟨rfl, rfl⟩ (by simpa using ht) hstate hauth hreplay hbuf

theorem Obs.IsNote.noRelay {o : Obs} (ho : o.IsNote) : NoRelay [o] := by
  cases o <;> first | exact ho.elim | exact ⟨rfl, rfl⟩

theorem NoRelay.linked (fs : List OutFrame) : NoRelay (fs.map .linked) := by
  constructor
  · simp [relaySent, List.flatMap_map]
  · simp [relayHeader, List.flatMap_map]

theorem Act.apart (ha : Act v v') : v.Apart v' := by
  cases ha with
  | note o ho => exact .one o ho.noRelay rfl rfl rfl rfl rfl
  | queue owner f id body route =>
    have hh := View.SameHeld.enqueue v owner f route
    refine .one (.queued (f.prepare owner) _ _) ⟨rfl, rfl⟩
      (by rw [View.log_trace, View.enqueue_trace]) hh.1 hh.4 ?_ ?_
    · cases owner <;> cases route <;> rfl
    · cases owner <;> cases route <;> rfl
  | retire f fs =>
    have hh := View.SameHeld.retire v f fs
    refine .none (View.retire_trace ..) hh.1 hh.4 ?_ ?_
    · unfold View.retire
      cases f.stream <;> rfl
    · unfold View.retire
      cases f.stream <;> rfl
  | link => exact .records _ (.linked _) rfl rfl rfl rfl rfl
  | state h new => exact .one (.setState h _ new) ⟨rfl, rfl⟩ rfl rfl rfl rfl rfl
  | clamped => exact .one .clamped ⟨rfl, rfl⟩ rfl rfl rfl rfl rfl
  | take => exact .one (.clientSend _) ⟨rfl, rfl⟩ rfl rfl rfl rfl rfl
  | closing h => exact .one (.streamClosing h) ⟨rfl, rfl⟩ rfl rfl rfl rfl rfl
  | closed h => exact .one (.streamClosed h) ⟨rfl, rfl⟩ rfl rfl rfl rfl rfl
  | discard h => exact .one (.upDiscard h) ⟨rfl, rfl⟩ rfl rfl rfl rfl rfl
  | openUpstream h => exact .one (.upConnect h) ⟨rfl, rfl⟩ rfl rfl rfl rfl rfl
  | schedule | synack | markClosed | unqueueClosing | untable | dropOut | dropUpstream | lookup
  | endLookup | connecting | connected | pause | unblock => exact .none rfl rfl rfl rfl rfl

theorem SendAct.apart (ha : SendAct v v') : v.Apart v' := by
  cases ha with
  | chain h bs => exact .one (.upChain h bs) ⟨rfl, rfl⟩ rfl rfl rfl rfl rfl
  | account h _ _ n => exact .one (.upAccount h n) ⟨rfl, rfl⟩ rfl rfl rfl rfl rfl
  | pop => exact .none rfl rfl rfl rfl rfl
  | shutdown h => exact .one (.upShutdown h) ⟨rfl, rfl⟩ rfl rfl rfl rfl rfl

theorem EndAct.apart (ha : EndAct v v') : v.Apart v' := by
  cases ha with
  | finalizing => exact .none rfl rfl rfl rfl rfl
  | finalized rc => exact .one (.finalize rc) ⟨rfl, rfl⟩ rfl rfl rfl rfl rfl

theorem DispatchAct.apart (ha : DispatchAct v v') : v.Apart v' := by
  cases ha with
  | psh h data => exact .one (.psh h data) ⟨rfl, rfl⟩ rfl rfl rfl rfl rfl
  | fin h => exact .one (.clientFin h _) ⟨rfl, rfl⟩ rfl rfl rfl rfl rfl
  | opening h =>
    exact .records [.opening h (v.streams h).state, .setState h (v.streams h).state .connecting]
      ⟨rfl, rfl⟩ (by simp) rfl rfl rfl rfl
  | create id => exact .one (.streamOpen _ id) ⟨rfl, rfl⟩ rfl rfl rfl rfl rfl
  | direct h bs => exact .one (.upDirect h bs) ⟨rfl, rfl⟩ rfl rfl rfl rfl rfl
  | append h bs => exact .one (.upAppend h bs) ⟨rfl, rfl⟩ rfl rfl rfl rfl rfl
  | halfClose h =>
    exact .records [.upShutdown h, .setState h (v.streams h).state .halfClosed] ⟨rfl, rfl⟩
      (by simp) rfl rfl rfl rfl
  | core | table | firstPshAcc | firstPsh | openUot | deferClose =>
    exact .none rfl rfl rfl rfl rfl

theorem HandleAct.apart (ha : HandleAct v v') : v.Apart v' := by
  cases ha with
  | act ha => exact ha.apart
  | send ha => exact ha.apart
  | dispatch ha => exact ha.apart
  | flags _ hin ht => exact .none ht hin.state hin.authenticated hin.replay hin.clientBuf

private theorem handles_apart (hh : Handles v v') : v.Apart v' := by
  induction hh with
  | refl => exact .refl _
  | tail _ ha ih => exact ih.trans ha.apart

private theorem ends_apart : Ends View.Apart where
  refl := .refl
  trans := .trans
  send ha := ha.apart
  note o ho := .one o ho.noRelay rfl rfl rfl rfl rfl
  close ha := ha.apart

end Effects

private theorem closed_apart (conf : Conf) : Closed (innerCallbacks conf) (Call View.Apart) :=
  ends_apart.toSteps.callbacks (fun _ h => h.apart) (fun ac =>
    have hsame := innerResume_same ac
    call_input (fun _ ht => .none ht hsame.input.state hsame.input.authenticated
      hsame.input.replay hsame.input.clientBuf) hsame.but.1 hsame.but.2) _

private theorem endSession_apart (conf : Conf) (ac : Connection) :
    Call View.Apart ac.view (endSession (innerCallbacks conf) ac).view := by
  have hk := closed_apart conf
  have hrest := hk.trans (hk.drain 0 false (ac.log .ending)) (hk.finalize ends_apart.ending _)
  exact hk.trans (hk.note .ending trivial ac) hrest

theorem Handled.apart {v v' : View} (h : Handled v v') : Call View.Apart v v' := fun hs =>
  ⟨(h hs).1, handles_apart (h hs).2⟩

private theorem runAction_apart (conf : Conf) (a : Action) (ac : Connection) :
    Call View.Apart ac.view (runAction (innerCallbacks conf) a ac).2.2.view := by
  cases hdone : (runAction (innerCallbacks conf) a ac).2.1 with
  | false => exact (Handled.runAction conf a ac hdone).apart
  | true =>
    cases a with
    | protocolError data =>
      unfold runAction
      dsimp only
      split_ifs
      · exact (closed_apart conf).trans (Handled.control .alert 0 data ac).apart
          (endSession_apart conf _)
      · exact endSession_apart conf ac
    | clientAlert data => exact endSession_apart conf ac
    | clientFin streamId =>
      unfold runAction at hdone
      cases hfind : streamFind streamId ac <;> simp [hfind] at hdone
    | _ => cases hdone

private theorem sessionActions_apart (conf : Conf) (as : List Action) (rc : Rc) (ac : Connection) :
    Call View.Apart ac.view (sessionActionsRun (innerCallbacks conf) as rc ac).2.2.view := by
  induction as generalizing rc ac with
  | nil => exact (closed_apart conf).refl _
  | cons a as ih =>
    have hone := runAction_apart conf a ac
    unfold sessionActionsRun
    dsimp only
    by_cases hdone : (runAction (innerCallbacks conf) a ac).2.1
    · rw [if_pos hdone]
      exact hone
    · rw [if_neg hdone]
      exact (closed_apart conf).trans hone (ih _ _)

private theorem processFrame_apart (conf : Conf) (f : Frame) (ac : Connection) :
    Call View.Apart ac.view (processFrame (innerCallbacks conf) f ac).2.view := by
  have hreached : Reached ac.view (ac.log (.frame f)).view := .input (.frame f) trivial
    ⟨rfl, rfl, rfl, rfl, rfl, rfl, rfl, rfl, rfl, rfl, rfl, rfl⟩ rfl
  have hlog : Call View.Apart ac.view (ac.log (.frame f)).view := fun hs =>
    ⟨(hreached hs).1, .one (.frame f) ⟨rfl, rfl⟩ rfl rfl rfl rfl rfl⟩
  have hcore : ∀ core, Call View.Apart (ac.log (.frame f)).view
      (setCore core (ac.log (.frame f)).allocNext).view := fun core =>
    (Handled.dispatch (.core core)).apart
  have hk := closed_apart conf
  unfold processFrame
  dsimp only
  split_ifs
  · exact hk.trans hlog (hk.trans (hcore _) (sessionActions_apart conf _ _ _))
  · exact hk.trans hlog (hk.trans (hcore _) (sessionActions_apart conf _ _ _))

/-- Frames are handled without an effect on authentication or the relay, whatever comes of them. -/
theorem parsed_apart (conf : Conf) (f : Frame) (rest : Bytes) (ac : Connection) :
    Call View.Apart ac.view (frameStep (innerCallbacks conf) f rest ac).2.view := by
  have hframe := processFrame_apart conf f ac
  have hreached : ∀ ac : Connection, Reached ac.view (dropInput rest ac).view := fun _ =>
    .input (.inputDropped rest) trivial
      ⟨rfl, rfl, rfl, rfl, rfl, rfl, rfl, rfl, rfl, rfl, rfl, rfl⟩ rfl
  have hdrop : ∀ ac : Connection, Call View.Apart ac.view (dropInput rest ac).view :=
    fun ac hs => ⟨(hreached ac hs).1, .one (.inputDropped rest) ⟨rfl, rfl⟩ rfl rfl rfl rfl rfl⟩
  unfold frameStep
  generalize processFrame (innerCallbacks conf) f ac = r at hframe ⊢
  dsimp only
  split_ifs
  · exact (closed_apart conf).trans hframe (hdrop r.2)
  · exact hframe

theorem processFrames_apart (conf : Conf) (n : Nat) (pos : Bytes) (ac : Connection) :
    Call View.Apart ac.view (processFrames (innerCallbacks conf) n pos ac).2.view := by
  have hk := closed_apart conf
  have hkeep : ∀ (pos : Bytes) (ac : Connection),
      Call View.Apart ac.view (keepRemnant pos ac).2.view := fun pos ac =>
    call_input (fun _ ht => .none ht rfl rfl rfl rfl)
      ⟨rfl, rfl, rfl, rfl, rfl, rfl, rfl, rfl, rfl, rfl, rfl, rfl⟩ rfl
  induction n generalizing pos ac with
  | zero => exact hkeep pos ac
  | succ n ih =>
    cases hf : parseFrame pos with
    | error => exact absurd hf (parseFrame_ne_error pos)
    | again =>
      rw [processFrames]
      simp only [hf]
      exact hkeep pos ac
    | ok f consumed =>
      rw [processFrames_ok _ n pos ac hf]
      have hone := parsed_apart conf f (pos.drop consumed) ac
      generalize frameStep (innerCallbacks conf) f (pos.drop consumed) ac = r at hone ⊢
      dsimp only
      split_ifs
      · exact hone
      · exact hk.trans hone (hkeep _ _)
      · exact hk.trans hone (ih _ _)

end NgxAnytls
