import NgxAnytls.Records
import NgxAnytls.Wire

/-! What becomes of the bytes of the client: the authentication prefix, the frames handed to the
core, and what is held back. -/

namespace NgxAnytls

open Relation

/-- The bytes the client sent so far. -/
def received (t : List Obs) : Bytes :=
  t.flatMap fun
    | .clientRecv bs => bs
    | _ => []

/-- The frames handed to the core so far. -/
def parsedFrames (t : List Obs) : List Frame :=
  t.filterMap fun
    | .frame f => some f
    | _ => none

/-- No input was given up. -/
def NotDropped (t : List Obs) : Prop := ∀ bs, .inputDropped bs ∉ t

/-- A buffer with a limit drops the same bytes whether it is filled at once or in two parts. -/
theorem take_append_take (n : Nat) (bs more : Bytes) :
    (bs.take n ++ more).take n = (bs ++ more).take n := by
  rw [List.take_append, List.take_take, min_self, List.length_take, List.take_append]
  congr 2
  omega

@[simp] theorem received_append (s t : List Obs) :
    received (s ++ t) = received s ++ received t := by
  simp [received]

@[simp] theorem parsedFrames_append (s t : List Obs) :
    parsedFrames (s ++ t) = parsedFrames s ++ parsedFrames t := by simp [parsedFrames]

theorem NotDropped.of_le {s t : List Obs} (h : NotDropped t) (hle : s <+: t) : NotDropped s :=
  fun bs hm => h bs (hle.subset hm)

theorem NotDropped.append {s t : List Obs} (hs : NotDropped s) (ht : NotDropped t) :
    NotDropped (s ++ t) := fun bs hm => (List.mem_append.mp hm).elim (hs bs) (ht bs)

/-- Records that say nothing of the client's bytes. -/
structure NoInput (s : List Obs) : Prop where
  received : received s = []
  frames : parsedFrames s = []
  kept : NotDropped s

/-- Parsing frames off `bs` one after the other gives `fs` and leaves `rest`. -/
inductive Splits : Bytes → List Frame → Bytes → Prop
  | nil (bs : Bytes) : Splits bs [] bs
  | cons {bs rest : Bytes} {f : Frame} {fs : List Frame} {n : Nat}
      (hf : parseFrame bs = .ok f n) (hs : Splits (bs.drop n) fs rest) : Splits bs (f :: fs) rest

theorem Splits.snoc {bs rest : Bytes} {fs : List Frame} {f : Frame} {n : Nat}
    (h : Splits bs fs rest) (hf : parseFrame rest = .ok f n) :
    Splits bs (fs ++ [f]) (rest.drop n) := by
  induction h with
  | nil bs => exact .cons hf (.nil _)
  | cons hfirst _ ih => exact .cons hfirst (ih hf)

theorem Splits.append {bs rest : Bytes} {fs : List Frame} (h : Splits bs fs rest) (more : Bytes) :
    Splits (bs ++ more) fs (rest ++ more) := by
  induction h with
  | nil bs => exact .nil _
  | @cons bs rest f fs n hf _ ih =>
    refine .cons (parseFrame_append hf more) ?_
    rwa [List.drop_append_of_le_length (parseFrame_consumed hf).2]

/-- The frames split off an encoded sequence are its first ones. -/
theorem Splits.of_encode {ps : List Packet} {bs rest : Bytes} {fs : List Frame}
    (h : Splits bs fs rest) {more : Bytes} (hbs : bs ++ more = ps.flatMap Packet.encode) :
    ∃ ps₁ ps₂, ps = ps₁ ++ ps₂ ∧ fs = ps₁.map Packet.frame ∧
      rest ++ more = ps₂.flatMap Packet.encode := by
  induction h generalizing ps with
  | nil bs => exact ⟨[], ps, rfl, rfl, hbs⟩
  | @cons bs rest f fs n hf _ ih =>
    have hparse := parseFrame_append hf more
    rw [hbs] at hparse
    cases ps with
    | nil => cases hparse
    | cons p ps =>
      have hfirst := parseFrame_encode p.cmd p.id p.payload (ps.flatMap Packet.encode) p.le
      rw [List.flatMap_cons, Packet.encode, hfirst] at hparse
      obtain ⟨rfl, rfl⟩ := Parse.ok.inj hparse
      have hrest : bs.drop (frameHeaderLen + p.payload.length) ++ more =
          ps.flatMap Packet.encode := by
        rw [← List.drop_append_of_le_length (parseFrame_consumed hf).2, hbs, List.flatMap_cons,
          ← p.encode_length, List.drop_left]
      obtain ⟨ps₁, ps₂, rfl, rfl, hmore⟩ := ih hrest
      exact ⟨p :: ps₁, ps₂, rfl, rfl, hmore⟩

section Effects

variable {v v' : View}

/-- Client reading is blocked only as long as input is paused. -/
def View.BlockedPaused (v : View) : Prop := v.clientReadBlocked → v.inputPaused

/-- What effects that concern no input leave of it. -/
structure View.Held (v v' : View) : Prop where
  received : received v'.trace = received v.trace
  frames : parsedFrames v'.trace = parsedFrames v.trace
  conf : v'.conf = v.conf
  state : v'.state = v.state
  remnant : v'.remnant = v.remnant
  auth : v'.auth = v.auth
  authenticated : v'.authenticated = v.authenticated
  matched : v'.authHashMatched = v.authHashMatched
  paused : v.inputPaused → v'.inputPaused
  blocked : v.BlockedPaused → v'.BlockedPaused
  kept : NotDropped v.trace → NotDropped v'.trace

/-- Effects that only add records. -/
theorem View.Held.records (s : List Obs) (hs : NoInput s) (ht : v'.trace = v.trace ++ s)
    (hconf : v'.conf = v.conf) (hh : v.SameHeld v') : v.Held v' where
  received := by rw [ht, received_append, hs.received, List.append_nil]
  frames := by rw [ht, parsedFrames_append, hs.frames, List.append_nil]
  conf := hconf
  state := hh.state
  remnant := hh.remnant
  auth := hh.auth
  authenticated := hh.authenticated
  matched := hh.authHashMatched
  paused h := hh.inputPaused ▸ h
  blocked h hb := hh.inputPaused ▸ h (hh.clientReadBlocked ▸ hb)
  kept h := ht ▸ h.append hs.kept

theorem View.Held.none (ht : v'.trace = v.trace) (hconf : v'.conf = v.conf) (hh : v.SameHeld v') :
    v.Held v' := .records [] ⟨rfl, rfl, by simp [NotDropped]⟩ (by simpa using ht) hconf hh

theorem View.Held.one (o : Obs) (ho : NoInput [o]) (ht : v'.trace = v.trace ++ [o])
    (hconf : v'.conf = v.conf) (hh : v.SameHeld v') : v.Held v' := .records [o] ho ht hconf hh

theorem Obs.IsNote.noInput {o : Obs} (ho : o.IsNote) : NoInput [o] := by
  cases o <;> first | exact ho.elim | exact ⟨rfl, rfl, by simp [NotDropped]⟩

theorem Obs.IsRelay.noInput {o : Obs} (ho : o.IsRelay) : NoInput [o] := by
  cases o <;> first | exact ho.elim | exact ⟨rfl, rfl, by simp [NotDropped]⟩

theorem View.SameHeld.enqueue (v : View) (owner : Option Handle) (f : OutFrame) (route : Route) :
    v.SameHeld (v.enqueue owner f route) := by
  cases owner <;> cases route <;> exact ⟨rfl, rfl, rfl, rfl, rfl, rfl, rfl⟩

theorem View.SameHeld.retire (v : View) (f : OutFrame) (fs : List OutFrame) :
    v.SameHeld (v.retire f fs) := by
  unfold View.retire
  cases f.stream <;> exact ⟨rfl, rfl, rfl, rfl, rfl, rfl, rfl⟩

theorem NoInput.linked (fs : List OutFrame) : NoInput (fs.map .linked) := by
  constructor
  · simp [NgxAnytls.received, List.flatMap_map]
  · simp [parsedFrames, List.filterMap_map]
  · exact fun bs hm => nomatch (List.mem_map.mp hm).choose_spec.2

theorem Act.held (ha : Act v v') : v.Held v' := by
  cases ha with
  | note o ho => exact .one o ho.noInput rfl rfl ⟨rfl, rfl, rfl, rfl, rfl, rfl, rfl⟩
  | queue owner f id body route =>
    have hh := View.SameHeld.enqueue v owner f route
    exact .one (.queued (f.prepare owner) _ _) ⟨rfl, rfl, by simp [NotDropped]⟩
      (by rw [View.log_trace, View.enqueue_trace]) (View.enqueue_conf ..)
      ⟨hh.1, hh.2, hh.3, hh.4, hh.5, hh.6, hh.7⟩
  | retire f fs =>
    exact .none (View.retire_trace ..) (View.retire_conf ..) (.retire v f fs)
  | link =>
    exact .records _ (.linked _) rfl rfl ⟨rfl, rfl, rfl, rfl, rfl, rfl, rfl⟩
  | pause => exact ⟨rfl, rfl, rfl, rfl, rfl, rfl, rfl, rfl, fun _ => rfl, fun _ _ => rfl, id⟩
  | unblock => exact ⟨rfl, rfl, rfl, rfl, rfl, rfl, rfl, rfl, id, fun _ => nofun, id⟩
  | state h new =>
    exact .one (.setState h _ new) ⟨rfl, rfl, by simp [NotDropped]⟩ rfl rfl
      ⟨rfl, rfl, rfl, rfl, rfl, rfl, rfl⟩
  | clamped =>
    exact .one .clamped ⟨rfl, rfl, by simp [NotDropped]⟩ rfl rfl ⟨rfl, rfl, rfl, rfl, rfl, rfl, rfl⟩
  | take =>
    exact .one (.clientSend _) ⟨rfl, rfl, by simp [NotDropped]⟩ rfl rfl
      ⟨rfl, rfl, rfl, rfl, rfl, rfl, rfl⟩
  | closing h =>
    exact .one (.streamClosing h) ⟨rfl, rfl, by simp [NotDropped]⟩ rfl rfl
      ⟨rfl, rfl, rfl, rfl, rfl, rfl, rfl⟩
  | closed h =>
    exact .one (.streamClosed h) ⟨rfl, rfl, by simp [NotDropped]⟩ rfl rfl
      ⟨rfl, rfl, rfl, rfl, rfl, rfl, rfl⟩
  | discard h =>
    exact .one (.upDiscard h) ⟨rfl, rfl, by simp [NotDropped]⟩ rfl rfl
      ⟨rfl, rfl, rfl, rfl, rfl, rfl, rfl⟩
  | openUpstream h =>
    exact .one (.upConnect h) ⟨rfl, rfl, by simp [NotDropped]⟩ rfl rfl
      ⟨rfl, rfl, rfl, rfl, rfl, rfl, rfl⟩
  | schedule | synack | markClosed | unqueueClosing | untable | dropOut | dropUpstream | lookup
  | endLookup | connecting | connected =>
    exact .none rfl rfl ⟨rfl, rfl, rfl, rfl, rfl, rfl, rfl⟩

theorem SendAct.held (ha : SendAct v v') : v.Held v' := by
  cases ha with
  | chain h bs =>
    exact .one (.upChain h bs) ⟨rfl, rfl, by simp [NotDropped]⟩ rfl rfl
      ⟨rfl, rfl, rfl, rfl, rfl, rfl, rfl⟩
  | account h _ _ n =>
    exact .one (.upAccount h n) ⟨rfl, rfl, by simp [NotDropped]⟩ rfl rfl
      ⟨rfl, rfl, rfl, rfl, rfl, rfl, rfl⟩
  | pop => exact .none rfl rfl ⟨rfl, rfl, rfl, rfl, rfl, rfl, rfl⟩
  | shutdown h =>
    exact .one (.upShutdown h) ⟨rfl, rfl, by simp [NotDropped]⟩ rfl rfl
      ⟨rfl, rfl, rfl, rfl, rfl, rfl, rfl⟩

theorem EndAct.held (ha : EndAct v v') : v.Held v' := by
  cases ha with
  | finalizing => exact .none rfl rfl ⟨rfl, rfl, rfl, rfl, rfl, rfl, rfl⟩
  | finalized rc =>
    exact .one (.finalize rc) ⟨rfl, rfl, by simp [NotDropped]⟩ rfl rfl
      ⟨rfl, rfl, rfl, rfl, rfl, rfl, rfl⟩

theorem DispatchAct.held (ha : DispatchAct v v') : v.Held v' := by
  cases ha with
  | psh h data =>
    exact .one (.psh h data) ⟨rfl, rfl, by simp [NotDropped]⟩ rfl rfl
      ⟨rfl, rfl, rfl, rfl, rfl, rfl, rfl⟩
  | fin h =>
    exact .one (.clientFin h _) ⟨rfl, rfl, by simp [NotDropped]⟩ rfl rfl
      ⟨rfl, rfl, rfl, rfl, rfl, rfl, rfl⟩
  | opening h =>
    exact .records [.opening h (v.streams h).state, .setState h (v.streams h).state .connecting]
      ⟨rfl, rfl, by simp [NotDropped]⟩ (by simp) rfl ⟨rfl, rfl, rfl, rfl, rfl, rfl, rfl⟩
  | create id =>
    exact .one (.streamOpen _ id) ⟨rfl, rfl, by simp [NotDropped]⟩ rfl rfl
      ⟨rfl, rfl, rfl, rfl, rfl, rfl, rfl⟩
  | direct h bs =>
    exact .one (.upDirect h bs) ⟨rfl, rfl, by simp [NotDropped]⟩ rfl rfl
      ⟨rfl, rfl, rfl, rfl, rfl, rfl, rfl⟩
  | append h bs =>
    exact .one (.upAppend h bs) ⟨rfl, rfl, by simp [NotDropped]⟩ rfl rfl
      ⟨rfl, rfl, rfl, rfl, rfl, rfl, rfl⟩
  | halfClose h =>
    exact .records [.upShutdown h, .setState h (v.streams h).state .halfClosed]
      ⟨rfl, rfl, by simp [NotDropped]⟩
      (by simp) rfl ⟨rfl, rfl, rfl, rfl, rfl, rfl, rfl⟩
  | core | table | firstPshAcc | firstPsh | openUot | deferClose =>
    exact .none rfl rfl ⟨rfl, rfl, rfl, rfl, rfl, rfl, rfl⟩

/-- What the handling of a frame leaves of the input, as long as nothing is held back. -/
structure View.Serving (v v' : View) : Prop where
  received : received v'.trace = received v.trace
  frames : parsedFrames v'.trace = parsedFrames v.trace
  conf : v'.conf = v.conf
  state : v'.state = v.state
  remnant : v.remnant = [] → v'.remnant = []
  auth : v'.auth = v.auth
  authenticated : v'.authenticated = v.authenticated
  matched : v'.authHashMatched = v.authHashMatched
  blocked : v.remnant = [] → v.BlockedPaused → v'.BlockedPaused
  kept : NotDropped v.trace → NotDropped v'.trace

theorem View.Held.serving (h : v.Held v') : v.Serving v' :=
  ⟨h.received, h.frames, h.conf, h.state, fun hr => h.remnant.trans hr, h.auth, h.authenticated,
    h.matched, fun _ => h.blocked, h.kept⟩

theorem View.Serving.trans {a b c : View} (hab : a.Serving b) (hbc : b.Serving c) :
    a.Serving c where
  received := hbc.received.trans hab.received
  frames := hbc.frames.trans hab.frames
  conf := hbc.conf.trans hab.conf
  state := hbc.state.trans hab.state
  remnant h := hbc.remnant (hab.remnant h)
  auth := hbc.auth.trans hab.auth
  authenticated := hbc.authenticated.trans hab.authenticated
  matched := hbc.matched.trans hab.matched
  blocked hr h := hbc.blocked (hab.remnant hr) (hab.blocked hr h)
  kept h := hbc.kept (hab.kept h)

theorem HandleAct.serving (ha : HandleAct v v') : v.Serving v' := by
  cases ha with
  | act ha => exact ha.held.serving
  | send ha => exact ha.held.serving
  | dispatch ha => exact ha.held.serving
  | flags hm hin ht =>
    exact ⟨by rw [ht], by rw [ht], hm.conf, hin.state, hin.remnant, hin.auth, hin.authenticated,
      hin.authHashMatched, hin.blocked, by rw [ht]; exact id⟩

private theorem handles_serving (hh : Handles v v') : v.Serving v' := by
  induction hh with
  | refl => exact ⟨rfl, rfl, rfl, rfl, id, rfl, rfl, rfl, fun _ => id, id⟩
  | tail _ ha ih => exact ih.trans ha.serving

end Effects

/-- The length of the authentication prefix, once the padding length is there. -/
def authNeed (auth : Bytes) : Nat := authPrefixLen + be16 (auth.getD 32 0) (auth.getD 33 0)

/-- Authentication is not over, and goes on. -/
def View.Waiting (v : View) : Prop :=
  v.auth.length < authPrefixLen ∨ (v.authHashMatched ∧ v.auth.length < authNeed v.auth)

/-- The hash is none of a user. -/
def View.Refused (v : View) : Prop :=
  authPrefixLen ≤ v.auth.length ∧ v.authHashMatched = false ∧
    ∀ u ∈ v.conf.users, v.auth.take 32 ≠ u.hash

/-- Where the bytes of the client are: while authentication waits they are all in its buffer; then
what follows the prefix is the frames that were handed to the core and what is held back, which
holds no whole frame unless input is paused. -/
structure View.Flow (v : View) : Prop where
  auth : v.auth.take authPrefixLen <+: received v.trace
  unread : v.authenticated = false → v.Refused ∨ (v.Waiting ∧ received v.trace = v.auth)
  unframed : v.authenticated = false → parsedFrames v.trace = [] ∧ v.remnant = []
  relay : v.state = .fallback → v.authenticated = false ∧ v.Refused
  framed : v.authenticated → authPrefixLen ≤ v.auth.length ∧ v.auth.length = authNeed v.auth ∧
    ∃ rest, received v.trace = v.auth ++ rest ∧ Splits rest (parsedFrames v.trace) v.remnant
  idle : v.inputPaused = false → parseFrame v.remnant = .again
  blocked : v.BlockedPaused

section Flow

variable {v v' : View}

theorem View.Refused.held (h : v.Refused) (hconf : v'.conf = v.conf) (hauth : v'.auth = v.auth)
    (hm : v'.authHashMatched = v.authHashMatched) : v'.Refused := by
  rw [View.Refused, hconf, hauth, hm]
  exact h

theorem View.Flow.held (hi : v.Flow) (h : v.Held v') : v'.Flow where
  auth := by
    rw [h.auth, h.received]
    exact hi.auth
  unread := by
    rw [h.authenticated, h.received, h.auth, View.Waiting, h.auth, h.matched]
    exact fun hn => (hi.unread hn).imp (fun hr => hr.held h.conf h.auth h.matched) id
  unframed := by
    rw [h.authenticated, h.frames, h.remnant]
    exact hi.unframed
  relay := by
    rw [h.state, h.authenticated]
    exact fun hs => ⟨(hi.relay hs).1, (hi.relay hs).2.held h.conf h.auth h.matched⟩
  framed := by
    rw [h.authenticated, h.auth, h.received, h.frames, h.remnant]
    exact hi.framed
  idle hp := by
    rw [h.remnant]
    refine hi.idle (Bool.eq_false_iff.mpr fun hv => ?_)
    rw [h.paused hv] at hp
    cases hp
  blocked := h.blocked hi.blocked

/-- The relay takes more bytes from the client. -/
theorem View.Flow.received (hi : v.Flow) (bs : Bytes) (hs : v.state = .fallback) :
    (v.log (.clientRecv bs)).Flow := by
  obtain ⟨hauth, hrefused⟩ := hi.relay hs
  have hmore : NgxAnytls.received (v.log (.clientRecv bs)).trace =
      NgxAnytls.received v.trace ++ bs := by simp [NgxAnytls.received]
  have hframes : parsedFrames (v.log (.clientRecv bs)).trace = parsedFrames v.trace := by
    simp [parsedFrames]
  exact {
    auth := by
      rw [hmore]
      exact hi.auth.trans (List.prefix_append _ _)
    unread := fun _ => .inl hrefused
    unframed := by
      rw [hframes]
      exact hi.unframed
    relay := hi.relay
    framed := fun h => by
      rw [show v.authenticated = true from h] at hauth
      cases hauth
    idle := hi.idle
    blocked := hi.blocked }

/-- Frames were handed to the core, and nothing of the input was lost or read besides. -/
structure View.Framing (pos : Bytes) (v v' : View) : Prop where
  received : received v'.trace = received v.trace
  splits : ∀ {rest}, Splits rest (parsedFrames v.trace) pos →
    Splits rest (parsedFrames v'.trace) v'.remnant
  idle : v'.inputPaused = false → parseFrame v'.remnant = .again
  blocked : v.BlockedPaused → v'.BlockedPaused
  conf : v'.conf = v.conf
  state : v'.state = v.state
  auth : v'.auth = v.auth
  authenticated : v'.authenticated = v.authenticated
  matched : v'.authHashMatched = v.authHashMatched
  kept : NotDropped v.trace → NotDropped v'.trace

/-- The frame loop gives input up when it fails. -/
theorem processFrames_dropped (k : Callbacks) (n : Nat) (pos : Bytes) (ac : Connection)
    (hdrop : NotDropped (processFrames k n pos ac).2.trace) :
    (processFrames k n pos ac).1 = .ok := by
  induction n generalizing pos ac with
  | zero => rfl
  | succ n ih =>
    cases hf : parseFrame pos with
    | error => exact absurd hf (parseFrame_ne_error pos)
    | again =>
      rw [processFrames]
      simp only [hf]
      rfl
    | ok f consumed =>
      unfold processFrames at hdrop ⊢
      simp only [hf] at hdrop ⊢
      generalize processFrame k f ac = p at hdrop ⊢
      split_ifs at hdrop ⊢
      · exact absurd (by simp [dropInput]) (hdrop (pos.drop consumed))
      · rfl
      · exact ih _ _ hdrop

/-- The frame loop hands every whole frame to the core until input pauses, and keeps the rest. -/
theorem processFrames_flow (conf : Conf) (n : Nat) (pos : Bytes) (ac : Connection)
    (hn : pos.length < n) (hs : ac.view.Sane) (hrem : ac.remnant = [])
    (hrc : (processFrames (innerCallbacks conf) n pos ac).1 = .ok) :
    ac.view.Framing pos (processFrames (innerCallbacks conf) n pos ac).2.view := by
  induction n generalizing pos ac with
  | zero => exact absurd hn (Nat.not_lt_zero _)
  | succ n ih =>
    cases hf : parseFrame pos with
    | error => exact absurd hf (parseFrame_ne_error pos)
    | again =>
      rw [processFrames]
      simp only [hf]
      exact ⟨rfl, id, fun _ => hf, id, rfl, rfl, rfl, rfl, rfl, id⟩
    | ok f consumed =>
      rw [processFrames_ok _ n pos ac hf] at hrc ⊢
      obtain ⟨hlen, hle⟩ := parseFrame_consumed hf
      have hframe := fun hok => Handled.frame conf f ac hok ((SessionAct.frameLog f ac).sane hs)
      unfold frameStep at hrc ⊢
      generalize processFrame (innerCallbacks conf) f ac = p at hframe hrc ⊢
      dsimp only at hrc ⊢
      by_cases hok : p.1 = .ok
      · simp only [hok, ne_eq, not_true_eq_false, if_false] at hrc ⊢
        obtain ⟨hk, hhandles⟩ := hframe hok
        have hserve := handles_serving hhandles
        have hrec : received p.2.trace = received ac.trace := by
          rw [show received p.2.trace = received (ac.log (.frame f)).trace from hserve.received]
          simp [received]
        have hframes : parsedFrames p.2.trace = parsedFrames ac.trace ++ [f] := by
          rw [show parsedFrames p.2.trace = parsedFrames (ac.log (.frame f)).trace from
            hserve.frames]
          simp [parsedFrames]
        have hkept : NotDropped ac.trace → NotDropped p.2.trace := fun h =>
          hserve.kept (h.append (by simp [NotDropped]))
        have hrem' : p.2.remnant = [] := hserve.remnant hrem
        have hblocked' : ac.view.BlockedPaused → p.2.view.BlockedPaused := hserve.blocked hrem
        have hsplit : ∀ {rest}, Splits rest (parsedFrames ac.trace) pos →
            Splits rest (parsedFrames p.2.trace) (pos.drop consumed) := fun h => by
          rw [hframes]
          exact h.snoc hf
        by_cases hpaused : p.2.inputPaused = true
        · rw [if_pos hpaused] at hrc ⊢
          refine ⟨hrec, hsplit, fun h => ?_, hblocked', hserve.conf, hserve.state, hserve.auth,
            hserve.authenticated, hserve.matched, hkept⟩
          rw [show (keepRemnant (pos.drop consumed) p.2).2.view.inputPaused = p.2.inputPaused
            from rfl, hpaused] at h
          cases h
        · rw [if_neg hpaused] at hrc ⊢
          have hshort : (pos.drop consumed).length < n := by
            rw [List.length_drop]
            unfold frameHeaderLen at hlen
            omega
          have hrest := ih (pos.drop consumed) p.2 hshort hk.sane hrem' hrc
          exact ⟨hrest.received.trans hrec, fun h => hrest.splits (hsplit h), hrest.idle,
            fun h => hrest.blocked (hblocked' h), hrest.conf.trans hserve.conf,
              hrest.state.trans hserve.state,
            hrest.auth.trans hserve.auth, hrest.authenticated.trans hserve.authenticated,
            hrest.matched.trans hserve.matched,
            fun h => hrest.kept (hkept h)⟩
      · simp only [ne_eq, hok, not_false_eq_true, if_true] at hrc

/-- The frames behind the prefix make the flow of an authenticated session. -/
theorem View.Framing.flow {pos rest : Bytes} (h : v.Framing pos v') (hblocked : v'.BlockedPaused)
    (hauth : v.authenticated = true) (hstate : v.state ≠ .fallback)
    (hlen : authPrefixLen ≤ v.auth.length) (hneed : v.auth.length = authNeed v.auth)
    (hrec : NgxAnytls.received v.trace = v.auth ++ rest)
    (hsplit : Splits rest (parsedFrames v.trace) pos) : v'.Flow where
  auth := by
    rw [h.auth, h.received, hrec]
    exact (List.take_prefix _ _).trans (List.prefix_append _ _)
  unread hn := by
    rw [h.authenticated, hauth] at hn
    cases hn
  unframed hn := by
    rw [h.authenticated, hauth] at hn
    cases hn
  relay hs := absurd (h.state ▸ hs) hstate
  framed _ := by
    rw [h.auth, h.received]
    exact ⟨hlen, hneed, rest, hrec, h.splits hsplit⟩
  idle := h.idle
  blocked := hblocked

theorem authNeed_append {auth : Bytes} (h : authPrefixLen ≤ auth.length) (more : Bytes) :
    authNeed (auth ++ more) = authNeed auth := by
  unfold authPrefixLen at h
  have hget : ∀ i < 34, (auth ++ more).getD i 0 = auth.getD i 0 := fun i hi => by
    rw [List.getD_eq_getElem?_getD, List.getD_eq_getElem?_getD,
      List.getElem?_append_left (hi.trans_le h)]
  rw [authNeed, authNeed, hget 32 (by omega), hget 33 (by omega)]

theorem authPrefixLen_le_authNeed (auth : Bytes) : authPrefixLen ≤ authNeed auth :=
  Nat.le_add_right _ _

/-- What authentication makes of the bytes it is given. -/
structure AuthStep (data : Bytes) (ac : Connection) (res : AuthResult) (consumed : Nat)
    (ac' : Connection) : Prop where
  auth : ac'.auth = ac.auth ++ data.take consumed
  authenticated : res ≠ .ok → ac'.authenticated = ac.authenticated
  state : res ≠ .ok → ac'.state = ac.state
  more : res = .more → data.length ≤ consumed ∧ ac'.view.Waiting
  ok : res = .ok → ac'.authenticated = true ∧ ac'.state = .settings ∧
    authPrefixLen ≤ ac'.auth.length ∧ ac'.auth.length = authNeed ac'.auth
  fallback : res = .fallback → ac'.view.Refused
  replayed : res = .fallback → ac.auth.length ≤ authBufSize →
    ac'.auth = (ac.auth ++ data).take authBufSize
  trace : ac'.trace = ac.trace
  conf : ac'.conf = ac.conf
  remnant : ac'.remnant = ac.remnant
  paused : ac'.inputPaused = ac.inputPaused
  blocked : ac'.clientReadBlocked = ac.clientReadBlocked

theorem authTake_length (limit : Nat) (data : Bytes) (ac : Connection) :
    (authTake limit data ac).2.auth.length =
      ac.auth.length + min data.length (limit - ac.auth.length) := by
  simp [authTake, appendAuth]

private theorem authTake_auth (limit : Nat) (data : Bytes) (ac : Connection) :
    (authTake limit data ac).2.auth = ac.auth ++ data.take (authTake limit data ac).1 := rfl

/-- The padding is taken as far as it is there. -/
theorem authPad_step (consumed : Nat) (data : Bytes) (ac : Connection)
    (hmatched : ac.authHashMatched = true) (hlen : authPrefixLen ≤ ac.auth.length)
    (hneed : ac.auth.length ≤ authNeed ac.auth) :
    ∃ n, (authPad consumed data ac).2.1 = consumed + n ∧
      AuthStep data ac (authPad consumed data ac).1 n (authPad consumed data ac).2.2 := by
  have htake := authTake_length (authNeed ac.auth) data (setAuthPadding (authPadding ac) ac)
  have hauth := authTake_auth (authNeed ac.auth) data (setAuthPadding (authPadding ac) ac)
  have hsame := authNeed_append hlen (data.take
    (authTake (authNeed ac.auth) data (setAuthPadding (authPadding ac) ac)).1)
  have hkept : (setAuthPadding (authPadding ac) ac).auth = ac.auth := rfl
  rw [hkept] at htake hauth
  rw [← hauth] at hsame
  have hlen' : authPrefixLen ≤
      (authTake (authNeed ac.auth) data (setAuthPadding (authPadding ac) ac)).2.auth.length := by
    rw [htake]
    omega
  have hunfold : authPad consumed data ac =
      let t := if ac.auth.length < authNeed ac.auth then
        authTake (authNeed ac.auth) data (setAuthPadding (authPadding ac) ac)
        else (0, setAuthPadding (authPadding ac) ac)
      if t.2.auth.length < authNeed ac.auth then (.more, consumed + t.1, t.2)
      else (.ok, consumed + t.1, setAuthenticated t.2) := rfl
  rw [hunfold]
  dsimp only
  by_cases hshort : ac.auth.length < authNeed ac.auth
  · rw [if_pos hshort]
    by_cases hmore : (authTake (authNeed ac.auth) data
        (setAuthPadding (authPadding ac) ac)).2.auth.length < authNeed ac.auth
    · rw [if_pos hmore]
      refine ⟨_, rfl, hauth, fun _ => rfl, fun _ => rfl, fun _ => ⟨?_, .inr ⟨hmatched, ?_⟩⟩,
        nofun, nofun, nofun, rfl, rfl, rfl, rfl, rfl⟩
      · show data.length ≤ min data.length _
        rw [hkept]
        omega
      · exact hmore.trans_eq hsame.symm
    · rw [if_neg hmore]
      have hreached : (authTake (authNeed ac.auth) data
          (setAuthPadding (authPadding ac) ac)).2.auth.length = authNeed ac.auth := by omega
      have hfull := hreached.trans hsame.symm
      exact ⟨_, rfl, hauth, absurd rfl, absurd rfl, nofun, fun _ => ⟨rfl, rfl, hlen', hfull⟩,
        nofun, nofun, rfl, rfl, rfl, rfl, rfl⟩
  · have hfull : ac.auth.length = authNeed ac.auth := by omega
    rw [if_neg hshort]
    dsimp only
    rw [hkept, if_neg hshort]
    exact ⟨0, rfl, by simp [setAuthenticated, setAuthPadding], absurd rfl, absurd rfl, nofun,
      fun _ => ⟨rfl, rfl, hlen, hfull⟩, nofun, nofun, rfl, rfl, rfl, rfl, rfl⟩

/-- The bytes of the prefix and of the padding are taken one after the other. -/
theorem AuthStep.after {data : Bytes} {ac ac₁ ac' : Connection} {res : AuthResult} {m n : Nat}
    (h : AuthStep (data.drop m) ac₁ res n ac')
    (hle' : ac.auth.length ≤ authBufSize → ac₁.auth.length ≤ authBufSize)
    (hauth : ac₁.auth = ac.auth ++ data.take m)
    (hauthenticated : ac₁.authenticated = ac.authenticated) (hstate : ac₁.state = ac.state)
    (htrace : ac₁.trace = ac.trace) (hconf : ac₁.conf = ac.conf)
    (hremnant : ac₁.remnant = ac.remnant) (hpaused : ac₁.inputPaused = ac.inputPaused)
    (hblocked : ac₁.clientReadBlocked = ac.clientReadBlocked) :
    AuthStep data ac res (m + n) ac' where
  auth := by rw [h.auth, hauth, List.append_assoc, List.take_add]
  authenticated hr := (h.authenticated hr).trans hauthenticated
  state hr := (h.state hr).trans hstate
  more hr := by
    have hlen := (h.more hr).1
    rw [List.length_drop] at hlen
    exact ⟨by omega, (h.more hr).2⟩
  ok := h.ok
  fallback := h.fallback
  replayed hr hle := by
    rw [h.replayed hr (hle' hle), hauth, List.append_assoc, List.take_append_drop]
  trace := h.trace.trans htrace
  conf := h.conf.trans hconf
  remnant := h.remnant.trans hremnant
  paused := h.paused.trans hpaused
  blocked := h.blocked.trans hblocked

theorem matchUser_eq_none {ac : Connection} :
    matchUser ac = none ↔ ∀ u ∈ ac.conf.users, ac.auth.take 32 ≠ u.hash := by
  simp [matchUser]

/-- The part of the 34 bytes of hash and padding length that is there is taken first. -/
def authFirst (data : Bytes) (ac : Connection) : Nat × Connection :=
  if ac.auth.length < authPrefixLen then authTake authPrefixLen data ac else (0, ac)

theorem authFirst_auth (data : Bytes) (ac : Connection) :
    (authFirst data ac).2.auth = ac.auth ++ data.take (authFirst data ac).1 := by
  unfold authFirst
  split_ifs
  · rfl
  · simp

theorem authFirst_more {data : Bytes} {ac : Connection}
    (h : (authFirst data ac).2.auth.length < authPrefixLen) :
    data.length ≤ (authFirst data ac).1 := by
  unfold authFirst at h ⊢
  split_ifs at h ⊢ with hlen
  · rw [authTake_length] at h
    show data.length ≤ min data.length _
    omega
  · exact absurd h hlen

theorem authFirst_length (data : Bytes) (ac : Connection) :
    (ac.auth.length < authPrefixLen ∧ (authFirst data ac).2.auth.length ≤ authPrefixLen) ∨
      authFirst data ac = (0, ac) ∧ authPrefixLen ≤ ac.auth.length := by
  unfold authFirst
  split_ifs with hlen
  · rw [authTake_length]
    exact .inl ⟨hlen, by omega⟩
  · exact .inr ⟨rfl, Nat.le_of_not_lt hlen⟩

/-- `ngx_anytls_auth_process`, as long as the session is not authenticated. -/
theorem authProcess_step (data : Bytes) (ac : Connection)
    (hi : ac.view.Refused ∨ ac.view.Waiting) :
    AuthStep data ac (authProcess data ac).1 (authProcess data ac).2.1 (authProcess data ac).2.2 ∧
      (ac.view.Refused → (authProcess data ac).1 = .fallback) := by
  have hkeep : ∀ {res n ac'}, AuthStep (data.drop (authFirst data ac).1) (authFirst data ac).2 res n
      ac' → AuthStep data ac res ((authFirst data ac).1 + n) ac' := fun h => by
    refine h.after ?_ (authFirst_auth data ac) ?_ ?_ ?_ ?_ ?_ ?_ ?_
    · rcases authFirst_length data ac with ⟨-, hle⟩ | ⟨heq, -⟩
      · exact fun _ => hle.trans (Nat.le_add_right _ _)
      · rw [heq]
        exact id
    all_goals
      (unfold authFirst; split_ifs <;> rfl)
  have hmatched : (authFirst data ac).2.authHashMatched = ac.authHashMatched := by
    unfold authFirst
    split_ifs <;> rfl
  have hconf : (authFirst data ac).2.conf = ac.conf := by
    unfold authFirst
    split_ifs <;> rfl
  have hmore : (authFirst data ac).2.auth.length < authPrefixLen →
      data.length ≤ (authFirst data ac).1 := authFirst_more
  have hlen := authFirst_length data ac
  have hfirst : (if ac.auth.length < authPrefixLen then authTake authPrefixLen data ac
      else (0, ac)) = authFirst data ac := rfl
  unfold authProcess
  dsimp only
  rw [hfirst]
  have hself := authFirst_auth data ac
  generalize authFirst data ac = t at *
  have hmatches : t.2.authHashMatched = true → t.2.auth.length ≤ authNeed t.2.auth := fun hm => by
    rcases hlen with ⟨-, hle⟩ | ⟨rfl, hle⟩
    · exact hle.trans (authPrefixLen_le_authNeed _)
    · rcases hi with hr | hw | ⟨-, hw⟩
      · rw [show ac.authHashMatched = false from hr.2.1] at hm
        cases hm
      · exact absurd hw (Nat.not_lt.mpr hle)
      · exact hw.le
  have hrefused : ac.view.Refused → t = (0, ac) := fun hr => by
    rcases hlen with ⟨hlt, -⟩ | ⟨heq, -⟩
    · exact absurd hr.1 (Nat.not_le.mpr hlt)
    · exact heq
  by_cases hshort : t.2.auth.length < authPrefixLen
  · rw [if_pos hshort]
    refine ⟨hkeep (n := 0) ⟨by simp, fun _ => rfl, fun _ => rfl, fun _ => ⟨?_, .inl hshort⟩,
      (by rintro ⟨⟩), (by rintro ⟨⟩), (by rintro ⟨⟩), rfl, rfl, rfl, rfl, rfl⟩, fun hr => ?_⟩
    · rw [List.length_drop]
      have := hmore hshort
      omega
    · rw [hrefused hr] at hshort
      exact absurd hr.1 (Nat.not_le.mpr hshort)
  rw [if_neg hshort]
  have hle : authPrefixLen ≤ t.2.auth.length := Nat.le_of_not_lt hshort
  by_cases hm : t.2.authHashMatched = true
  · rw [if_pos hm]
    obtain ⟨n, hn, hstep⟩ := authPad_step t.1 (data.drop t.1) t.2 hm hle (hmatches hm)
    rw [hn]
    refine ⟨hkeep hstep, fun hr => ?_⟩
    rw [hmatched, show ac.authHashMatched = false from hr.2.1] at hm
    cases hm
  rw [if_neg hm]
  cases huser : matchUser t.2 with
  | none =>
    dsimp only
    have hnone := matchUser_eq_none.mp huser
    refine ⟨hkeep ⟨rfl, fun _ => rfl, fun _ => rfl, nofun, nofun, fun _ =>
      ⟨?_, ?_, ?_⟩, fun _ h => ?_,
      rfl, rfl, rfl, rfl, rfl⟩, fun _ => rfl⟩
    · show authPrefixLen ≤ (t.2.auth ++ _).length
      rw [List.length_append]
      omega
    · exact Bool.eq_false_iff.mpr hm
    · show ∀ u ∈ t.2.conf.users, (t.2.auth ++ _).take 32 ≠ u.hash
      unfold authPrefixLen at hle
      rw [List.take_append_of_le_length (by omega)]
      exact hnone
    · rw [List.take_append, List.take_of_length_le h]
      show t.2.auth ++ (data.drop t.1).take (min _ _) = _
      rw [Nat.min_comm, ← List.take_eq_take_min]
  | some u =>
    dsimp only
    have hfull : t.2.auth.length ≤ authNeed t.2.auth := by
      rcases hlen with ⟨-, hle⟩ | ⟨rfl, hle⟩
      · exact hle.trans (authPrefixLen_le_authNeed _)
      · rcases hi with hr | hw | ⟨hw, -⟩
        · rw [matchUser_eq_none.mpr hr.2.2] at huser
          cases huser
        · exact absurd hw (Nat.not_lt.mpr hle)
        · exact absurd hw hm
    obtain ⟨n, hn, hstep⟩ := authPad_step t.1 (data.drop t.1) (setUser u t.2) rfl hle hfull
    rw [hn]
    refine ⟨hkeep ⟨hstep.auth, hstep.authenticated, hstep.state, hstep.more, hstep.ok,
      hstep.fallback, hstep.replayed, hstep.trace, hstep.conf, hstep.remnant, hstep.paused,
        hstep.blocked⟩,
      fun hr => ?_⟩
    rw [hrefused hr, matchUser_eq_none.mpr hr.2.2] at huser
    cases huser

/-- The relay has started. -/
theorem startReplay_flow (header raw : Bytes) (ac : Connection) (hi : ac.view.Flow)
    (hauth : ac.authenticated = false) (hr : ac.view.Refused) :
    (startReplay header raw ac).view.Flow where
  auth := by
    show ac.auth.take authPrefixLen <+: received (ac.trace ++ [.fallbackOpen header])
    rw [received_append, show received [.fallbackOpen header] = [] from rfl, List.append_nil]
    exact hi.auth
  unread _ := .inl hr
  unframed h := by
    show parsedFrames (ac.trace ++ [.fallbackOpen header]) = [] ∧ _
    rw [parsedFrames_append, show parsedFrames [.fallbackOpen header] = [] from rfl,
      List.append_nil]
    exact hi.unframed h
  relay _ := ⟨hauth, hr⟩
  framed h := by
    rw [show ac.authenticated = true from h] at hauth
    cases hauth
  idle := hi.idle
  blocked := hi.blocked

/-- The start of the relay fails without an effect, or it leads to the replay. -/
theorem fallbackStart_cases (raw : Bytes) (ac : Connection) :
    (fallbackStart raw ac).2.view = ac.view ∨
      ∃ header ac', ac'.view = ac.view ∧ (fallbackStart raw ac).2 = startReplay header raw ac' := by
  have hheader : ∀ ac' : Connection, (takeProxyHeader ac').2.view = ac'.view := fun ac' => by
    unfold takeProxyHeader
    split_ifs <;> rfl
  have hstart : ∀ ac' : Connection, ac'.view = ac.view → ∀ r : Rc × Connection,
      r = (if !ac'.allocOk then ((.error : Rc), ac'.allocNext)
        else (.ok, startReplay (takeProxyHeader ac'.allocNext).1 raw
          (takeProxyHeader ac'.allocNext).2)) →
      r.2.view = ac.view ∨
        ∃ header ac', ac'.view = ac.view ∧ r.2 = startReplay header raw ac' := by
    rintro ac' hac r rfl
    split_ifs
    · exact .inl hac
    · exact .inr ⟨_, _, (hheader ac'.allocNext).trans hac, rfl⟩
  have hnext : ac.allocNext.connectNext.view = ac.view := rfl
  have hopen : ∀ b ac, (openFallback b ac).view = ac.view := fun _ _ => rfl
  unfold fallbackStart
  split_ifs
  · exact .inl rfl
  · exact .inl rfl
  · dsimp only
    generalize ac.allocNext.connectNext = ac' at hnext hopen ⊢
    cases ac.allocNext.connectRes with
    | error => exact .inl hnext
    | ok => exact hstart _ ((hopen _ _).trans hnext) _ rfl
    | again => exact hstart _ ((hopen _ _).trans hnext) _ rfl

private theorem fallbackStart_flow (raw : Bytes) (ac : Connection) (hi : ac.view.Flow)
    (hauth : ac.authenticated = false) (hr : ac.view.Refused) :
    (fallbackStart raw ac).2.view.Flow := by
  rcases fallbackStart_cases raw ac with h | ⟨header, ac', hview, h⟩
  · exact h ▸ hi
  · rw [h]
    refine startReplay_flow _ raw _ (hview ▸ hi) ?_ (hview ▸ hr)
    exact (congrArg View.authenticated hview).trans hauth

/-- Bytes of a client that is not authenticated. -/
theorem unauthenticated_flow (conf : Conf) (bs : Bytes) (ac : Connection) (hs : ac.view.Sane)
    (hauth : ac.authenticated = false) (hrem : ac.remnant = [])
    (hnone : parsedFrames ac.trace = [])
    (hunread : (ac.view.Refused ∧ ac.auth.take authPrefixLen <+: received ac.trace) ∨
      (ac.view.Waiting ∧ received ac.trace = ac.auth ++ bs))
    (hrelay : ac.state = .fallback → ac.view.Refused) (hblocked : ac.view.BlockedPaused)
    (hdrop : NotDropped (processClientBytes (innerCallbacks conf) bs ac).2.trace) :
    (processClientBytes (innerCallbacks conf) bs ac).2.view.Flow := by
  obtain ⟨hstep, hrefused⟩ := authProcess_step bs ac (hunread.imp And.left And.left)
  have hsame := authProcess_same bs ac
  unfold processClientBytes at hdrop ⊢
  rw [if_neg (by simp [hauth])] at hdrop ⊢
  generalize authProcess bs ac = r at *
  obtain ⟨res, consumed, ac'⟩ := r
  dsimp only at hstep hrefused hsame
  have hidle : parseFrame ac'.remnant = .again := by
    rw [hstep.remnant, hrem]
    rfl
  have hblocked' : ac'.view.BlockedPaused := by
    show ac'.clientReadBlocked → ac'.inputPaused
    rw [hstep.blocked, hstep.paused]
    exact hblocked
  have hfront : ac'.auth.take authPrefixLen <+: received ac'.trace := by
    rw [hstep.trace, hstep.auth]
    rcases hunread with ⟨hr, hle⟩ | ⟨-, hrec⟩
    · have hlen : authPrefixLen ≤ ac.auth.length := hr.1
      rwa [List.take_append_of_le_length hlen]
    · rw [hrec]
      exact (List.take_prefix _ _).trans
        ((List.prefix_append_right_inj _).mpr (List.take_prefix _ _))
  have hunframed : parsedFrames ac'.trace = [] ∧ ac'.remnant = [] := by
    rw [hstep.trace, hstep.remnant]
    exact ⟨hnone, hrem⟩
  cases res with
  | more =>
    have hauth' : ac'.authenticated = false := (hstep.authenticated nofun).trans hauth
    obtain ⟨hlen, hwait⟩ := hstep.more rfl
    refine ⟨hfront, fun _ => .inr ⟨hwait, ?_⟩, fun _ => hunframed, fun hfb => ?_, fun h => ?_,
      fun _ => hidle, hblocked'⟩
    · rcases hunread with ⟨hr, -⟩ | ⟨-, hrec⟩
      · exact nomatch hrefused hr
      · show received ac'.trace = ac'.auth
        rw [hstep.trace, hrec, hstep.auth, List.take_of_length_le hlen]
    · exact nomatch hrefused (hrelay ((hstep.state nofun).symm.trans hfb))
    · rw [show ac'.view.authenticated = ac'.authenticated from rfl, hauth'] at h
      cases h
  | fallback =>
    have hauth' : ac'.authenticated = false := (hstep.authenticated nofun).trans hauth
    have hr := hstep.fallback rfl
    have hflow : ac'.view.Flow := by
      refine ⟨hfront, fun _ => .inl hr, fun _ => hunframed, fun _ => ⟨hauth', hr⟩, fun h => ?_,
        fun _ => hidle, hblocked'⟩
      rw [show ac'.view.authenticated = ac'.authenticated from rfl, hauth'] at h
      cases h
    dsimp only
    split_ifs
    · exact hflow
    · exact fallbackStart_flow _ _ hflow hauth' hr
  | ok =>
    obtain ⟨hauth', hstate, hlen, hneed⟩ := hstep.ok rfl
    have hnotFallback : ac'.state ≠ .fallback := by
      rw [hstate]
      nofun
    have hrec : received ac'.trace = ac'.auth ++ bs.drop consumed := by
      rcases hunread with ⟨hr, -⟩ | ⟨-, hrec⟩
      · exact nomatch hrefused hr
      · rw [hstep.trace, hrec, hstep.auth, List.append_assoc, List.take_append_drop]
    have hsplit : Splits (bs.drop consumed) (parsedFrames ac'.trace) (bs.drop consumed) := by
      rw [hunframed.1]
      exact .nil _
    have hsane : ac'.view.Sane := SessionAct.sane (.input hsame.1 hsame.2) hs
    dsimp only at hdrop ⊢
    split_ifs at hdrop ⊢ with hnil
    · have hframing : ac'.view.Framing (bs.drop consumed) ac'.view := by
        refine ⟨rfl, ?_, fun _ => hidle, id, rfl, rfl, rfl, rfl, rfl, id⟩
        rw [show ac'.view.remnant = [] from hunframed.2, hnil]
        exact id
      exact hframing.flow hblocked' hauth' hnotFallback hlen hneed hrec hsplit
    · have hshort : (bs.drop consumed).length < bs.length + 1 := by
        rw [List.length_drop]
        omega
      have hframing := processFrames_flow conf _ _ ac' hshort hsane hunframed.2
        (processFrames_dropped _ _ _ _ hdrop)
      exact hframing.flow (hframing.blocked hblocked') hauth' hnotFallback hlen hneed hrec hsplit

/-- What a read brought: it waits for the rest of the prefix, it starts the relay, or what follows
the prefix is parsed. -/
theorem feed_flow (conf : Conf) (bs : Bytes) (ac : Connection) (hs : ac.view.Sane)
    (hi : ac.view.Flow)
    (hdrop : NotDropped (processClientBytes (innerCallbacks conf) (ac.remnant ++ bs)
      ((setRemnant [] ac).log (.clientRecv bs))).2.trace) :
    (processClientBytes (innerCallbacks conf) (ac.remnant ++ bs)
      ((setRemnant [] ac).log (.clientRecv bs))).2.view.Flow := by
  have hrecv : received ((setRemnant [] ac).log (.clientRecv bs)).trace =
      received ac.trace ++ bs := by
    show received (ac.trace ++ [.clientRecv bs]) = _
    simp [received]
  have hframes : parsedFrames ((setRemnant [] ac).log (.clientRecv bs)).trace =
      parsedFrames ac.trace := by
    show parsedFrames (ac.trace ++ [.clientRecv bs]) = _
    simp [parsedFrames]
  have hlog : SessionAct ac.view ((setRemnant [] ac).log (.clientRecv bs)).view :=
    .inputLog (.clientRecv bs) trivial
      ⟨rfl, rfl, rfl, rfl, rfl, rfl, rfl, rfl, rfl, rfl, rfl, rfl⟩ rfl
  have hsane := hlog.sane hs
  have hblocked : ((setRemnant [] ac).log (.clientRecv bs)).view.BlockedPaused := hi.blocked
  by_cases hauth : ac.authenticated = true
  · obtain ⟨hlen, hneed, rest, hrest, hsplit⟩ := hi.framed hauth
    have hstate : ac.state ≠ .fallback := fun hfb => by
      rw [show ac.authenticated = false from (hi.relay hfb).1] at hauth
      cases hauth
    have hsplit' := hsplit.append bs
    rw [show parsedFrames ac.view.trace = parsedFrames ac.trace from rfl, ← hframes] at hsplit'
    have hparse : (processClientBytes (innerCallbacks conf) (ac.remnant ++ bs)
        ((setRemnant [] ac).log (.clientRecv bs))).2.view =
        (processFrames (innerCallbacks conf) ((ac.remnant ++ bs).length + 1) (ac.remnant ++ bs)
          ((setRemnant [] ac).log (.clientRecv bs))).2.view := by
      have hauth' : ((setRemnant [] ac).log (.clientRecv bs)).authenticated = true := hauth
      unfold processClientBytes
      rw [if_pos hauth']
      split_ifs with hnil
      · rw [hnil]
        rfl
      · rfl
    have hdrop' := hdrop
    rw [show (processClientBytes (innerCallbacks conf) (ac.remnant ++ bs)
      ((setRemnant [] ac).log (.clientRecv bs))).2.trace = _ from congrArg View.trace hparse]
      at hdrop'
    rw [hparse]
    have hframing := processFrames_flow conf _ _ _ (Nat.lt_succ_self _) hsane rfl
      (processFrames_dropped _ _ _ _ hdrop')
    refine hframing.flow (hframing.blocked hblocked) hauth hstate hlen hneed ?_ hsplit'
    rw [show received ((setRemnant [] ac).log (.clientRecv bs)).view.trace =
      received ac.trace ++ bs from hrecv, show received ac.trace = ac.auth ++ rest from hrest,
      List.append_assoc]
    rfl
  · have hauth : ac.authenticated = false := Bool.eq_false_iff.mpr hauth
    obtain ⟨hnone, hrem⟩ := hi.unframed hauth
    have hrem : ac.remnant = [] := hrem
    rw [hrem, List.nil_append] at hdrop ⊢
    refine unauthenticated_flow conf bs _ hsane hauth rfl (hframes.trans hnone) ?_
      (fun hfb => (hi.relay hfb).2) hblocked hdrop
    rw [hrecv]
    refine (hi.unread hauth).imp (fun hr => ⟨hr, ?_⟩) (fun hw => ⟨hw.1, ?_⟩)
    · exact hi.auth.trans (List.prefix_append _ _)
    · rw [show received ac.trace = ac.auth from hw.2]
      rfl

/-- Input flows again: what was held back is parsed first. -/
theorem View.Flow.resumed (hi : v.Flow) (hmux : v'.trace = v.trace) (hconf : v'.conf = v.conf)
    (hstate : v'.state = v.state) (hremnant : v'.remnant = v.remnant) (hauth : v'.auth = v.auth)
    (hauthenticated : v'.authenticated = v.authenticated)
    (hmatched : v'.authHashMatched = v.authHashMatched) (hidle : parseFrame v.remnant = .again)
    (hblocked : v'.BlockedPaused) : v'.Flow where
  auth := by
    rw [hauth, hmux]
    exact hi.auth
  unread := by
    rw [hauthenticated, hmux, hauth, View.Waiting, hauth, hmatched]
    exact fun hn => (hi.unread hn).imp (fun hr => hr.held hconf hauth hmatched) id
  unframed := by
    rw [hauthenticated, hmux, hremnant]
    exact hi.unframed
  relay := by
    rw [hstate, hauthenticated]
    exact fun hs => ⟨(hi.relay hs).1, (hi.relay hs).2.held hconf hauth hmatched⟩
  framed := by
    rw [hauthenticated, hauth, hmux, hremnant]
    exact hi.framed
  idle _ := hremnant ▸ hidle
  blocked := hblocked

private theorem resume_flow (conf : Conf) (ac : Connection) (hs : ac.view.Sane) (hi : ac.view.Flow)
    (hdrop : NotDropped
      (inputResume (processClientBytes (innerCallbacks conf)) ac).2.view.trace) :
    (inputResume (processClientBytes (innerCallbacks conf)) ac).2.view.Flow := by
  unfold inputResume at hdrop ⊢
  split_ifs at hdrop ⊢ with hclosing hpending hinput
  · exact hi
  · exact hi
  · exact hi
  dsimp only at hdrop ⊢
  by_cases hrem : ac.remnant ≠ []
  · have hkept : (setInputPaused false ac).remnant ≠ [] := hrem
    rw [if_pos hkept] at hdrop ⊢
    have hauth : ac.authenticated = true := by
      by_contra hn
      exact hrem (hi.unframed (Bool.eq_false_iff.mpr hn)).2
    obtain ⟨hlen, hneed, rest, hrest, hsplit⟩ := hi.framed hauth
    have hstate : ac.state ≠ .fallback := fun hfb => by
      rw [show ac.authenticated = false from (hi.relay hfb).1] at hauth
      cases hauth
    have hsane : (setRemnant [] (setInputPaused false ac)).view.Sane :=
      SessionAct.sane (v := ac.view)
        (.input ⟨rfl, rfl, rfl, rfl, rfl, rfl, rfl, rfl, rfl, rfl, rfl, rfl⟩ rfl) hs
    have hparse : processClientBytes (innerCallbacks conf) (setInputPaused false ac).remnant
        (setRemnant [] (setInputPaused false ac)) =
        processFrames (innerCallbacks conf) (ac.remnant.length + 1) ac.remnant
          (setRemnant [] (setInputPaused false ac)) := by
      have hauth' : (setRemnant [] (setInputPaused false ac)).authenticated = true := hauth
      unfold processClientBytes
      rw [if_pos hauth', if_neg hkept]
      rfl
    rw [hparse] at hdrop ⊢
    have hok := processFrames_dropped (innerCallbacks conf) (ac.remnant.length + 1) ac.remnant
      (setRemnant [] (setInputPaused false ac))
    have hflow := processFrames_flow conf _ ac.remnant (setRemnant [] (setInputPaused false ac))
      (Nat.lt_succ_self _) hsane rfl
    generalize processFrames (innerCallbacks conf) (ac.remnant.length + 1) ac.remnant
      (setRemnant [] (setInputPaused false ac)) = r at hok hflow hdrop ⊢
    have hparsed : NotDropped r.2.trace := by
      split_ifs at hdrop
      · exact hdrop
      · exact hdrop
      · rw [enableClientRead_view] at hdrop
        exact hdrop
    have hframing := hflow (hok hparsed)
    rw [if_neg (by simp [hok hparsed])]
    split_ifs with hpaused
    · exact hframing.flow (fun _ => hpaused) hauth hstate hlen hneed hrest hsplit
    · rw [enableClientRead_view]
      have hframing' : (setRemnant [] (setInputPaused false ac)).view.Framing ac.remnant
          (setReadBlocked false r.2).view :=
        ⟨hframing.received, hframing.splits, hframing.idle, fun _ => nofun, hframing.conf,
          hframing.state, hframing.auth, hframing.authenticated, hframing.matched,
          hframing.kept⟩
      exact hframing'.flow nofun hauth hstate hlen hneed hrest hsplit
  · have hkept : ¬ (setInputPaused false ac).remnant ≠ [] := hrem
    rw [if_neg hkept, enableClientRead_view]
    have hrem : ac.remnant = [] := not_not.mp hrem
    exact hi.resumed rfl rfl rfl rfl rfl rfl rfl
      (show parseFrame ac.remnant = .again by rw [hrem]; rfl) nofun

/-- Input that is not given up keeps flowing. -/
def View.Flows (v v' : View) : Prop :=
  v.trace <+: v'.trace ∧ (NotDropped v'.trace → v.Flow → v'.Flow)

theorem View.Held.flows (h : v.Held v') (ht : v.trace <+: v'.trace) : v.Flows v' :=
  ⟨ht, fun _ hi => hi.held h⟩

theorem Act.flows (hs : v.Sane) (ha : Act v v') : v.Flows v' :=
  ha.held.flows (SessionAct.trace_le (.act ha) hs)

theorem ended_flows : Ended View.Flows where
  refl v := ⟨List.prefix_refl _, fun _ => id⟩
  trans hab hbc := ⟨hab.1.trans hbc.1, fun hn hi => hbc.2 hn (hab.2 (hn.of_le hbc.1) hi)⟩
  send ha := ha.held.flows (by cases ha <;> simp)
  note o ho := ⟨by simp, fun _ hi => hi.held (.one o ho.noInput rfl rfl
    ⟨rfl, rfl, rfl, rfl, rfl, rfl, rfl⟩)⟩
  act hs ha := ha.flows hs
  relay hm hh ht := (View.Held.none ht hm.conf hh).flows (by rw [ht])
  relayLog o ho hm hh ht := (View.Held.one o ho.noInput ht hm.conf hh).flows (by simp [ht])
  received bs hs := ⟨by simp, fun _ hi => hi.received bs hs⟩
  resume conf ac hs :=
    have hcall := parsed_reaches.resume conf ac hs
    ⟨hcall.1, hcall.1.trace, fun hn hi => resume_flow conf ac hs hi hn⟩
  feed conf bs ac hs :=
    have hcall := parsed_reaches.fed.feed conf bs ac hs
    ⟨hcall.1, hcall.1.trace, fun hn hi => feed_flow conf bs ac hs hi hn⟩
  close ha := ha.held.flows (by cases ha <;> simp)

/-- At first nothing was received. -/
theorem init_flow (conf : Conf) : (Connection.init conf).view.Flow where
  auth := List.prefix_refl _
  unread _ := .inr ⟨.inl (Nat.succ_pos 33), rfl⟩
  unframed _ := ⟨rfl, rfl⟩
  relay h := nomatch h
  framed h := nomatch h
  idle _ := rfl
  blocked h := nomatch h

/-- Where the bytes of the client are after a run that gave up none. -/
theorem run_flow (conf : Conf) (es : List (Event × Env)) (hn : NotDropped (run conf es).trace) :
    (run conf es).view.Flow :=
  (ended_flows.run conf es).2.2 hn (init_flow conf)

end Flow

end NgxAnytls
