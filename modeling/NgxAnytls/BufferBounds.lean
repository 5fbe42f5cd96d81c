import NgxAnytls.Accounting
import NgxAnytls.HeldInput
import NgxAnytls.ParserLaw
import NgxAnytls.Recycling
import NgxAnytls.UotUplink

/-! Every read ends within the buffer it reads into: the client's, which also keeps what was not
parsed, the recycled ones of the upstream, and the reassembly buffer of a UoT stream. -/

namespace NgxAnytls

open Relation

/-- The size of `ac->read_buf`: a whole read behind the longest frame. -/
def readBufAlloc (conf : Conf) : Nat := readBufSize conf + frameHeaderLen + maxFrameData

/-- No whole frame is held back unless input is paused. -/
def View.Partial (v : View) : Prop := v.inputPaused = false → parseFrame v.remnant = .again

private theorem parseFrame_again_length {bs : Bytes} (h : parseFrame bs = .again) :
    bs.length < frameHeaderLen + maxFrameData := by
  by_contra hlen
  obtain ⟨f, c, hf⟩ := parseFrame_long (Nat.le_of_not_lt hlen)
  rw [h] at hf
  cases hf

section Parsing

variable {v v' : View}

/-- Effects after which no whole frame is held back, if none was. -/
def View.StaysPartial (v v' : View) : Prop := v.Partial → v'.Partial

theorem View.Held.staysPartial (h : v.Held v') : v.StaysPartial v' := by
  intro hp hpaused
  rw [h.remnant]
  apply hp
  by_contra hv
  rw [h.paused (Bool.not_eq_false _ ▸ hv)] at hpaused
  cases hpaused

/-- What the frame loop holds back is no whole frame, unless input is paused. -/
theorem processFrames_staysPartial (k : Callbacks) (n : Nat) (pos : Bytes) (ac : Connection)
    (hn : pos.length < n) : (processFrames k n pos ac).2.view.Partial := by
  induction n generalizing pos ac with
  | zero => exact absurd hn (Nat.not_lt_zero _)
  | succ n ih =>
    cases hf : parseFrame pos with
    | error => exact absurd hf (parseFrame_ne_error pos)
    | again =>
      rw [processFrames]
      simp only [hf]
      exact fun _ => hf
    | ok f consumed =>
      obtain ⟨hlen, hle⟩ := parseFrame_consumed hf
      have hshort : (pos.drop consumed).length < n := by
        rw [List.length_drop]
        unfold frameHeaderLen at hlen
        omega
      rw [processFrames_ok _ n pos ac hf]
      unfold frameStep
      generalize processFrame k f ac = r
      dsimp only
      by_cases hok : r.1 = .ok
      · rw [if_neg (not_not.mpr hok), if_neg (not_not.mpr hok)]
        split_ifs with hpaused
        · intro hfree
          rw [show (keepRemnant (pos.drop consumed) r.2).2.view.inputPaused = r.2.inputPaused
            from rfl, hpaused] at hfree
          cases hfree
        · exact ih _ _ hshort
      · rw [if_pos hok, if_pos hok]
        exact fun _ => rfl

/-- The fields that the read handler goes by. -/
def Connection.readSide (ac : Connection) : Bytes × Bool × Bool :=
  (ac.remnant, ac.inputPaused, ac.clientReadBlocked)

private theorem authPad_readSide (consumed : Nat) (data : Bytes) (ac : Connection) :
    (authPad consumed data ac).2.2.readSide = ac.readSide := by
  unfold authPad
  dsimp only
  split_ifs <;> rfl

/-- Authentication holds nothing back. -/
theorem authProcess_readSide (data : Bytes) (ac : Connection) :
    (authProcess data ac).2.2.readSide = ac.readSide := by
  have hfirst : (if ac.auth.length < authPrefixLen then
      authTake authPrefixLen data ac else (0, ac)).2.readSide = ac.readSide := by
    split_ifs <;> rfl
  unfold authProcess
  dsimp only
  generalize (if ac.auth.length < authPrefixLen then authTake authPrefixLen data ac
    else (0, ac)) = t at hfirst ⊢
  split_ifs
  · exact hfirst
  · exact (authPad_readSide _ _ _).trans hfirst
  · cases matchUser t.2 with
    | none => exact hfirst
    | some u => exact (authPad_readSide _ _ _).trans hfirst

theorem View.Partial.congr {ac ac' : Connection} (hp : ac.view.Partial)
    (h : ac'.readSide = ac.readSide) : ac'.view.Partial := by
  simp only [Connection.readSide, Prod.mk.injEq] at h
  obtain ⟨hrem, hpaused, -⟩ := h
  intro hfree
  rw [show ac'.view.remnant = ac.view.remnant from hrem]
  exact hp (hpaused.symm.trans hfree)

private theorem fallbackStart_readSide (raw : Bytes) (ac : Connection) :
    (fallbackStart raw ac).2.readSide = ac.readSide := by
  have hside : ∀ ac' : Connection, ac'.view = ac.view → ac'.readSide = ac.readSide :=
    fun ac' h => congrArg (fun v : View => (v.remnant, v.inputPaused, v.clientReadBlocked)) h
  rcases fallbackStart_cases raw ac with h | ⟨header, ac', hview, h⟩
  · exact hside _ h
  · rw [h]
    exact hside ac' hview

/-- No whole frame stays behind a parse of client bytes, unless input is paused. -/
theorem processClientBytes_staysPartial (k : Callbacks) (data : Bytes) (ac : Connection)
    (hp : ac.view.Partial) : (processClientBytes k data ac).2.view.Partial := by
  have hauth := authProcess_readSide data ac
  unfold processClientBytes
  split_ifs
  · exact hp
  · exact processFrames_staysPartial k _ _ _ (Nat.lt_succ_self _)
  · generalize authProcess data ac = r at hauth ⊢
    obtain ⟨_ | _ | _, consumed, ac'⟩ := r
    all_goals dsimp only at hauth ⊢
    · exact hp.congr hauth
    · split_ifs
      · exact hp.congr hauth
      · refine processFrames_staysPartial k _ _ _ ?_
        rw [List.length_drop]
        omega
    · split_ifs
      · exact hp.congr hauth
      · exact (hp.congr hauth).congr (fallbackStart_readSide _ _)

private theorem resume_staysPartial (conf : Conf) (ac : Connection) (hp : ac.view.Partial) :
    (inputResume (processClientBytes (innerCallbacks conf)) ac).2.view.Partial := by
  have hempty : (setRemnant [] (setInputPaused false ac)).view.Partial := fun _ => rfl
  have hparse := processClientBytes_staysPartial (innerCallbacks conf)
    (setInputPaused false ac).remnant
    _ hempty
  unfold inputResume
  dsimp only
  generalize processClientBytes (innerCallbacks conf) (setInputPaused false ac).remnant
    (setRemnant [] (setInputPaused false ac)) = r at hparse ⊢
  split_ifs with _ _ _ hrem
  · exact hp
  · exact hp
  · exact hp
  · exact hparse
  · exact hparse
  · rw [enableClientRead_view]
    exact hparse
  · rw [enableClientRead_view]
    intro _
    show parseFrame (setInputPaused false ac).remnant = .again
    rw [not_not.mp hrem]
    rfl

private theorem ended_staysPartial : Ended View.StaysPartial where
  refl _ hp := hp
  trans hab hbc hp := hbc (hab hp)
  send ha := ha.held.staysPartial
  note o ho := View.Held.staysPartial
    (.one o ho.noInput rfl rfl ⟨rfl, rfl, rfl, rfl, rfl, rfl, rfl⟩)
  act _ ha := ha.held.staysPartial
  relay hm hh ht := (View.Held.none ht hm.conf hh).staysPartial
  relayLog o ho hm hh ht := (View.Held.one o ho.noInput ht hm.conf hh).staysPartial
  received _ _ hp := hp
  resume conf ac hs := ⟨(parsed_reaches.resume conf ac hs).1, resume_staysPartial conf ac⟩
  feed conf bs ac hs :=
    ⟨(parsed_reaches.fed.feed conf bs ac hs).1,
      fun _ => processClientBytes_staysPartial _ _ _ fun _ => rfl⟩
  close ha := ha.held.staysPartial

/-- In every reachable state. -/
theorem run_staysPartial (conf : Conf) (es : List (Event × Env)) : (run conf es).view.Partial :=
  (ended_staysPartial.run conf es).2 fun _ => rfl

/-- Input is paused only while reading is blocked. -/
def View.PausedBlocked (v : View) : Prop := v.inputPaused → v.clientReadBlocked

theorem View.SameHeld.pausedBlocked (h : v.SameHeld v') (hp : v.PausedBlocked) :
    v'.PausedBlocked := fun hv => by
  rw [h.clientReadBlocked]
  exact hp (h.inputPaused ▸ hv)

theorem Act.pausedBlocked (ha : Act v v') (hp : v.PausedBlocked) : v'.PausedBlocked := by
  cases ha with
  | queue owner f id body route => exact (View.SameHeld.enqueue v owner f route).pausedBlocked hp
  | retire f fs => exact (View.SameHeld.retire v f fs).pausedBlocked hp
  | pause => exact fun _ => rfl
  | unblock hfree =>
    intro hv
    rw [show v.inputPaused = true from hv] at hfree
    cases hfree
  | note | state | clamped | schedule | link | take | synack | markClosed | closing | closed |
    unqueueClosing | untable | dropOut | dropUpstream | discard | lookup | endLookup |
    connecting | openUpstream | connected => exact hp

theorem HandleAct.pausedBlocked (ha : HandleAct v v') (hp : v.PausedBlocked) :
    v'.PausedBlocked := by
  cases ha with
  | act ha => exact ha.pausedBlocked hp
  | send ha => cases ha <;> exact hp
  | dispatch ha => cases ha <;> exact hp
  | flags _ hin _ => exact hin.paused hp

private theorem handles_pausedBlocked (hh : Handles v v') (hp : v.PausedBlocked) :
    v'.PausedBlocked := by
  induction hh with
  | refl => exact hp
  | tail _ ha ih => exact ha.pausedBlocked ih

private theorem processFrames_pausedBlocked (conf : Conf) (n : Nat) (pos : Bytes) (ac : Connection)
    (hs : ac.view.Sane) (hp : ac.view.PausedBlocked)
    (hok : (processFrames (innerCallbacks conf) n pos ac).1 = .ok) :
    (processFrames (innerCallbacks conf) n pos ac).2.view.PausedBlocked := by
  induction n generalizing pos ac with
  | zero => exact hp
  | succ n ih =>
    cases hf : parseFrame pos with
    | error => exact absurd hf (parseFrame_ne_error pos)
    | again =>
      rw [processFrames]
      simp only [hf]
      exact hp
    | ok f consumed =>
      rw [processFrames_ok _ n pos ac hf] at hok ⊢
      have hframe := fun hok => Handled.frame conf f ac hok ((SessionAct.frameLog f ac).sane hs)
      unfold frameStep at hok ⊢
      generalize processFrame (innerCallbacks conf) f ac = r at hframe hok ⊢
      dsimp only at hok ⊢
      by_cases hrc : r.1 = .ok
      · obtain ⟨hk, hhandles⟩ := hframe hrc
        have hp' : r.2.view.PausedBlocked := handles_pausedBlocked hhandles hp
        rw [if_neg (not_not.mpr hrc), if_neg (not_not.mpr hrc)] at hok ⊢
        split_ifs at hok ⊢
        · exact hp'
        · exact ih _ _ hk.sane hp' hok
      · rw [if_pos hrc, if_pos hrc] at hok
        exact absurd hok hrc

theorem View.PausedBlocked.congr {ac ac' : Connection} (hp : ac.view.PausedBlocked)
    (h : ac'.readSide = ac.readSide) : ac'.view.PausedBlocked := by
  simp only [Connection.readSide, Prod.mk.injEq] at h
  obtain ⟨-, hpaused, hblocked⟩ := h
  intro hv
  rw [show ac'.view.clientReadBlocked = ac.view.clientReadBlocked from hblocked]
  exact hp (hpaused.symm.trans hv)

private theorem processClientBytes_pausedBlocked (conf : Conf) (data : Bytes) (ac : Connection)
    (hs : ac.view.Sane) (hp : ac.view.PausedBlocked)
    (hok : (processClientBytes (innerCallbacks conf) data ac).1 = .ok) :
    (processClientBytes (innerCallbacks conf) data ac).2.view.PausedBlocked := by
  have hauth := authProcess_readSide data ac
  have hsame := authProcess_same data ac
  unfold processClientBytes at hok ⊢
  split_ifs at hok ⊢
  · exact hp
  · exact processFrames_pausedBlocked conf _ _ _ hs hp hok
  · generalize authProcess data ac = r at hauth hsame hok ⊢
    obtain ⟨_ | _ | _, consumed, ac'⟩ := r
    all_goals dsimp only at hauth hsame hok ⊢
    · exact hp.congr hauth
    · have hs' : ac'.view.Sane := SessionAct.sane (.input hsame.1 hsame.2) hs
      split_ifs at hok ⊢
      · exact hp.congr hauth
      · exact processFrames_pausedBlocked conf _ _ _ hs' (hp.congr hauth) hok
    · split_ifs at hok ⊢
      exact (hp.congr hauth).congr (fallbackStart_readSide _ _)

/-- In the read loop with `n` rounds left, a round of it begins with the second state. -/
inductive Reads : Nat → Nat → Connection → Connection → Prop
  | here (n bytes : Nat) (ac : Connection) : Reads (n + 1) bytes ac ac
  | later {n bytes m : Nat} {ac ac' w : Connection} (hone : clientReadOnce ac = (some m, ac'))
      (hbudget : bytes + m < clientReadBudgetBytes) (h : Reads n (bytes + m) ac' w) :
      Reads (n + 1) bytes ac w

/-- The read handler reads from the client in the second state. -/
structure HandlerReads (timedout : Bool) (ac w : Connection) : Prop where
  early : ¬ (timedout = true ∧ ac.state = .auth)
  state : ac.state ≠ .fallback
  paused : ac.inputPaused = false
  blocked : ac.clientReadBlocked = false
  reads : Reads clientReadBudgetLoops 0 ac w

/-- A round after which the loop goes on leaves input not paused. -/
theorem clientReadOnce_again {ac ac' : Connection} {m : Nat} (hs : ac.view.Sane)
    (hfree : ac.inputPaused = false) (hone : clientReadOnce ac = (some m, ac')) :
    ac'.inputPaused = false := by
  unfold clientReadOnce at hone
  dsimp only at hone
  cases hrecv : ac.clientRecvRes with
  | again => simp [hrecv] at hone
  | error => simp [hrecv] at hone
  | data bs =>
    simp only [hrecv] at hone
    have hlog : SessionAct ac.view
        ((setRemnant [] ac.clientRecvNext).log
          (.clientRecv (bs.take (readBufSize ac.conf)))).view :=
      .inputLog (.clientRecv _) trivial
        ⟨rfl, rfl, rfl, rfl, rfl, rfl, rfl, rfl, rfl, rfl, rfl, rfl⟩ rfl
    have hstart : ((setRemnant [] ac.clientRecvNext).log
        (.clientRecv (bs.take (readBufSize ac.conf)))).view.PausedBlocked := fun hv => by
      rw [show ac.inputPaused = true from hv] at hfree
      cases hfree
    have hparse := processClientBytes_pausedBlocked ac.conf
      (ac.clientRecvNext.remnant ++ bs.take (readBufSize ac.conf)) _ (hlog.sane hs) hstart
    have hconf : ac.clientRecvNext.conf = ac.conf := rfl
    rw [hconf] at hone
    generalize processClientBytes (innerCallbacks ac.conf)
      (ac.clientRecvNext.remnant ++ bs.take (readBufSize ac.conf)) _ = r at hparse hone
    split_ifs at hone with _ hrc hfallback hstop
    · cases (Prod.mk.inj hone).1
    · cases (Prod.mk.inj hone).1
    · cases (Prod.mk.inj hone).1
    · cases (Prod.mk.inj hone).1
    · obtain ⟨-, rfl⟩ := Prod.mk.inj hone
      by_contra hpaused
      refine hstop (.inr (hparse (not_not.mp hrc) ?_))
      exact (Bool.not_eq_false _).mp hpaused

theorem Reads.fits {n bytes : Nat} {ac w : Connection} (h : Reads n bytes ac w)
    (hs : ac.view.Sane) (hp : ac.view.Partial) (hfree : ac.inputPaused = false) :
    w.remnant.length < frameHeaderLen + maxFrameData := by
  induction h with
  | here n bytes ac => exact parseFrame_again_length (hp hfree)
  | later hone _ _ ih =>
    obtain ⟨hk, hp'⟩ := ended_staysPartial.readOnce _ hs
    rw [hone] at hk hp'
    exact ih hk.sane (hp' hp) (clientReadOnce_again hs hfree hone)

theorem Reads.conf {n bytes : Nat} {ac w : Connection} (h : Reads n bytes ac w)
    (hs : ac.view.Sane) : w.conf = ac.conf := by
  induction h with
  | here => rfl
  | later hone _ _ ih =>
    obtain ⟨hk, hreach⟩ := ended_reaches.readOnce _ hs
    rw [hone] at hk hreach
    exact (ih hk.sane).trans (hreach.conf hs)

/-- What a state that was not paused holds back when a read of the client begins. -/
theorem HandlerReads.fits {timedout : Bool} {env : Env} {ac w : Connection}
    (h : HandlerReads timedout (unpostRead ((setEnv env ac).log (.event (.clientRead timedout)))) w)
    (hs : ac.view.Sane) (hp : ac.view.Partial) :
    w.conf = ac.conf ∧ w.remnant.length < frameHeaderLen + maxFrameData := by
  have hlog : SessionAct ac.view
      (unpostRead ((setEnv env ac).log (.event (.clientRead timedout)))).view :=
    .inputLog (.event _) trivial ⟨rfl, rfl, rfl, rfl, rfl, rfl, rfl, rfl, rfl, rfl, rfl, rfl⟩ rfl
  have hsane := hlog.sane hs
  exact ⟨h.reads.conf hsane, h.reads.fits hsane (hp.congr rfl) h.paused⟩

/-- Each read of the client ends within `read_buf`, after any run and in any round of the read
loop: the bytes held back are less than a frame. -/
theorem run_readBuf_fits (conf : Conf) (es : List (Event × Env)) (timedout : Bool) (env : Env)
    (w : Connection) (hreads : HandlerReads timedout
      (unpostRead ((setEnv env (run conf es)).log (.event (.clientRead timedout)))) w) :
    w.conf = conf ∧ w.remnant.length < frameHeaderLen + maxFrameData ∧
      w.remnant.length + readBufSize w.conf < readBufAlloc conf := by
  obtain ⟨hsame, hshort⟩ := hreads.fits (run_sane conf es) (run_staysPartial conf es)
  have hrun : (run conf es).conf = conf := (run_reaches conf es).conf (init_sane conf)
  have hconf : w.conf = conf := hsame.trans hrun
  refine ⟨hconf, hshort, ?_⟩
  rw [hconf, readBufAlloc]
  omega

/-- Three bytes of a frame are held back when the next read begins. -/
theorem run_readBuf_fits_sample :
    (run sampleConf [sampleRead (sampleHello sampleV2 ++ [2, 0, 0]) {}]).remnant = [2, 0, 0] ∧
      (run sampleConf [sampleRead (sampleHello sampleV2 ++ [2, 0, 0]) {}]).remnant.length <
        frameHeaderLen + maxFrameData :=
  ⟨by decide,
    (run_readBuf_fits sampleConf [sampleRead (sampleHello sampleV2 ++ [2, 0, 0]) {}] false {} _
      ⟨nofun, by decide, by decide +kernel, by decide +kernel, .here 15 0 _⟩).2.1⟩

end Parsing

namespace Recycling

open Library.FreeList

/-- A part of a buffer, counted from the start of its memory. -/
structure Region where
  off : Nat
  len : Nat
  deriving DecidableEq, Repr

/-- A read that takes a buffer, with the size that `ngx_anytls_upstream_mux_read_size` gave. -/
inductive UpstreamRead where
  | tcp (size : Nat)
  | uotConnect (size : Nat)
  | uotPacket
  deriving DecidableEq, Repr

/-- What `ngx_anytls_upstream_get_read_buf` is asked for. -/
def UpstreamRead.size : UpstreamRead → Nat
  | .tcp size => size
  | .uotConnect size => size
  | .uotPacket => maxFrameData + uotMaxHeader

/-- Whether the read goes on once it has its buffer. -/
def UpstreamRead.goesOn : UpstreamRead → Bool
  | .uotConnect size => 2 < size
  | _ => true

/-- Where `recv` may write: `b->last` stands behind the headroom. -/
def UpstreamRead.target : UpstreamRead → Region
  | .tcp size => ⟨frameHeaderLen, size⟩
  | .uotConnect size => ⟨frameHeaderLen + 2, size - 2⟩
  | .uotPacket => ⟨frameHeaderLen + uotMaxHeader, maxFrameData⟩

/-- Where the payload of the frame begins: a packet has its address and its length in front. -/
def UpstreamRead.payloadOff (family : Family) : UpstreamRead → Nat
  | .tcp _ => frameHeaderLen
  | .uotConnect _ => frameHeaderLen
  | .uotPacket => frameHeaderLen + uotMaxHeader - (1 + family.ipLen + 2 + 2)

/-- Where the header of the frame is written, when there is headroom. -/
def UpstreamRead.header (family : Family) (r : UpstreamRead) : Option Region :=
  if frameHeaderLen ≤ r.payloadOff family then
    some ⟨r.payloadOff family - frameHeaderLen, frameHeaderLen⟩
  else none

/-- A buffer taken off a list is large enough. -/
theorem popReadBuf_capacity {large : Bool} {capacity cl : Nat} {p : Pools}
    (h : (popReadBuf large capacity p).1 = some cl) :
    capacity ≤ (popReadBuf large capacity p).2.readCapacity cl := by
  unfold popReadBuf at h ⊢
  cases large with
  | true =>
    rw [if_pos rfl] at h ⊢
    cases ht : takeFirst (fun cl => capacity ≤ p.readCapacity cl) p.freeReadBufsLarge with
    | none => simp [ht] at h
    | some r =>
      obtain ⟨x, rest⟩ := r
      have hfit := takeFirst_sat ht
      simp only [ht, Option.some.injEq] at h ⊢
      exact h ▸ of_decide_eq_true hfit
  | false =>
    rw [if_neg (by decide)] at h ⊢
    cases ht : takeFirst (fun cl => capacity ≤ p.readCapacity cl) p.freeReadBufs with
    | none => simp [ht] at h
    | some r =>
      obtain ⟨x, rest⟩ := r
      have hfit := takeFirst_sat ht
      simp only [ht, Option.some.injEq] at h ⊢
      exact h ▸ of_decide_eq_true hfit

/-- A buffer handed out has the size asked for behind the headroom. -/
theorem getReadBuf_capacity {size cl : Nat} {clOk bufOk startOk : Bool} {p : Pools}
    (h : (getReadBuf size clOk bufOk startOk p).1 = some cl) :
    size + frameHeaderLen ≤ (getReadBuf size clOk bufOk startOk p).2.readCapacity cl := by
  unfold getReadBuf at h ⊢
  dsimp only at h ⊢
  generalize (!decide (size + frameHeaderLen ≤ smallReadBufCapacity)) = large at h ⊢
  split_ifs at h ⊢
  · exact popReadBuf_capacity h
  · exact popReadBuf_capacity h
  · exact popReadBuf_capacity h
  · exact popReadBuf_capacity h
  · obtain rfl := Option.some.inj h
    simp [newReadBuf]

/-- What a read takes of a buffer that holds the size it asked for. -/
theorem UpstreamRead.fits (r : UpstreamRead) (family : Family) (hgo : r.goesOn = true) :
    frameHeaderLen ≤ r.target.off ∧ r.target.off + r.target.len = r.size + frameHeaderLen ∧
      r.payloadOff family ≤ r.target.off ∧
      r.header family = some ⟨r.payloadOff family - frameHeaderLen, frameHeaderLen⟩ := by
  cases r with
  | tcp size => exact ⟨le_rfl, Nat.add_comm _ _, le_rfl, rfl⟩
  | uotConnect size =>
    have hsize : 2 < size := of_decide_eq_true hgo
    refine ⟨Nat.le_add_right _ _, ?_, Nat.le_add_right _ _, rfl⟩
    show frameHeaderLen + 2 + (size - 2) = size + frameHeaderLen
    omega
  | uotPacket => cases family <;> exact ⟨by decide, by decide, by decide, by decide⟩

/-- Each read of an upstream ends within the buffer handed out, recycled or new, behind the headroom
that takes the header of the frame. -/
theorem upstreamRead_fits (ops : List PoolOp) (r : UpstreamRead) (family : Family)
    (clOk bufOk startOk : Bool) (cl : Nat) (hgo : r.goesOn = true)
    (hget : (getReadBuf r.size clOk bufOk startOk (runPools ops)).1 = some cl) :
    r.target.off + r.target.len ≤
        (getReadBuf r.size clOk bufOk startOk (runPools ops)).2.readCapacity cl ∧
      ∃ header, r.header family = some header ∧ header.len = frameHeaderLen ∧
        header.off + header.len = r.payloadOff family ∧ r.payloadOff family ≤ r.target.off := by
  obtain ⟨-, hend, hpayload, hheader⟩ := r.fits family hgo
  have hcapacity := getReadBuf_capacity hget
  refine ⟨hend.trans_le hcapacity, _, hheader, rfl, ?_, hpayload⟩
  have hroom : frameHeaderLen ≤ r.payloadOff family := by
    unfold UpstreamRead.header at hheader
    split_ifs at hheader with hle
    exact hle
  exact Nat.sub_add_cancel hroom

/-- A small buffer is given back, and a packet needs a new one. -/
theorem upstreamRead_fits_sample :
    65563 ≤ (getReadBuf UpstreamRead.uotPacket.size true true true
      (runPools [.startRead 100 true true true, .endRead 0])).2.readCapacity 1 := by
  have hfits := upstreamRead_fits [.startRead 100 true true true, .endRead 0] .uotPacket .inet true
    true true 1 (by decide) (by decide)
  exact hfits.1

end Recycling

/-- The unread bytes end within the buffer. -/
structure UotRecvFits (st : Stream) : Prop where
  within : st.uotRecvPos + st.uotRecvLen ≤ st.uotRecvSize
  size : st.uotRecvSize ≤ uotRecvSize

section Reassembly

variable {h : Handle} {ac ac' start : Connection}

theorem UotRecvFits.congr {st st' : Stream} (hf : UotRecvFits st)
    (hc : st'.uotCells = st.uotCells) : UotRecvFits st' := by
  simp only [Stream.uotCells, Prod.mk.injEq] at hc
  obtain ⟨-, hpos, hlen, hsize⟩ := hc
  constructor
  · rw [hpos, hlen, hsize]
    exact hf.within
  · rw [hsize]
    exact hf.size

/-- The subtraction that asks for room does not wrap. -/
theorem UotRecvFits.lacks {st : Stream} (hf : UotRecvFits st) (n : Nat) :
    st.uotLacks n = true ↔ st.uotRecvSize - (st.uotRecvPos + st.uotRecvLen) < n := by
  obtain ⟨hwithin, hsize⟩ := hf
  unfold Stream.uotLacks
  rw [sizeWrap_of_le (hwithin.trans hsize), decide_eq_true_iff]
  have hroom : sizeWrap (st.uotRecvSize + 2 ^ 64 - (st.uotRecvPos + st.uotRecvLen)) =
      st.uotRecvSize - (st.uotRecvPos + st.uotRecvLen) := by
    unfold sizeWrap
    unfold uotRecvSize at hsize
    omega
  rw [hroom]

theorem UotRecvFits.compact (hf : UotRecvFits (ac.streams h)) :
    UotRecvFits ((uotCompact h ac).streams h) := by
  have hwithin := hf.within
  unfold uotCompact
  rw [Connection.upd_self]
  refine ⟨?_, hf.size⟩
  show 0 + (ac.streams h).uotRecvLen ≤ (ac.streams h).uotRecvSize
  omega

private theorem uotGrow_cells (n : Nat) (h : Handle) (ac : Connection) :
    ((uotGrow h n ac).streams h).uotRecvPos = 0 ∧
      ((uotGrow h n ac).streams h).uotRecvLen = (ac.streams h).uotRecvLen ∧
      ((uotGrow h n ac).streams h).uotRecvSize = n := by
  unfold uotGrow
  rw [Connection.upd_self]
  exact ⟨rfl, rfl, rfl⟩

/-- The stream has room for `len` more bytes. -/
def Stream.uotHasRoom (st : Stream) (len : Nat) : Prop :=
  st.uotRecvPos + st.uotRecvLen + len ≤ st.uotRecvSize

theorem UotRecvFits.room {st : Stream} {len : Nat} (hf : UotRecvFits st)
    (hl : ¬st.uotLacks len = true) : st.uotHasRoom len := by
  have hwithin := hf.within
  rw [hf.lacks] at hl
  unfold Stream.uotHasRoom
  omega

/-- A new buffer takes the unread bytes and `len` more. -/
theorem UotRecvFits.grow {len n : Nat} (hn : (ac.streams h).uotRecvPos +
    (ac.streams h).uotRecvLen + len ≤ n) (hle : n ≤ uotRecvSize) :
    UotRecvFits ((uotGrow h n ac).streams h) ∧ ((uotGrow h n ac).streams h).uotHasRoom len := by
  obtain ⟨hpos, hlen, hsize⟩ := uotGrow_cells n h ac
  refine ⟨⟨?_, ?_⟩, ?_⟩
  · rw [hpos, hlen, hsize]
    omega
  · rw [hsize]
    exact hle
  · rw [Stream.uotHasRoom, hpos, hlen, hsize]
    omega

/-- Room is made for `len` bytes, or the append fails. -/
theorem uotBufferMakeRoom_fits {len : Nat} {rc : Rc} (hf : UotRecvFits (ac.streams h))
    (hmake : uotBufferMakeRoom h len ac = (rc, ac')) :
    UotRecvFits (ac'.streams h) ∧ (rc = .ok → (ac'.streams h).uotHasRoom len) := by
  unfold uotBufferMakeRoom at hmake
  generalize hw : (if (ac.streams h).uotRecvPos ≠ 0 then uotCompact h ac else ac) = w at hmake
  have hcompact : UotRecvFits (w.streams h) := by
    rw [← hw]
    split_ifs
    · exact hf.compact
    · exact hf
  have hend := sizeWrap_of_le (hcompact.within.trans hcompact.size)
  dsimp only at hmake
  rw [hend] at hmake
  split_ifs at hmake with hroom hlong hlacks halloc
  · obtain ⟨rfl, rfl⟩ := Prod.mk.inj hmake
    exact ⟨hf, fun _ => hf.room (by simpa using hroom)⟩
  · obtain ⟨rfl, rfl⟩ := Prod.mk.inj hmake
    exact ⟨hcompact, nofun⟩
  · obtain ⟨rfl, rfl⟩ := Prod.mk.inj hmake
    exact ⟨hcompact, nofun⟩
  · obtain ⟨rfl, rfl⟩ := Prod.mk.inj hmake
    have hnew : (w.streams h).uotRecvPos + (w.streams h).uotRecvLen + len ≤
        min ((w.streams h).uotRecvPos + (w.streams h).uotRecvLen + len +
          ((w.streams h).uotRecvPos + (w.streams h).uotRecvLen + len) / 2) uotRecvSize := by
      omega
    obtain ⟨hfits, hleft⟩ := @UotRecvFits.grow h w.allocNext len _ hnew (Nat.min_le_right _ _)
    exact ⟨hfits, fun _ => hleft⟩
  · obtain ⟨rfl, rfl⟩ := Prod.mk.inj hmake
    exact ⟨hcompact, fun _ => hcompact.room hlacks⟩

theorem UotRecvFits.store {data : Bytes} (hf : UotRecvFits (ac.streams h))
    (hroom : (ac.streams h).uotHasRoom data.length) :
    UotRecvFits ((uotStore h data ac).streams h) := by
  unfold Stream.uotHasRoom at hroom
  unfold uotStore
  rw [Connection.upd_self]
  refine ⟨?_, hf.size⟩
  show (ac.streams h).uotRecvPos + ((ac.streams h).uotRecvLen + data.length) ≤
    (ac.streams h).uotRecvSize
  omega

/-- An append with the buffer in place. -/
theorem uotAppendRoom_fits {data : Bytes} {rc : Rc} (hf : UotRecvFits (ac.streams h))
    (happend : (if (uotBufferMakeRoom h data.length ac).1 ≠ .ok then
      uotBufferMakeRoom h data.length ac
      else (.ok, uotStore h data (uotBufferMakeRoom h data.length ac).2)) = (rc, ac')) :
    UotRecvFits (ac'.streams h) := by
  cases hmake : uotBufferMakeRoom h data.length ac with
  | mk rc' w =>
    obtain ⟨hkeep, hroom⟩ := uotBufferMakeRoom_fits hf hmake
    rw [hmake] at happend
    dsimp only at happend
    split_ifs at happend with hfail
    · obtain ⟨-, rfl⟩ := Prod.mk.inj happend
      exact hkeep
    · obtain ⟨-, rfl⟩ := Prod.mk.inj happend
      exact hkeep.store (hroom (not_not.mp hfail))

/-- An append leaves the unread bytes within the buffer, whether it succeeds or not. -/
theorem uotBufferAppend_fits {data : Bytes} {rc : Rc} (hf : UotRecvFits (ac.streams h))
    (happend : uotBufferAppend h data ac = (rc, ac')) : UotRecvFits (ac'.streams h) := by
  have hsize : UotRecvFits ((uotSetRecvSize h ac).streams h) := by
    unfold uotSetRecvSize
    rw [Connection.upd_self]
    exact ⟨hf.within.trans hf.size, le_rfl⟩
  have hnew : UotRecvFits ((uotNewBuffer h (uotSetRecvSize h ac).allocNext).streams h) := by
    unfold uotNewBuffer
    rw [Connection.upd_self]
    exact ⟨hsize.within, hsize.size⟩
  unfold uotBufferAppend at happend
  by_cases hnil : data = []
  · rw [if_pos hnil] at happend
    obtain ⟨-, rfl⟩ := Prod.mk.inj happend
    exact hf
  · rw [if_neg hnil] at happend
    by_cases hnone : (ac.streams h).uotRecvBuf.isNone = true
    · rw [if_pos hnone] at happend
      dsimp only at happend
      by_cases halloc : (!(uotSetRecvSize h ac).allocOk) = true
      · rw [if_pos halloc] at happend
        obtain ⟨-, rfl⟩ := Prod.mk.inj happend
        exact hsize
      · rw [if_neg halloc] at happend
        exact uotAppendRoom_fits hnew happend
    · rw [if_neg hnone] at happend
      exact uotAppendRoom_fits hf happend

/-- The end of the unread bytes stays where it is when the cursor moves, also when bytes were given
up since `left` was counted. -/
theorem uotConsume_fits {left : Nat} (hf : UotRecvFits (ac.streams h))
    (hleft : left ≤ (ac.streams h).uotRecvPos + (ac.streams h).uotRecvLen) :
    UotRecvFits ((uotConsume h left ac).streams h) := by
  obtain ⟨hwithin, hsize⟩ := hf
  unfold uotRecvSize at hsize
  have hpos : sizeWrap ((ac.streams h).uotRecvPos +
      sizeWrap ((ac.streams h).uotRecvLen + 2 ^ 64 - left)) =
        (ac.streams h).uotRecvPos + (ac.streams h).uotRecvLen - left := by
    unfold sizeWrap
    omega
  unfold uotConsume
  rw [Connection.upd_self]
  refine ⟨?_, hsize⟩
  show sizeWrap ((ac.streams h).uotRecvPos +
    sizeWrap ((ac.streams h).uotRecvLen + 2 ^ 64 - left)) + left ≤ (ac.streams h).uotRecvSize
  omega

/-- A stream's reassembly buffer in a session: data is appended to it, read bytes are given up, and
everything else leaves it alone. What is left was counted between the start of the buffer and the
end of the unread bytes. -/
inductive UotRecvRun (h : Handle) (start : Connection) : Connection → Prop
  | start : UotRecvRun h start start
  | append {ac : Connection} (data : Bytes) (hr : UotRecvRun h start ac) :
      UotRecvRun h start (uotBufferAppend h data ac).2
  | consume {ac : Connection} (left : Nat)
      (hleft : left ≤ (ac.streams h).uotRecvPos + (ac.streams h).uotRecvLen)
      (hr : UotRecvRun h start ac) : UotRecvRun h start (uotConsume h left ac)
  | between {ac ac' : Connection} (hcells : (ac'.streams h).uotCells = (ac.streams h).uotCells)
      (hr : UotRecvRun h start ac) : UotRecvRun h start ac'

theorem UotRecvRun.fits (hr : UotRecvRun h start ac) (hstart : UotRecvFits (start.streams h)) :
    UotRecvFits (ac.streams h) := by
  induction hr with
  | start => exact hstart
  | append data _ ih => exact uotBufferAppend_fits ih (Prod.eta _).symm
  | consume left hleft _ ih => exact uotConsume_fits ih hleft
  | between hcells _ ih => exact ih.congr hcells

/-- The room for an append is the size less the end of the unread bytes. -/
theorem uotRecv_fits (h : Handle) (start ac : Connection)
    (hstart : (start.streams h).uotCells = (none, 0, 0, 0)) (hr : UotRecvRun h start ac) :
    (ac.streams h).uotRecvPos + (ac.streams h).uotRecvLen ≤ (ac.streams h).uotRecvSize ∧
      (ac.streams h).uotRecvSize ≤ 65536 ∧
      ∀ n, (ac.streams h).uotLacks n = true ↔ (ac.streams h).uotRecvSize -
        ((ac.streams h).uotRecvPos + (ac.streams h).uotRecvLen) < n := by
  have hfresh : UotRecvFits (start.streams h) := by
    simp only [Stream.uotCells, Prod.mk.injEq] at hstart
    obtain ⟨-, hpos, hlen, hsize⟩ := hstart
    constructor
    · rw [hpos, hlen, hsize]
    · rw [hsize]
      exact Nat.zero_le _
  have hfits := hr.fits hfresh
  exact ⟨hfits.within, hfits.size, hfits.lacks⟩

/-- Three bytes are appended and two are given up. -/
theorem uotRecv_fits_sample :
    (Connection.init sampleConf).streams 0 = {} ∧
      ((uotConsume 0 1 (uotBufferAppend 0 [1, 2, 3] (Connection.init sampleConf)).2).streams
        0).uotRecvSize ≤ 65536 := by
  have happend := UotRecvRun.append [1, 2, 3] (@UotRecvRun.start 0 (Connection.init sampleConf))
  have hfits := uotRecv_fits 0 _ _ rfl (.consume 1 (by decide) happend)
  exact ⟨rfl, hfits.2.1⟩

end Reassembly

end NgxAnytls
