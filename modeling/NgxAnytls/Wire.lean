import NgxAnytls.OutputLists

/-! What the client socket is given is a sequence of frames, one for each frame queued. -/

namespace NgxAnytls

/-- A frame as it stands on the wire. -/
structure Packet where
  cmd : UInt8
  id : UInt32
  payload : Bytes
  le : payload.length ≤ maxFrameData

def Packet.encode (p : Packet) : Bytes := encodeFrame p.cmd p.id p.payload

/-- What the parser reports of it. -/
def Packet.frame (p : Packet) : Frame := frameOf p.cmd p.id p.payload

/-- `ngx_anytls_parse_frame` run over and over: the frames and what is left. -/
def parseFramesLoop : Nat → Bytes → List Frame × Bytes
  | 0, bs => ([], bs)
  | fuel + 1, bs =>
    match parseFrame bs with
    | .ok f consumed =>
      let r := parseFramesLoop fuel (bs.drop consumed)
      (f :: r.1, r.2)
    | _ => ([], bs)

/-- Each frame takes at least 7 bytes. -/
def parseFrames (bs : Bytes) : List Frame × Bytes := parseFramesLoop (bs.length + 1) bs

theorem Packet.encode_length (p : Packet) : p.encode.length = frameHeaderLen + p.payload.length :=
  encodeFrame_length p.cmd p.id p.payload

private theorem length_le_encode (ps : List Packet) :
    ps.length ≤ (ps.flatMap Packet.encode).length := by
  induction ps with
  | nil => simp
  | cons p ps ih =>
    rw [List.flatMap_cons, List.length_append, p.encode_length, List.length_cons]
    unfold frameHeaderLen
    omega

private theorem parseFramesLoop_encode (ps : List Packet) {t : Bytes} (ht : parseFrame t = .again)
    {n : Nat} (hn : ps.length < n) :
    parseFramesLoop n (ps.flatMap Packet.encode ++ t) = (ps.map Packet.frame, t) := by
  induction ps generalizing n with
  | nil =>
    obtain ⟨n, rfl⟩ : ∃ m, n = m + 1 := ⟨n - 1, by simp at hn; omega⟩
    simp [parseFramesLoop, ht]
  | cons p ps ih =>
    obtain ⟨n, rfl⟩ : ∃ m, n = m + 1 := ⟨n - 1, by simp at hn; omega⟩
    have hparse := parseFrame_encode p.cmd p.id p.payload (ps.flatMap Packet.encode ++ t) p.le
    have hrest := ih (n := n) (by simpa using hn)
    have hdrop : (p.encode ++ (ps.flatMap Packet.encode ++ t)).drop
        (frameHeaderLen + p.payload.length) = ps.flatMap Packet.encode ++ t := by
      rw [← p.encode_length, List.drop_left]
    change parseFrame (p.encode ++ _) = _ at hparse
    rw [List.flatMap_cons, List.append_assoc, parseFramesLoop, hparse]
    dsimp only
    rw [hdrop, hrest]
    rfl

/-- The parser reads a sequence of frames back, and leaves an incomplete one. -/
theorem parseFrames_encode (ps : List Packet) {t : Bytes} (ht : parseFrame t = .again) :
    parseFrames (ps.flatMap Packet.encode ++ t) = (ps.map Packet.frame, t) := by
  refine parseFramesLoop_encode ps ht ?_
  have hle := length_le_encode ps
  rw [List.length_append]
  omega

def queuedFrames (t : List Obs) : List OutFrame :=
  t.filterMap fun
    | .queued f .. => some f
    | _ => none

def linkedFrames (t : List Obs) : List OutFrame :=
  t.filterMap fun
    | .linked f => some f
    | _ => none

/-- The bytes the client socket took. -/
def clientSent (t : List Obs) : Bytes :=
  t.flatMap fun
    | .clientSend bs => bs
    | _ => []

@[simp] theorem queuedFrames_append (s t : List Obs) :
    queuedFrames (s ++ t) = queuedFrames s ++ queuedFrames t := List.filterMap_append ..

@[simp] theorem linkedFrames_append (s t : List Obs) :
    linkedFrames (s ++ t) = linkedFrames s ++ linkedFrames t := List.filterMap_append ..

@[simp] theorem clientSent_append (s t : List Obs) :
    clientSent (s ++ t) = clientSent s ++ clientSent t := List.flatMap_append ..

/-- Records about other things. -/
def NoOutput (s : List Obs) : Prop := queuedFrames s = [] ∧ linkedFrames s = [] ∧ clientSent s = []

private theorem mem_queuedFrames {t : List Obs} {f : OutFrame} (hf : f ∈ queuedFrames t) :
    ∃ n version, .queued f n version ∈ t := by
  obtain ⟨o, ho, heq⟩ := List.mem_filterMap.mp hf
  cases o with
  | queued g n version =>
    obtain rfl : g = f := Option.some.inj heq
    exact ⟨n, version, ho⟩
  | _ => cases heq

/-- The client socket got the linked frames in order, as far as it took them, and every linked or
waiting frame was queued. -/
structure View.Wired (v : View) : Prop where
  sent : clientSent v.trace ++ v.sending.flatMap OutFrame.rest =
    (linkedFrames v.trace).flatMap OutFrame.rest
  counted : ↑(linkedFrames v.trace) + v.waiting ≤ (↑(queuedFrames v.trace) : Multiset OutFrame)

section Effects

variable {v v' : View}

/-- An effect on other things. -/
theorem View.Wired.next (hi : v.Wired) (s : List Obs) (htrace : v'.trace = v.trace ++ s)
    (hs : NoOutput s) (hsending : v'.sending = v.sending) (hwaiting : v'.waiting ≤ v.waiting) :
    v'.Wired := by
  obtain ⟨hqueued, hlinked, hsent⟩ := hs
  refine ⟨?_, ?_⟩
  · rw [htrace, clientSent_append, linkedFrames_append, hlinked, hsent, hsending, List.append_nil,
      List.append_nil]
    exact hi.sent
  · rw [htrace, queuedFrames_append, linkedFrames_append, hlinked, hqueued, List.append_nil,
      List.append_nil]
    exact (add_le_add_right hwaiting _).trans hi.counted

theorem View.Wired.queue (hi : v.Wired) {owner : Option Handle} {f : OutFrame} {route : Route}
    {n version : Nat} (howner : ∀ h, owner = some h → h < v.nstreams)
    (hroute : ∀ h, route = .own h → owner = some h) :
    ((v.enqueue owner f route).log (.queued (f.prepare owner) n version)).Wired := by
  have hsending : (v.enqueue owner f route).sending = v.sending := by
    cases owner <;> cases route <;> rfl
  refine ⟨?_, ?_⟩
  · simpa [View.log, hsending, clientSent, linkedFrames] using hi.sent
  · have hwaiting := View.waiting_enqueue (v := v) (f := f) howner hroute
    change _ + (v.enqueue owner f route).waiting ≤ _
    have hcounted := Multiset.cons_le_cons (f.prepare owner) hi.counted
    rw [hwaiting, Multiset.add_cons]
    refine le_of_le_of_eq (by simpa [linkedFrames] using hcounted) ?_
    rw [View.log_trace, View.enqueue_trace, queuedFrames_append, ← Multiset.coe_add]
    change _ = (↑(queuedFrames v.trace) : Multiset OutFrame) + {f.prepare owner}
    rw [add_comm, Multiset.singleton_add]
    exact (Multiset.cons_coe _ _).symm

theorem linkedFrames_map (fs : List OutFrame) :
    queuedFrames (fs.map .linked) = [] ∧ linkedFrames (fs.map .linked) = fs ∧
      clientSent (fs.map .linked) = [] := by
  induction fs with
  | nil => exact ⟨rfl, rfl, rfl⟩
  | cons f fs ih =>
    obtain ⟨hq, hl, hc⟩ := ih
    exact ⟨hq, congrArg (f :: ·) hl, hc⟩

theorem View.Wired.link (hi : v.Wired) : View.Wired { v with
    sending := v.sending ++ (v.controlOut ++ v.dataOut), controlOut := [], dataOut := []
    trace := v.trace ++ (v.controlOut ++ v.dataOut).map .linked } := by
  obtain ⟨hqueued, hlinked, hsent⟩ := linkedFrames_map (v.controlOut ++ v.dataOut)
  refine ⟨?_, ?_⟩
  · rw [clientSent_append, linkedFrames_append, hlinked, hsent, List.append_nil,
      List.flatMap_append, ← List.append_assoc, hi.sent, ← List.flatMap_append]
  · rw [queuedFrames_append, linkedFrames_append, hlinked, hqueued, List.append_nil]
    refine le_of_eq_of_le ?_ hi.counted
    simp only [View.waiting, ← Multiset.coe_add, Multiset.coe_nil, List.append_nil]
    abel

private theorem rest_takeSent (n : Nat) (fs : List OutFrame) :
    (takeSent n fs).flatMap OutFrame.rest = (fs.flatMap OutFrame.rest).drop n := by
  induction fs generalizing n with
  | nil => simp [takeSent]
  | cons f fs ih => simp [takeSent, ih, List.drop_append]

theorem View.Wired.take (hi : v.Wired) (n : Nat) :
    ({ v with sending := takeSent n v.sending }.log
      (.clientSend ((v.sending.flatMap OutFrame.rest).take n))).Wired := by
  refine ⟨?_, ?_⟩
  · have hsent := hi.sent
    simp only [clientSent_append, linkedFrames_append, View.log, rest_takeSent]
    simpa [clientSent, linkedFrames] using hsent
  · have hcounted := hi.counted
    simp only [View.log_trace, queuedFrames_append, linkedFrames_append]
    simpa [queuedFrames, linkedFrames, View.log, View.waiting] using hcounted

theorem Act.wired (ha : Act v v') (hs : v.Sane) (hi : v.Wired) : v'.Wired := by
  have hknown : ∀ h, (v.streams h).out ≠ [] → h < v.nstreams := fun h hout => by
    by_contra hn
    exact hout (hs.fresh h (not_lt.mp hn)).out
  cases ha with
  | queue owner f id body route howner hroute =>
    exact hi.queue (fun h hh => (howner h hh).1) hroute
  | schedule h f fs hout =>
    exact hi.next [] (by simp) ⟨rfl, rfl, rfl⟩ rfl
      (View.waiting_schedule (hknown h (by simp [hout])) hout).le
  | link => exact hi.link
  | take n => exact hi.take n
  | retire f fs hsend hr =>
    refine ⟨?_, ?_⟩
    · have hsent := hi.sent
      rw [hsend, List.flatMap_cons, hr, List.nil_append] at hsent
      rw [View.retire_trace, View.retire_sending]
      exact hsent
    · rw [View.retire_trace, View.waiting_retire]
      exact hi.counted
  | dropOut h => exact hi.next [] (by simp) ⟨rfl, rfl, rfl⟩ rfl (View.waiting_dropOut h)
  | note o ho =>
    refine hi.next [o] rfl ?_ rfl (le_refl _)
    cases o <;> first | exact ⟨rfl, rfl, rfl⟩ | exact ho.elim
  | state | clamped => exact hi.next [_] rfl ⟨rfl, rfl, rfl⟩ rfl (le_refl _)
  | unqueueClosing | untable | pause | unblock =>
    exact hi.next [] (by simp) ⟨rfl, rfl, rfl⟩ rfl (le_refl _)
  | closing g | closed g | discard g | openUpstream g =>
    refine hi.next [_] rfl ⟨rfl, rfl, rfl⟩ rfl (le_of_eq (View.waiting_same rfl rfl rfl ?_))
    intro h
    simp only [View.log_streams, View.upd_streams]
    refine View.rel_ite (v := v) (r := fun st st' => st'.out = st.out) (fun _ => rfl) ?_ h
    rfl
  | synack g | markClosed g | dropUpstream g | lookup g | endLookup g | connecting g
  | connected g =>
    refine hi.next [] (by simp) ⟨rfl, rfl, rfl⟩ rfl (le_of_eq (View.waiting_same rfl rfl rfl ?_))
    intro h
    simp only [View.upd_streams]
    refine View.rel_ite (v := v) (r := fun st st' => st'.out = st.out) (fun _ => rfl) ?_ h
    rfl

theorem SendAct.wired (ha : SendAct v v') (hi : v.Wired) : v'.Wired := by
  cases ha with
  | chain => exact hi.next [_] rfl ⟨rfl, rfl, rfl⟩ rfl (le_refl _)
  | account g | shutdown g =>
    refine hi.next [_] rfl ⟨rfl, rfl, rfl⟩ rfl (le_of_eq (View.waiting_same rfl rfl rfl ?_))
    intro h
    simp only [View.log_streams, View.upd_streams]
    refine View.rel_ite (v := v) (r := fun st st' => st'.out = st.out) (fun _ => rfl) ?_ h
    rfl
  | pop g =>
    refine hi.next [] (by simp) ⟨rfl, rfl, rfl⟩ rfl (le_of_eq (View.waiting_same rfl rfl rfl ?_))
    intro h
    simp only [View.upd_streams]
    refine View.rel_ite (v := v) (r := fun st st' => st'.out = st.out) (fun _ => rfl) ?_ h
    rfl

theorem DispatchAct.wired (ha : DispatchAct v v') (hi : v.Wired) : v'.Wired := by
  cases ha with
  | create id => exact hi.next [_] rfl ⟨rfl, rfl, rfl⟩ rfl (View.waiting_create id).le
  | psh | direct => exact hi.next [_] rfl ⟨rfl, rfl, rfl⟩ rfl (le_refl _)
  | opening h =>
    exact hi.next [.opening h (v.streams h).state, .setState h (v.streams h).state .connecting]
      (by simp [View.log]) ⟨rfl, rfl, rfl⟩ rfl (le_refl _)
  | core | table => exact hi.next [] (by simp) ⟨rfl, rfl, rfl⟩ rfl (le_refl _)
  | fin g | append g =>
    refine hi.next [_] rfl ⟨rfl, rfl, rfl⟩ rfl (le_of_eq (View.waiting_same rfl rfl rfl ?_))
    intro h
    simp only [View.log_streams, View.upd_streams]
    refine View.rel_ite (v := v) (r := fun st st' => st'.out = st.out) (fun _ => rfl) ?_ h
    rfl
  | halfClose g =>
    refine hi.next [.upShutdown g, .setState g (v.streams g).state .halfClosed]
      (by simp [View.log, View.upd]) ⟨rfl, rfl, rfl⟩ rfl
      (le_of_eq (View.waiting_same rfl rfl rfl ?_))
    intro h
    simp only [View.log_streams, View.upd_streams]
    refine View.rel_ite (v := v) (r := fun st st' => st'.out = st.out) (fun _ => rfl) ?_ h
    rfl
  | firstPshAcc g | firstPsh g | openUot g | deferClose g =>
    refine hi.next [] (by simp) ⟨rfl, rfl, rfl⟩ rfl (le_of_eq (View.waiting_same rfl rfl rfl ?_))
    intro h
    simp only [View.upd_streams]
    refine View.rel_ite (v := v) (r := fun st st' => st'.out = st.out) (fun _ => rfl) ?_ h
    rfl

theorem SessionAct.wired (ha : SessionAct v v') (hs : v.Sane) (hi : v.Wired) : v'.Wired := by
  cases ha with
  | act ha => exact ha.wired hs hi
  | close ha =>
    cases ha with
    | finalizing => exact hi.next [] (by simp) ⟨rfl, rfl, rfl⟩ rfl (le_refl _)
    | finalized => exact hi.next [_] rfl ⟨rfl, rfl, rfl⟩ rfl (le_refl _)
  | send ha => exact ha.wired hi
  | dispatch ha => exact ha.wired hi
  | input hm ht =>
    refine hi.next [] (by simpa using ht) ⟨rfl, rfl, rfl⟩ hm.sending (le_of_eq ?_)
    exact View.waiting_same hm.nstreams hm.controlOut hm.dataOut fun h => by rw [hm.streams]
  | inputLog o ho hm ht =>
    refine hi.next [o] ht ?_ hm.sending (le_of_eq ?_)
    · cases o <;> first | exact ⟨rfl, rfl, rfl⟩ | exact ho.elim
    · exact View.waiting_same hm.nstreams hm.controlOut hm.dataOut fun h => by rw [hm.streams]

end Effects

theorem run_wired (conf : Conf) (es : List (Event × Env)) : (run conf es).view.Wired :=
  run_invariant (fun hs ha hi => ha.wired hs hi) conf
    ⟨rfl, by simp [View.waiting, linkedFrames, queuedFrames, Connection.init, Connection.view]⟩ es

/-- The frame stands on the wire as that packet. -/
structure OutFrame.IsPacket (f : OutFrame) (p : Packet) : Prop where
  cmd : p.cmd.toNat = f.cmd.toNat
  header : f.header = writeFrameHeader f.cmd.toNat p.id p.payload.length
  payload : f.payload = if f.inplace then f.header ++ p.payload else p.payload
  length : f.length = frameHeaderLen + p.payload.length
  rest : f.rest = p.encode

theorem Cmd.toNat_ofNat (c : Cmd) : (UInt8.ofNat c.toNat).toNat = c.toNat := by
  cases c <;> rfl

/-- A frame built as it should be is a packet. -/
theorem OutFrame.Built.isPacket {f : OutFrame} {id : UInt32} {body : Bytes} {t : List Obs}
    {owner : Option Handle} (hf : f.Built id body t) (hlen : f.length = body.length) :
    ∃ p, (f.prepare owner).IsPacket p := by
  have hheader : f.header = writeFrameHeader f.cmd.toNat id body.length := hlen ▸ hf.header
  refine ⟨⟨UInt8.ofNat f.cmd.toNat, id, body, hlen ▸ hf.le⟩, ?_, hheader, ?_, ?_, ?_⟩
  · exact Cmd.toNat_ofNat f.cmd
  · exact hf.payload
  · simp [OutFrame.prepare, hlen, Nat.add_comm]
  · have hnone : f.length = 0 → body = [] := fun h0 => List.length_eq_zero_iff.mp (hlen ▸ h0)
    simp only [OutFrame.prepare, Packet.encode, encodeFrame, Cmd.toNat_ofNat, ← hheader, hf.payload]
    by_cases hin : f.inplace
    · simp [hin]
    · simpa [hin, eq_comm] using hnone

/-- A list can be matched when each of its members can. -/
theorem exists_forall₂_iff {α β : Type*} {r : α → β → Prop} {as : List α} :
    (∃ bs, List.Forall₂ r as bs) ↔ ∀ a ∈ as, ∃ b, r a b := by
  induction as with
  | nil => simp
  | cons a as ih =>
    rw [List.forall_mem_cons, ← ih]
    constructor
    · rintro ⟨-, hb | ⟨hb, hbs⟩⟩
      exact ⟨⟨_, hb⟩, _, hbs⟩
    · rintro ⟨⟨b, hb⟩, bs, hbs⟩
      exact ⟨b :: bs, .cons hb hbs⟩

private theorem rest_eq_encode {fs : List OutFrame} {ps : List Packet}
    (h : List.Forall₂ OutFrame.IsPacket fs ps) :
    fs.flatMap OutFrame.rest = ps.flatMap Packet.encode := by
  induction h with
  | nil => rfl
  | cons hf _ ih => rw [List.flatMap_cons, List.flatMap_cons, hf.rest, ih]

/-- What the client socket was given and is still to be given is the sequence of the linked
frames, each of them queued once; the parser reads it back. -/
structure WireWellFormed (ac : Connection) (ps : List Packet) : Prop where
  packets : List.Forall₂ OutFrame.IsPacket (linkedFrames ac.trace) ps
  accepted : (linkedFrames ac.trace).Subperm (queuedFrames ac.trace)
  sent : clientSent ac.trace ++ ac.unsent = ps.flatMap Packet.encode
  parsed : parseFrames (ps.flatMap Packet.encode) = (ps.map Packet.frame, [])

/-- The output of a session is a sequence of well-formed frames, unless a connected UoT socket
brought an empty datagram. -/
theorem run_wire (conf : Conf) (es : List (Event × Env))
    (hdatagram : ∀ h, .udpRecv h [] ∉ (run conf es).trace) :
    ∃ ps, WireWellFormed (run conf es) ps := by
  have hi := run_wired conf es
  have haccepted : (linkedFrames (run conf es).trace).Subperm (queuedFrames (run conf es).trace) :=
    Multiset.coe_le.mp ((Multiset.le_add_right _ _).trans hi.counted)
  have hpackets : ∀ f ∈ linkedFrames (run conf es).trace, ∃ p, f.IsPacket p := by
    intro f hf
    obtain ⟨n, version, hm⟩ := mem_queuedFrames (haccepted.subset hf)
    obtain ⟨s, u, ht⟩ := List.append_of_mem hm
    obtain ⟨w, -, -, hpre, owner, f₀, id, body, rfl, -, -, hbuilt, -⟩ := run_record conf es ht
    refine hbuilt.isPacket (hbuilt.length.resolve_right ?_)
    rintro ⟨-, -, -, h, hempty⟩
    refine hdatagram h ?_
    rw [ht]
    exact List.mem_append_left _ (hpre.subset hempty)
  obtain ⟨ps, hps⟩ := exists_forall₂_iff.mpr hpackets
  refine ⟨ps, hps, haccepted, ?_, ?_⟩
  · rw [← rest_eq_encode hps]
    exact hi.sent
  · have hparse := parseFrames_encode ps (t := []) rfl
    rwa [List.append_nil] at hparse

/-- A TCP stream brings three bytes. -/
def wireRun : List (Event × Env) :=
  [sampleOpen sampleV2 sampleTarget { connect := [.ok] },
   (.upstreamRead 0, { recv := [.data [1, 2, 3]] }), (.clientWrite, { client := [.done 30] })]

theorem run_wire_tcp : ∃ ps, WireWellFormed (run sampleConf wireRun) ps :=
  run_wire sampleConf wireRun fun h hm => by
    have hnone : ∀ o ∈ (run sampleConf wireRun).trace,
        (match o with | .udpRecv .. => false | _ => true) = true := by decide
    exact absurd (hnone _ hm) (by simp)

/-- The target `sp.v2.udp-over-tcp.arpa`, the request to connect to 127.0.0.1:80 and the datagram
of one byte. -/
def sampleUot : Bytes :=
  [3, 23, 115, 112, 46, 118, 50, 46, 117, 100, 112, 45, 111, 118, 101, 114, 45, 116, 99, 112, 46,
   97, 114, 112, 97, 0, 80, 1, 1, 127, 0, 0, 1, 0, 80, 0, 1, 9]

/-- A connected UoT socket brings an empty datagram. -/
def emptyDatagramRun : List (Event × Env) :=
  [sampleOpen sampleV2 sampleUot {}, (.udpRead 0, { recv := [.data []] }),
   (.clientWrite, { client := [.done 1000] })]

/-- The frame of an empty datagram says that two bytes follow, and none do. -/
theorem empty_datagram_not_wire : ¬∃ ps, WireWellFormed (run sampleConf emptyDatagramRun) ps := by
  rintro ⟨ps, hw⟩
  have hlengths : ∀ f ∈ linkedFrames (run sampleConf emptyDatagramRun).trace,
      f.rest.length = f.length := by
    intro f hf
    obtain ⟨p, hp⟩ := exists_forall₂_iff.mp ⟨ps, hw.packets⟩ f hf
    rw [hp.rest, p.encode_length, hp.length]
  exact absurd hlengths (by decide)

end NgxAnytls
