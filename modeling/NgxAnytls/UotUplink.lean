import NgxAnytls.FirstPsh
import NgxAnytls.Uot

/-! The datagrams of a UoT connect stream: the reassembly buffer, the loop over the length-prefixed
datagrams in it, and what `sendto` is called with. -/

namespace NgxAnytls

/-- The buffer and its cursor. -/
def Stream.uotCells (st : Stream) : Option Bytes × Nat × Nat × Nat :=
  (st.uotRecvBuf, st.uotRecvPos, st.uotRecvLen, st.uotRecvSize)

/-- The buffer holds `u` behind its cursor. -/
structure UotHolds (st : Stream) (u : Bytes) : Prop where
  unread : st.uotUnread = u
  len : st.uotRecvLen = u.length
  written : st.uotRecvPos + st.uotRecvLen ≤ (st.uotRecvBuf.getD []).length
  fits : st.uotRecvPos + st.uotRecvLen ≤ uotRecvSize
  size : st.uotRecvBuf.isSome → st.uotRecvSize = uotRecvSize

theorem UotHolds.congr {st st' : Stream} {u : Bytes} (hb : UotHolds st u)
    (hc : st'.uotCells = st.uotCells) : UotHolds st' u := by
  simp only [Stream.uotCells, Prod.mk.injEq] at hc
  obtain ⟨hbuf, hpos, hlen, hsize⟩ := hc
  constructor
  · simp only [Stream.uotUnread, hbuf, hpos, hlen]
    exact hb.unread
  · rw [hlen]
    exact hb.len
  · rw [hpos, hlen, hbuf]
    exact hb.written
  · rw [hpos, hlen]
    exact hb.fits
  · rw [hbuf, hsize]
    exact hb.size

private theorem writeAt_eq {off : Nat} {data mem : Bytes} (hoff : off ≤ mem.length) :
    writeAt off data mem = mem.take off ++ data ++ mem.drop (off + data.length) := by
  unfold writeAt
  rw [Nat.sub_eq_zero_of_le hoff, List.replicate_zero, List.append_nil]

/-- What is copied behind the unread bytes is read after them. -/
theorem writeAt_unread {pos len : Nat} {data mem : Bytes} (hle : pos + len ≤ mem.length) :
    ((writeAt (pos + len) data mem).drop pos).take (len + data.length) =
      (mem.drop pos).take len ++ data := by
  have hlen : (mem.take (pos + len)).length = pos + len := by
    rw [List.length_take]
    omega
  have hunread : ((mem.take (pos + len)).drop pos).length = len := by
    rw [List.length_drop, hlen]
    omega
  rw [writeAt_eq hle, List.append_assoc, List.drop_append_of_le_length (by omega),
    ← List.append_assoc, List.take_append_of_le_length (by
      rw [List.length_append, hunread]), List.take_of_length_le (by
      rw [List.length_append, hunread])]
  congr 1
  rw [List.drop_take]
  congr 1
  omega

private theorem writeAt_length {off : Nat} {data mem : Bytes} (hoff : off ≤ mem.length) :
    off + data.length ≤ (writeAt off data mem).length := by
  rw [writeAt_eq hoff, List.length_append, List.length_append, List.length_take]
  omega

theorem sizeWrap_of_le {n : Nat} (hn : n ≤ uotRecvSize) : sizeWrap n = n := by
  unfold sizeWrap
  unfold uotRecvSize at hn
  exact Nat.mod_eq_of_lt (by omega)

section Append

variable {h : Handle} {ac : Connection} {u data : Bytes}

theorem UotHolds.store (hb : UotHolds (ac.streams h) u)
    (hsome : (ac.streams h).uotRecvBuf.isSome)
    (hroom : (ac.streams h).uotRecvPos + (ac.streams h).uotRecvLen + data.length ≤ uotRecvSize) :
    UotHolds ((uotStore h data ac).streams h) (u ++ data) := by
  have hoff := sizeWrap_of_le hb.fits
  unfold uotStore
  rw [Connection.upd_self]
  constructor
  · simp only [Stream.uotUnread, hoff, Option.getD_some]
    rw [writeAt_unread hb.written]
    have hunread := hb.unread
    simp only [Stream.uotUnread] at hunread
    rw [hunread]
  · simp only [List.length_append, hb.len]
  · simp only [hoff, Option.getD_some, ← Nat.add_assoc]
    exact writeAt_length hb.written
  · simp only [← Nat.add_assoc]
    exact hroom
  · exact fun _ => hb.size hsome

theorem UotHolds.compact (hb : UotHolds (ac.streams h) u)
    (hsome : (ac.streams h).uotRecvBuf.isSome) :
    UotHolds ((uotCompact h ac).streams h) u := by
  have hfits := hb.fits
  have hfront : writeAt 0 (ac.streams h).uotUnread ((ac.streams h).uotRecvBuf.getD []) =
      u ++ ((ac.streams h).uotRecvBuf.getD []).drop u.length := by
    rw [hb.unread, writeAt_eq (Nat.zero_le _), List.take_zero, List.nil_append, Nat.zero_add]
  unfold uotCompact
  rw [Connection.upd_self, hfront]
  constructor
  · simp only [Stream.uotUnread, Option.getD_some, List.drop_zero, hb.len]
    exact List.take_left
  · exact hb.len
  · simp only [Option.getD_some, List.length_append, hb.len]
    omega
  · simp only
    omega
  · exact fun _ => hb.size hsome

/-- What an operation on the buffer leaves alone. -/
structure UotBeside (h : Handle) (ac ac' : Connection) : Prop where
  mode : (ac'.streams h).uotMode = (ac.streams h).uotMode
  parsed : (ac'.streams h).uotRequestParsed = (ac.streams h).uotRequestParsed
  target : (ac'.streams h).target = (ac.streams h).target
  idle : (ac'.streams h).resolverPending = (ac.streams h).resolverPending
  trace : ac'.trace = ac.trace
  memory : ac.HasMemory → ac'.HasMemory
  sockets : ac'.env.udpOpen = ac.env.udpOpen

theorem UotBeside.refl (h : Handle) (ac : Connection) : UotBeside h ac ac :=
  ⟨rfl, rfl, rfl, rfl, rfl, id, rfl⟩

theorem UotBeside.trans {a b c : Connection} (hab : UotBeside h a b) (hbc : UotBeside h b c) :
    UotBeside h a c :=
  ⟨hbc.mode.trans hab.mode, hbc.parsed.trans hab.parsed, hbc.target.trans hab.target,
    hbc.idle.trans hab.idle, hbc.trace.trans hab.trace, fun hm => hbc.memory (hab.memory hm),
    hbc.sockets.trans hab.sockets⟩

theorem UotBeside.upd {f : Stream → Stream} (hmode : ∀ st, (f st).uotMode = st.uotMode)
    (hparsed : ∀ st, (f st).uotRequestParsed = st.uotRequestParsed)
    (htarget : ∀ st, (f st).target = st.target)
    (hidle : ∀ st, (f st).resolverPending = st.resolverPending) : UotBeside h ac (ac.upd h f) := by
  constructor
  · rw [Connection.upd_self, hmode]
  · rw [Connection.upd_self, hparsed]
  · rw [Connection.upd_self, htarget]
  · rw [Connection.upd_self, hidle]
  · rfl
  · exact id
  · rfl

theorem UotBeside.allocNext : UotBeside h ac ac.allocNext :=
  ⟨rfl, rfl, rfl, rfl, rfl, Connection.HasMemory.allocNext, rfl⟩

theorem UotBeside.compact : UotBeside h ac (uotCompact h ac) :=
  .upd (fun _ => rfl) (fun _ => rfl) (fun _ => rfl) fun _ => rfl

theorem UotBeside.store : UotBeside h ac (uotStore h data ac) :=
  .upd (fun _ => rfl) (fun _ => rfl) (fun _ => rfl) fun _ => rfl

theorem UotBeside.allocated : UotBeside h ac (uotNewBuffer h (uotSetRecvSize h ac).allocNext) := by
  have hsize : UotBeside h ac (uotSetRecvSize h ac) :=
    .upd (fun _ => rfl) (fun _ => rfl) (fun _ => rfl) fun _ => rfl
  have hbuf : UotBeside h (uotSetRecvSize h ac).allocNext
      (uotNewBuffer h (uotSetRecvSize h ac).allocNext) :=
    .upd (fun _ => rfl) (fun _ => rfl) (fun _ => rfl) fun _ => rfl
  exact (hsize.trans .allocNext).trans hbuf

/-- Room is made for what fits behind the unread bytes. -/
theorem uotBufferMakeRoom_ok (hb : UotHolds (ac.streams h) u)
    (hsome : (ac.streams h).uotRecvBuf.isSome) (hfit : u.length + data.length ≤ uotRecvSize) :
    ∃ ac', uotBufferMakeRoom h data.length ac = (.ok, ac') ∧ UotBeside h ac ac' ∧
      UotHolds (ac'.streams h) u ∧ (ac'.streams h).uotRecvBuf.isSome ∧
      (ac'.streams h).uotRecvPos + (ac'.streams h).uotRecvLen + data.length ≤ uotRecvSize := by
  have hlacks : ∀ w : Connection, UotHolds (w.streams h) u → (w.streams h).uotRecvBuf.isSome →
      ((w.streams h).uotLacks data.length = true ↔ uotRecvSize <
        (w.streams h).uotRecvPos + (w.streams h).uotRecvLen + data.length) := fun w hw hs => by
    have hfits := hw.fits
    unfold Stream.uotLacks
    rw [hw.size hs, sizeWrap_of_le hfits, decide_eq_true_iff]
    unfold sizeWrap
    have hwrap : (uotRecvSize + 2 ^ 64 -
        ((w.streams h).uotRecvPos + (w.streams h).uotRecvLen)) % 2 ^ 64 =
        uotRecvSize - ((w.streams h).uotRecvPos + (w.streams h).uotRecvLen) := by
      unfold uotRecvSize at hfits ⊢
      omega
    rw [hwrap]
    omega
  unfold uotBufferMakeRoom
  by_cases hlack : (ac.streams h).uotLacks data.length = true
  · rw [if_neg (by rw [hlack]; decide)]
    have hover := (hlacks ac hb hsome).mp hlack
    have hpos : (ac.streams h).uotRecvPos ≠ 0 := by
      have := hb.len
      omega
    have hc := hb.compact hsome
    have hcsome : ((uotCompact h ac).streams h).uotRecvBuf.isSome := by
      unfold uotCompact
      rw [Connection.upd_self]
      rfl
    have hcpos : ((uotCompact h ac).streams h).uotRecvPos = 0 := by
      unfold uotCompact
      rw [Connection.upd_self]
    have hroom : ((uotCompact h ac).streams h).uotRecvPos +
        ((uotCompact h ac).streams h).uotRecvLen + data.length ≤ uotRecvSize := by
      rw [hcpos, hc.len]
      omega
    have hnot : ¬ (((uotCompact h ac).streams h).uotLacks data.length = true) := fun hl =>
      absurd ((hlacks _ hc hcsome).mp hl) (not_lt.mpr hroom)
    dsimp only
    rw [if_pos hpos, sizeWrap_of_le hc.fits, if_neg (not_lt.mpr hroom), if_neg hnot]
    exact ⟨_, rfl, UotBeside.compact, hc, hcsome, hroom⟩
  · have hroom := not_lt.mp fun hover => hlack ((hlacks ac hb hsome).mpr hover)
    rw [if_pos (by rw [Bool.not_eq_true] at hlack; rw [hlack]; rfl)]
    exact ⟨ac, rfl, .refl h ac, hb, hsome, hroom⟩

/-- What fits the buffer is read after what it holds. -/
theorem uotBufferAppend_ok (hb : UotHolds (ac.streams h) u) (hm : ac.HasMemory)
    (hfit : u.length + data.length ≤ uotRecvSize) :
    ∃ ac', uotBufferAppend h data ac = (.ok, ac') ∧ UotBeside h ac ac' ∧
      UotHolds (ac'.streams h) (u ++ data) := by
  unfold uotBufferAppend
  by_cases hnil : data = []
  · rw [if_pos hnil, hnil, List.append_nil]
    exact ⟨ac, rfl, .refl h ac, hb⟩
  rw [if_neg hnil]
  have hstored : ∀ w : Connection, UotBeside h ac w → UotHolds (w.streams h) u →
      (w.streams h).uotRecvBuf.isSome →
      ∃ ac', (let r := uotBufferMakeRoom h data.length w
        if r.1 ≠ .ok then r else (.ok, uotStore h data r.2)) = (.ok, ac') ∧ UotBeside h ac ac' ∧
        UotHolds (ac'.streams h) (u ++ data) := fun w hbeside hw hs => by
    obtain ⟨w', hroom, hbeside', hw', hs', hspace⟩ := uotBufferMakeRoom_ok hw hs hfit
    rw [hroom]
    exact ⟨uotStore h data w', rfl, (hbeside.trans hbeside').trans UotBeside.store,
      hw'.store hs' hspace⟩
  cases hbuf : (ac.streams h).uotRecvBuf with
  | none =>
    rw [if_pos (show (none : Option Bytes).isNone = true from rfl)]
    have halloc : (uotSetRecvSize h ac).allocOk = true := hm.allocOk
    dsimp only
    rw [if_neg (by rw [halloc]; decide)]
    have hempty : u = [] := by
      have hwritten := hb.written
      rw [hbuf, Option.getD_none, List.length_nil, hb.len] at hwritten
      exact List.eq_nil_of_length_eq_zero (by omega)
    refine hstored _ UotBeside.allocated ?_ ?_
    · have hwritten := hb.written
      rw [hbuf, Option.getD_none, List.length_nil] at hwritten
      have hpos : (ac.streams h).uotRecvPos = 0 := by omega
      have hlen : (ac.streams h).uotRecvLen = 0 := by omega
      rw [hempty]
      constructor <;>
        simp [uotNewBuffer, uotSetRecvSize, Connection.allocNext, Stream.uotUnread, hpos, hlen]
    · simp [uotNewBuffer]
  | some mem =>
    rw [if_neg (by simp)]
    exact hstored ac (.refl h ac) hb (by rw [hbuf]; rfl)

/-- The bytes behind the cursor after it moved. -/
theorem UotHolds.consume {tail : Bytes} (hb : UotHolds (ac.streams h) u)
    (htail : tail <:+ u) : UotHolds ((uotConsume h tail.length ac).streams h) tail := by
  obtain ⟨pre, hpre⟩ := htail
  have hlen := hb.len
  have hfits := hb.fits
  have hwritten := hb.written
  have hsum : u.length = pre.length + tail.length := by rw [← hpre, List.length_append]
  have hpos : sizeWrap ((ac.streams h).uotRecvPos +
      sizeWrap ((ac.streams h).uotRecvLen + 2 ^ 64 - tail.length)) =
      (ac.streams h).uotRecvPos + pre.length := by
    unfold sizeWrap
    unfold uotRecvSize at hfits
    omega
  unfold uotConsume
  rw [Connection.upd_self]
  constructor
  · simp only [Stream.uotUnread, hpos]
    have hunread := hb.unread
    simp only [Stream.uotUnread] at hunread
    have hdrop := congrArg (List.drop pre.length) hunread
    rw [← hpre, List.drop_left, List.drop_take, List.drop_drop, hlen, hsum,
      Nat.add_sub_cancel_left] at hdrop
    exact hdrop
  · rfl
  · simp only [hpos]
    omega
  · simp only [hpos]
    omega
  · exact hb.size

end Append

/-- A datagram with its length in front. -/
def lengthPrefixed (d : Bytes) : Bytes :=
  UInt8.ofNat (d.length / 256) :: UInt8.ofNat d.length :: d

/-- No datagram is complete at the front of the bytes. -/
def IsPartial : Bytes → Prop
  | l1 :: l0 :: q => q.length < be16 l1 l0
  | _ => True

/-- The complete datagrams at the front of the bytes, and what is behind them. -/
inductive Datagrams : Bytes → List Bytes → Bytes → Prop
  | tail {p : Bytes} (hp : IsPartial p) : Datagrams p [] p
  | cons {d q tail : Bytes} {ds : List Bytes} (hd : d.length < 65536) (hq : Datagrams q ds tail) :
      Datagrams (lengthPrefixed d ++ q) (d :: ds) tail

private theorem isPartial_prefixed {d : Bytes} (hd : d.length < 65536) (q : Bytes) :
    ¬ IsPartial (lengthPrefixed d ++ q) := by
  show ¬ (d ++ q).length < be16 _ _
  rw [be16_ofNat _ hd, List.length_append]
  omega

private theorem lengthPrefixed_inj {d d' q q' : Bytes} (hd : d.length < 65536)
    (hd' : d'.length < 65536) (heq : lengthPrefixed d ++ q = lengthPrefixed d' ++ q') :
    d = d' ∧ q = q' := by
  simp only [lengthPrefixed, List.cons_append, List.cons.injEq] at heq
  obtain ⟨hhigh, hlow, hrest⟩ := heq
  have hlen : d.length = d'.length := by
    rw [← be16_ofNat _ hd, hhigh, hlow, be16_ofNat _ hd']
  exact List.append_inj hrest hlen

/-- Bytes are split in one way only. -/
theorem Datagrams.unique {p tail tail' : Bytes} {ds ds' : List Bytes} (h : Datagrams p ds tail)
    (h' : Datagrams p ds' tail') : ds = ds' ∧ tail = tail' := by
  induction h generalizing ds' tail' with
  | tail hp =>
    cases h' with
    | tail => exact ⟨rfl, rfl⟩
    | cons hd hq => exact absurd hp (isPartial_prefixed hd _)
  | @cons d q tail ds hd hq ih =>
    generalize hp : lengthPrefixed d ++ q = p at h'
    cases h' with
    | tail hpart => exact absurd (hp ▸ hpart) (isPartial_prefixed hd _)
    | cons hd' hq' =>
      obtain ⟨rfl, rfl⟩ := lengthPrefixed_inj hd hd' hp
      obtain ⟨rfl, rfl⟩ := ih hq'
      exact ⟨rfl, rfl⟩

/-- Any bytes can be split. -/
theorem exists_datagrams (n : Nat) (p : Bytes) (hn : p.length ≤ n) :
    ∃ ds tail, Datagrams p ds tail := by
  induction n generalizing p with
  | zero =>
    obtain rfl := List.eq_nil_of_length_eq_zero (Nat.le_zero.mp hn)
    exact ⟨[], [], .tail trivial⟩
  | succ n ih =>
    match p with
    | [] => exact ⟨[], [], .tail trivial⟩
    | [b] => exact ⟨[], [b], .tail trivial⟩
    | l1 :: l0 :: q =>
      rcases Nat.lt_or_ge q.length (be16 l1 l0) with hpart | hwhole
      · exact ⟨[], _, .tail hpart⟩
      · simp only [List.length_cons] at hn
        obtain ⟨ds, tail, hrest⟩ := ih (q.drop (be16 l1 l0)) (by
          rw [List.length_drop]
          omega)
        have hlen : (q.take (be16 l1 l0)).length = be16 l1 l0 := by
          rw [List.length_take]
          omega
        have hfront : lengthPrefixed (q.take (be16 l1 l0)) ++ q.drop (be16 l1 l0) =
            l1 :: l0 :: q := by
          have hl1 := l1.toNat_lt
          have hl0 := l0.toNat_lt
          have hhigh : UInt8.ofNat (be16 l1 l0 / 256) = l1 := by
            apply UInt8.toNat_inj.mp
            rw [UInt8.toNat_ofNat']
            unfold be16
            omega
          have hlow : UInt8.ofNat (be16 l1 l0) = l0 := by
            apply UInt8.toNat_inj.mp
            rw [UInt8.toNat_ofNat']
            unfold be16
            omega
          unfold lengthPrefixed
          rw [hlen, hhigh, hlow, List.cons_append, List.cons_append, List.take_append_drop]
        have hcons := hrest.cons (d := q.take (be16 l1 l0)) (by rw [hlen]; exact be16_lt l1 l0)
        rw [hfront] at hcons
        exact ⟨_, tail, hcons⟩

/-- More bytes complete what was left. -/
theorem Datagrams.append {p tail more tail' : Bytes} {ds ds' : List Bytes}
    (h : Datagrams p ds tail) (h' : Datagrams (tail ++ more) ds' tail') :
    Datagrams (p ++ more) (ds ++ ds') tail' := by
  induction h with
  | tail => exact h'
  | cons hd hq ih =>
    rw [List.append_assoc]
    exact (ih h').cons hd

theorem Datagrams.suffix {p tail : Bytes} {ds : List Bytes} (h : Datagrams p ds tail) :
    tail <:+ p ∧ IsPartial tail := by
  induction h with
  | tail hp => exact ⟨List.suffix_refl _, hp⟩
  | cons hd hq ih => exact ⟨ih.1.trans (List.suffix_append _ _), ih.2⟩

/-- What `sendto` was called with for the stream. -/
def udpSends (h : Handle) (t : List Obs) : List (SockAddr × Bytes) :=
  t.filterMap fun
    | .udpSend g dst payload => if g = h then some (dst, payload) else none
    | _ => none

/-- The datagrams of these that are sent: an empty payload is left out. -/
def uotSent (dst : SockAddr) (ds : List Bytes) : List (SockAddr × Bytes) :=
  (ds.filter (· ≠ [])).map fun d => (dst, d)

/-- A connect stream whose target is `dst`, in an event with memory and sockets at hand. -/
structure UotReady (h : Handle) (dst : SockAddr) (ac : Connection) : Prop where
  mode : (ac.streams h).uotMode = .uotV2Connect
  parsed : (ac.streams h).uotRequestParsed = true
  target : (ac.streams h).target.sockaddr = some dst
  idle : (ac.streams h).resolverPending = false
  memory : ac.HasMemory
  sockets : ∀ b ∈ ac.env.udpOpen, b = true

theorem UotReady.beside {h : Handle} {dst : SockAddr} {ac ac' : Connection}
    (hr : UotReady h dst ac) (hb : UotBeside h ac ac') : UotReady h dst ac' := by
  constructor
  · rw [hb.mode]
    exact hr.mode
  · rw [hb.parsed]
    exact hr.parsed
  · rw [hb.target]
    exact hr.target
  · rw [hb.idle]
    exact hr.idle
  · exact hb.memory hr.memory
  · rw [hb.sockets]
    exact hr.sockets

/-- A step of the uplink: the stream stays ready, its buffer stays, and `sent` is sent. -/
structure UotSends (h : Handle) (dst : SockAddr) (sent : List (SockAddr × Bytes))
    (ac ac' : Connection) : Prop where
  ready : UotReady h dst ac'
  cells : (ac'.streams h).uotCells = (ac.streams h).uotCells
  sends : udpSends h ac'.trace = udpSends h ac.trace ++ sent

theorem UotSends.trans {h : Handle} {dst : SockAddr} {s t : List (SockAddr × Bytes)}
    {a b c : Connection} (hab : UotSends h dst s a b) (hbc : UotSends h dst t b c) :
    UotSends h dst (s ++ t) a c where
  ready := hbc.ready
  cells := hbc.cells.trans hab.cells
  sends := by rw [hbc.sends, hab.sends, List.append_assoc]

theorem UotSends.beside {h : Handle} {dst : SockAddr} {ac ac' : Connection}
    (hr : UotReady h dst ac) (hb : UotBeside h ac ac')
    (hc : (ac'.streams h).uotCells = (ac.streams h).uotCells) : UotSends h dst [] ac ac' :=
  ⟨hr.beside hb, hc, by rw [hb.trace, List.append_nil]⟩

section Send

variable {h : Handle} {dst : SockAddr} {ac : Connection}

private theorem setUdp_sends (udp : Option Family) (hr : UotReady h dst ac) :
    UotSends h dst [] ac (setUdp h udp ac) := by
  refine .beside hr (.upd (fun _ => rfl) (fun _ => rfl) (fun _ => rfl) fun _ => rfl) ?_
  unfold setUdp
  rw [Connection.upd_self]
  rfl

private theorem uotArmIdleTimer_sends (hr : UotReady h dst ac) :
    UotSends h dst [] ac (uotArmIdleTimer h ac) := by
  unfold uotArmIdleTimer
  split_ifs
  · exact .beside hr (.refl h ac) rfl
  · refine .beside hr (.upd (fun _ => rfl) (fun _ => rfl) (fun _ => rfl) fun _ => rfl) ?_
    rw [Connection.upd_self]
    rfl

private theorem udpSocket_sends (family : Family) (hr : UotReady h dst ac) :
    ∃ ac', udpSocket h family ac = (.ok, ac') ∧ UotSends h dst [] ac ac' := by
  unfold udpSocket
  split_ifs with hopen
  · exact ⟨ac, rfl, .beside hr (.refl h ac) rfl⟩
  · have hnone := setUdp_sends (h := h) none hr
    have hok : (setUdp h none ac).udpOpenOk = true := by
      unfold Connection.udpOpenOk
      cases he : (setUdp h none ac).env.udpOpen with
      | nil => rfl
      | cons b bs => exact hnone.ready.sockets b (by rw [he]; exact List.mem_cons_self)
    have hready := hnone.ready
    have hnext : UotReady h dst (setUdp h none ac).udpOpenNext :=
      ⟨hready.mode, hready.parsed, hready.target, hready.idle, hready.memory,
        fun b hb => hready.sockets b (List.mem_of_mem_tail hb)⟩
    have hsome := setUdp_sends (some family) hnext
    have harm := uotArmIdleTimer_sends hsome.ready
    dsimp only
    rw [if_neg (by rw [hok]; decide)]
    refine ⟨_, rfl, harm.ready, harm.cells.trans (hsome.cells.trans hnone.cells), ?_⟩
    rw [harm.sends, hsome.sends]
    have htrace : udpSends h (setUdp h none ac).udpOpenNext.trace = udpSends h ac.trace ++ [] :=
      hnone.sends
    rw [htrace, List.append_nil, List.append_nil]

private theorem uotUpstreamStateOpen_sends (hr : UotReady h dst ac) :
    ∃ ac', uotUpstreamStateOpen h ac = (.ok, ac') ∧ UotSends h dst [] ac ac' := by
  unfold uotUpstreamStateOpen
  split_ifs with hopened hfail
  · exact ⟨ac, rfl, .beside hr (.refl h ac) rfl⟩
  · rw [hr.memory.allocOk] at hfail
    cases hfail
  · refine ⟨_, rfl, .beside hr (UotBeside.allocNext.trans
      (.upd (fun _ => rfl) (fun _ => rfl) (fun _ => rfl) fun _ => rfl)) ?_⟩
    unfold markStateOpened
    rw [Connection.upd_self]
    rfl

/-- A datagram goes to the target, an empty one nowhere. -/
theorem uotSendResolved_sends (d : Bytes) (hr : UotReady h dst ac) :
    ∃ ac', uotSendResolved h (some dst) d ac = (.ok, ac') ∧
      UotSends h dst (uotSent dst [d]) ac ac' := by
  unfold uotSendResolved
  by_cases hnil : d = []
  · rw [if_pos hnil, hnil]
    exact ⟨ac, rfl, .beside hr (.refl h ac) rfl⟩
  rw [if_neg hnil]
  obtain ⟨w, hsocket, hw⟩ := udpSocket_sends dst.family hr
  obtain ⟨w', hopen, hw'⟩ := uotUpstreamStateOpen_sends hw.ready
  dsimp only
  rw [hsocket]
  dsimp only
  rw [if_neg (by decide), hopen]
  dsimp only
  rw [if_neg (by decide)]
  have hready := hw'.ready
  refine ⟨_, rfl, ⟨hready.mode, hready.parsed, hready.target, hready.idle, hready.memory,
    hready.sockets⟩, hw'.cells.trans hw.cells, ?_⟩
  have hsent : uotSent dst [d] = [(dst, d)] := by simp [uotSent, hnil]
  rw [hsent, Connection.log_trace, udpSends, List.filterMap_append]
  show udpSends h w'.trace ++ _ = _
  rw [hw'.sends, hw.sends]
  simp

private theorem uotSent_cons (d : Bytes) (ds : List Bytes) :
    uotSent dst (d :: ds) = uotSent dst [d] ++ uotSent dst ds := by
  unfold uotSent
  rw [← List.map_append, ← List.filter_append]
  rfl

/-- The loop sends the complete datagrams and stops at the first one that is not. -/
theorem uotConnectLoop_sends (k : Callbacks) {p tail : Bytes} {ds : List Bytes}
    (hp : Datagrams p ds tail) (fuel : Nat) (hfuel : p.length ≤ fuel) (hr : UotReady h dst ac) :
    ∃ ac', uotConnectLoop k h fuel p ac = (some tail, ac') ∧
      UotSends h dst (uotSent dst ds) ac ac' := by
  induction hp generalizing fuel ac with
  | @tail p hpart =>
    have hstay : UotSends h dst (uotSent dst []) ac ac := .beside hr (.refl h ac) rfl
    refine ⟨ac, ?_, hstay⟩
    cases fuel with
    | zero => rfl
    | succ fuel =>
      unfold uotConnectLoop
      cases p with
      | nil => rfl
      | cons l1 p =>
        cases p with
        | nil => rfl
        | cons l0 q => exact if_pos hpart
  | @cons d q tail ds hd hq ih =>
    obtain ⟨w, hsend, hw⟩ := uotSendResolved_sends d hr
    cases fuel with
    | zero =>
      simp only [lengthPrefixed, List.cons_append, List.length_cons] at hfuel
      omega
    | succ fuel =>
      obtain ⟨ac', hloop, hac'⟩ := ih fuel (by
        simp only [lengthPrefixed, List.cons_append, List.length_cons, List.length_append] at hfuel
        omega) hw.ready
      refine ⟨ac', ?_, ?_⟩
      · have hpayload : uotSendPayload k h (ac.streams h).target d ac = (.ok, w) := by
          unfold uotSendPayload
          rw [if_pos (by rw [hr.target]; rfl), hr.target, hsend]
        unfold uotConnectLoop lengthPrefixed
        simp only [List.cons_append]
        rw [be16_ofNat _ hd, if_neg (by rw [List.length_append]; omega), List.take_left,
          List.drop_left, hpayload]
        dsimp only
        rw [if_neg (by decide)]
        exact hloop
      · rw [uotSent_cons]
        exact hw.trans hac'

end Send

/-- A version 2 stream whose request is not complete, in an event with memory and sockets at
hand. -/
structure UotAsking (h : Handle) (ac : Connection) : Prop where
  mode : (ac.streams h).uotMode = .uotV2Connect
  unparsed : (ac.streams h).uotRequestParsed = false
  idle : (ac.streams h).resolverPending = false
  memory : ac.HasMemory
  sockets : ∀ b ∈ ac.env.udpOpen, b = true

section Payload

variable {h : Handle} {dst : SockAddr} {ac : Connection} {u p data tail : Bytes} {ds : List Bytes}

/-- What the datagrams in a buffer come to: those that are complete are sent, the rest is kept. -/
structure UotTakes (h : Handle) (dst : SockAddr) (ds : List Bytes) (tail : Bytes)
    (ac ac' : Connection) : Prop where
  ready : UotReady h dst ac'
  holds : UotHolds (ac'.streams h) tail
  sends : udpSends h ac'.trace = udpSends h ac.trace ++ uotSent dst ds

private theorem uotConsume_takes {ac' : Connection} (hs : UotSends h dst (uotSent dst ds) ac ac')
    (hb : UotHolds (ac.streams h) u) (htail : tail <:+ u) :
    UotTakes h dst ds tail ac (uotConsume h tail.length ac') where
  ready := hs.ready.beside (.upd (fun _ => rfl) (fun _ => rfl) (fun _ => rfl) fun _ => rfl)
  holds := (hb.congr hs.cells).consume htail
  sends := hs.sends

private theorem uotDatagrams_takes (k : Callbacks) (hr : UotReady h dst ac)
    (hb : UotHolds (ac.streams h) u) (hp : p <:+ u) (hd : Datagrams p ds tail) :
    UotTakes h dst ds tail ac (uotDatagrams k h p ac).2 := by
  obtain ⟨w, hloop, hw⟩ := uotConnectLoop_sends k hd p.length le_rfl hr
  have hresolve : uotResolveAddr k h ac = (.ok, ac) := by
    unfold uotResolveAddr
    rw [if_pos (by rw [hr.target]; rfl)]
  unfold uotDatagrams
  rw [if_pos hr.mode, hresolve]
  dsimp only
  rw [hloop]
  exact uotConsume_takes hw hb (hd.suffix.1.trans hp)

/-- A call with the target resolved. -/
theorem uotClientPayload_takes (k : Callbacks) (hr : UotReady h dst ac)
    (hb : UotHolds (ac.streams h) u) (hfit : u.length + data.length ≤ uotRecvSize)
    (hd : Datagrams (u ++ data) ds tail) :
    UotTakes h dst ds tail ac (uotClientPayload k h data ac).2 := by
  obtain ⟨w, happ, hbeside, hw⟩ := @uotBufferAppend_ok h ac u data hb hr.memory hfit
  have hready := hr.beside hbeside
  have htakes := uotDatagrams_takes k hready hw (List.suffix_refl _) hd
  unfold uotClientPayload
  rw [happ]
  dsimp only
  rw [if_neg (by decide), if_neg (by rw [hready.idle]; simp), if_neg (by rw [hready.parsed]; simp),
    hw.unread]
  refine ⟨htakes.ready, htakes.holds, ?_⟩
  rw [htakes.sends, hbeside.trace]

/-- The call that completes a request for a literal address. -/
theorem uotClientPayload_request (k : Callbacks) (hask : UotAsking h ac)
    (hb : UotHolds (ac.streams h) u) (hfit : u.length + data.length ≤ uotRecvSize)
    {isConnect : UInt8} (hconnect : isConnect ≠ 0) {t : SocksTarget}
    (ht : t.addr.sockaddr = some dst) {rest : Bytes}
    (hbytes : u ++ data = isConnect :: (t.encode ++ rest)) (hd : Datagrams rest ds tail) :
    UotTakes h dst ds tail ac (uotClientPayload k h data ac).2 := by
  obtain ⟨w, happ, hbeside, hw⟩ := @uotBufferAppend_ok h ac u data hb hask.memory hfit
  have hmem := hbeside.memory hask.memory
  have hfirst : w.allocOk = true := hmem.allocOk
  have hsecond : w.allocNext.allocOk = true := hmem.allocNext.allocOk
  have hidle : (w.streams h).resolverPending = false := hbeside.idle.trans hask.idle
  have hasks : (w.streams h).uotMode = .uotV2Connect ∧ !(w.streams h).uotRequestParsed := by
    rw [hbeside.mode, hbeside.parsed, hask.unparsed]
    exact ⟨hask.mode, rfl⟩
  have hready : UotReady h dst (uotSetRequest h isConnect t.addr w.allocNext.allocNext) := by
    unfold uotSetRequest
    constructor
    · rw [Connection.upd_self]
      exact if_neg hconnect
    · rw [Connection.upd_self]
    · rw [Connection.upd_self]
      exact ht
    · rw [Connection.upd_self]
      exact hidle
    · exact hmem.allocNext.allocNext
    · show ∀ b ∈ w.env.udpOpen, b = true
      rw [hbeside.sockets]
      exact hask.sockets
  have hcells : ((uotSetRequest h isConnect t.addr w.allocNext.allocNext).streams h).uotCells =
      (w.streams h).uotCells := by
    unfold uotSetRequest
    rw [Connection.upd_self]
    rfl
  have hsuffix : rest <:+ u ++ data := by
    rw [hbytes]
    exact (List.suffix_append _ _).trans (List.suffix_cons _ _)
  have htakes := uotDatagrams_takes k hready (hw.congr hcells) hsuffix hd
  have hrequest : uotRequest k h (u ++ data) w =
      uotDatagrams k h rest (uotSetRequest h isConnect t.addr w.allocNext.allocNext) := by
    rw [hbytes]
    unfold uotRequest
    dsimp only
    rw [if_neg (by rw [hfirst]; decide), hsecond, parseSocksaddr_encode]
    dsimp only
    rw [List.drop_left]
  unfold uotClientPayload
  rw [happ]
  dsimp only
  rw [if_neg (by decide), if_neg (by rw [hidle]; simp), if_pos hasks, hw.unread, hrequest]
  refine ⟨htakes.ready, htakes.holds, ?_⟩
  rw [htakes.sends]
  show udpSends h w.trace ++ _ = _
  rw [hbeside.trace]

/-- The calls of a connect stream from the one that finds its target resolved, or that completes the
request for a literal address, and the bytes behind the request that they were given. Between them
the session does what it does, but for the stream's buffer and its sends. -/
inductive UotRun (k : Callbacks) (h : Handle) (dst : SockAddr) (start : Connection) :
    Bytes → Connection → Prop
  | resolved {u : Bytes} (data : Bytes) (hready : UotReady h dst start)
      (hholds : UotHolds (start.streams h) u) (hfit : u.length + data.length ≤ uotRecvSize) :
      UotRun k h dst start (u ++ data) (uotClientPayload k h data start).2
  | request {u rest : Bytes} {isConnect : UInt8} {t : SocksTarget} (data : Bytes)
      (hask : UotAsking h start) (hholds : UotHolds (start.streams h) u)
      (hfit : u.length + data.length ≤ uotRecvSize) (hconnect : isConnect ≠ 0)
      (ht : t.addr.sockaddr = some dst) (hbytes : u ++ data = isConnect :: (t.encode ++ rest)) :
      UotRun k h dst start rest (uotClientPayload k h data start).2
  | between {bytes : Bytes} {ac : Connection} (ac' : Connection)
      (hrun : UotRun k h dst start bytes ac) (hready : UotReady h dst ac')
      (hcells : (ac'.streams h).uotCells = (ac.streams h).uotCells)
      (hsends : udpSends h ac'.trace = udpSends h ac.trace) : UotRun k h dst start bytes ac'
  | payload {bytes : Bytes} {ac : Connection} (data : Bytes) (hrun : UotRun k h dst start bytes ac)
      (hfit : (ac.streams h).uotRecvLen + data.length ≤ uotRecvSize) :
      UotRun k h dst start (bytes ++ data) (uotClientPayload k h data ac).2

/-- Any number of calls. -/
theorem UotRun.takes {k : Callbacks} {start : Connection} {bytes : Bytes}
    (hrun : UotRun k h dst start bytes ac) :
    ∃ ds tail, Datagrams bytes ds tail ∧ UotTakes h dst ds tail start ac := by
  induction hrun with
  | @resolved u data hready hholds hfit =>
    obtain ⟨ds, tail, hd⟩ := exists_datagrams _ (u ++ data) le_rfl
    exact ⟨ds, tail, hd, uotClientPayload_takes k hready hholds hfit hd⟩
  | @request u rest isConnect t data hask hholds hfit hconnect ht hbytes =>
    obtain ⟨ds, tail, hd⟩ := exists_datagrams _ rest le_rfl
    exact ⟨ds, tail, hd, uotClientPayload_request k hask hholds hfit hconnect ht hbytes hd⟩
  | @between bytes ac ac' hrun hready hcells hsends ih =>
    obtain ⟨ds, tail, hd, htakes⟩ := ih
    exact ⟨ds, tail, hd, hready, htakes.holds.congr hcells, hsends.trans htakes.sends⟩
  | @payload bytes ac data hrun hfit ih =>
    obtain ⟨ds, tail, hd, htakes⟩ := ih
    obtain ⟨ds', tail', hd'⟩ := exists_datagrams _ (tail ++ data) le_rfl
    rw [htakes.holds.len] at hfit
    have hnext := uotClientPayload_takes k htakes.ready htakes.holds hfit hd'
    refine ⟨ds ++ ds', tail', hd.append hd', hnext.ready, hnext.holds, ?_⟩
    rw [hnext.sends, htakes.sends, List.append_assoc]
    congr 1
    unfold uotSent
    rw [← List.map_append, ← List.filter_append]

/-- A connect stream calls `sendto` once for each complete datagram, in order and with its payload,
and not for what is not complete, exactly when no datagram is empty. -/
theorem run_uotUplink {k : Callbacks} {start : Connection} {bytes : Bytes}
    (hrun : UotRun k h dst start bytes ac) (hd : Datagrams bytes ds tail) :
    udpSends h ac.trace = udpSends h start.trace ++ ds.map (fun d => (dst, d)) ↔ [] ∉ ds := by
  obtain ⟨ds', tail', hd', htakes⟩ := hrun.takes
  obtain ⟨rfl, rfl⟩ := hd.unique hd'
  rw [htakes.sends, List.append_right_inj]
  unfold uotSent
  constructor
  · intro heq hnil
    have hlen := congrArg List.length heq
    rw [List.length_map, List.length_map] at hlen
    have hall := List.length_filter_eq_length_iff.mp hlen [] hnil
    simp at hall
  · intro hnil
    have hall : ds.filter (· ≠ []) = ds :=
      List.filter_eq_self.mpr fun d hmem => by
        rw [decide_eq_true_iff]
        rintro rfl
        exact hnil hmem
    rw [hall]

/-- A stream that asks for datagrams over a connect request, which has not come. -/
def uotSample : Connection :=
  (forwardClientPayload (innerCallbacks {}) 1
    (SocksTarget.domain (uotV2Prefix ++ uotSuffix) 0 (by decide)).encode newStreamSample).2

def uotSampleDst : SockAddr := ⟨.inet, [127, 0, 0, 1], 53, rfl⟩

/-- The request for `uotSampleDst` with these bytes behind it was handled. -/
def uotSampleEnd (bytes : Bytes) : Connection :=
  (uotClientPayload (innerCallbacks {}) 0
    (1 :: ((SocksTarget.inet [127, 0, 0, 1] 53 rfl).encode ++ bytes)) uotSample).2

private theorem uotSample_run (bytes : Bytes) (hbytes : bytes.length ≤ 100) :
    UotRun (innerCallbacks {}) 0 uotSampleDst uotSample bytes (uotSampleEnd bytes) := by
  have hask : UotAsking 0 uotSample := by constructor <;> decide +kernel
  have hholds : UotHolds (uotSample.streams 0) [] := by constructor <;> decide +kernel
  refine .request (t := .inet [127, 0, 0, 1] 53 rfl) _ hask hholds ?_ (by decide) rfl
    rfl
  have hlen : (SocksTarget.inet [127, 0, 0, 1] 53 rfl).encode.length = 7 := rfl
  rw [List.length_cons, List.length_append, hlen]
  unfold uotRecvSize
  simp only [List.length_nil]
  omega

theorem run_uotUplink_sample :
    udpSends 0 (uotSampleEnd [0, 2, 7, 8, 0]).trace =
      udpSends 0 uotSample.trace ++ [(uotSampleDst, [7, 8])] := by
  have hd : Datagrams [0, 2, 7, 8, 0] [[7, 8]] [0] :=
    .cons (d := [7, 8]) (q := [0]) (by decide) (.tail trivial)
  have hrun := uotSample_run [0, 2, 7, 8, 0] (by decide)
  exact (run_uotUplink hrun hd).mpr (by decide)

/-- The datagram of no bytes behind the request is not sent. -/
theorem run_uotUplink_empty :
    UotRun (innerCallbacks {}) 0 uotSampleDst uotSample [0, 0] (uotSampleEnd [0, 0]) ∧
      Datagrams [0, 0] [[]] [] ∧ udpSends 0 (uotSampleEnd [0, 0]).trace ≠
        udpSends 0 uotSample.trace ++ [(uotSampleDst, [])] :=
  ⟨uotSample_run [0, 0] (by decide), .cons (d := []) (q := []) (by decide) (.tail trivial),
    by decide +kernel⟩

end Payload

end NgxAnytls
