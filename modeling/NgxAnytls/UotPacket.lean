import NgxAnytls.SocksEncode
import NgxAnytls.Uot

/-! A datagram of the UoT socket becomes one PSH frame that a packet-mode client reads back, but for
the longest ones the size guard lets through. -/

namespace NgxAnytls

/-- The PSH payload of a datagram. -/
def uotEncode (src : SockAddr) (bs : Bytes) : Bytes := uotPacketHeader src bs.length ++ bs

/-- The guard of `uotReadDgram`. -/
def uotLetsThrough (src : SockAddr) (bs : Bytes) : Prop := ¬ uotDatagramLimit src.family < bs.length

/-- Whether there is a place for a PSH frame of the stream with `len` bytes. -/
def HasOutputRoom (h : Handle) (len : Nat) (ac : Connection) : Prop :=
  hasRoom len ac = true ∧ ac.frames < maxOutFrames ∧ (ac.streams h).queuedFrames < maxStreamFrames

/-- The families whose datagrams are relayed. -/
def SockAddr.IsInet (src : SockAddr) : Prop := src.family = .inet ∨ src.family = .inet6

private theorem uotEncode_length (src : SockAddr) (bs : Bytes) (hsrc : src.IsInet) :
    (uotEncode src bs).length = bs.length + uotHeaderLen src.family := by
  have hip := src.ip_length
  simp only [uotEncode, uotPacketHeader, List.length_append, List.length_cons, List.length_nil, hip]
  rcases hsrc with hf | hf
  · rw [hf]
    simp only [Family.ipLen, uotHeaderLen]
    omega
  · rw [hf]
    simp only [Family.ipLen, uotHeaderLen]
    omega

/-- The guard is one byte too wide. -/
theorem uotDatagramLimit_eq (src : SockAddr) (hsrc : src.IsInet) :
    uotDatagramLimit src.family + uotHeaderLen src.family = maxFrameData + 1 := by
  rcases hsrc with hf | hf <;> rw [hf] <;> rfl

/-- What of a packet is left when its address was read: the length and the datagram. -/
theorem parseUotPacket_tail {bs : Bytes} (hlen : bs.length < 65536) {atyp t : UInt8}
    (hatyp : uotAtyp atyp = some t) {rest : Bytes} {addr : Addr} {n : Nat}
    (haddr : parseSocksaddr (t :: rest) = .ok addr n)
    (htail : (atyp :: rest).drop n =
      UInt8.ofNat (bs.length / 256) :: UInt8.ofNat bs.length :: bs) :
    parseUotPacket (atyp :: rest) = .ok (addr, bs) (n + 2 + bs.length) := by
  unfold parseUotPacket
  simp only [hatyp, haddr, htail]
  rw [be16_ofNat _ hlen, if_neg (lt_irrefl _), List.take_length]

/-- A relayed datagram is read back with the address it came from. -/
theorem parseUotPacket_encode (src : SockAddr) (bs : Bytes) (hsrc : src.IsInet)
    (hport : src.port < 65536) (hlen : bs.length < 65536) :
    ∃ addr : Addr, addr.sockaddr = some src ∧ addr.port = src.port ∧
      parseUotPacket (uotEncode src bs) = .ok (addr, bs) (uotEncode src bs).length := by
  rw [uotEncode_length src bs hsrc]
  obtain ⟨family, ip, port, hip⟩ := src
  rcases hsrc with hf | hf
  · obtain rfl : family = .inet := hf
    have happ : uotEncode ⟨.inet, ip, port, hip⟩ bs = 0 :: (ip ++ (portBytes port ++
        UInt8.ofNat (bs.length / 256) :: UInt8.ofNat bs.length :: bs)) := by
      simp [uotEncode, uotPacketHeader, portBytes]
    have htail : (0 :: (ip ++ (portBytes port ++
        UInt8.ofNat (bs.length / 256) :: UInt8.ofNat bs.length :: bs))).drop 7 =
        UInt8.ofNat (bs.length / 256) :: UInt8.ofNat bs.length :: bs := by
      have hfront : (0 :: (ip ++ portBytes port)).length = 7 := by simp [hip, Family.ipLen]
      have hsplit := @List.drop_left _ (0 :: (ip ++ portBytes port))
        (UInt8.ofNat (bs.length / 256) :: UInt8.ofNat bs.length :: bs)
      rw [hfront, List.cons_append, List.append_assoc] at hsplit
      exact hsplit
    refine ⟨{ atyp := 1, port := port, sockaddr := some ⟨.inet, ip, port, hip⟩
              mode := detectUot [], consumed := 7 }, rfl, rfl, ?_⟩
    rw [happ, parseUotPacket_tail hlen rfl (parseSocksaddr_inet ip port hip hport _) htail]
    simp only [uotHeaderLen]
    congr 1
    omega
  · obtain rfl : family = .inet6 := hf
    have happ : uotEncode ⟨.inet6, ip, port, hip⟩ bs = 1 :: (ip ++ (portBytes port ++
        UInt8.ofNat (bs.length / 256) :: UInt8.ofNat bs.length :: bs)) := by
      simp [uotEncode, uotPacketHeader, portBytes]
    have htail : (1 :: (ip ++ (portBytes port ++
        UInt8.ofNat (bs.length / 256) :: UInt8.ofNat bs.length :: bs))).drop 19 =
        UInt8.ofNat (bs.length / 256) :: UInt8.ofNat bs.length :: bs := by
      have hfront : (1 :: (ip ++ portBytes port)).length = 19 := by simp [hip, Family.ipLen]
      have hsplit := @List.drop_left _ (1 :: (ip ++ portBytes port))
        (UInt8.ofNat (bs.length / 256) :: UInt8.ofNat bs.length :: bs)
      rw [hfront, List.cons_append, List.append_assoc] at hsplit
      exact hsplit
    refine ⟨{ atyp := 4, port := port, sockaddr := some ⟨.inet6, ip, port, hip⟩
              mode := detectUot [], consumed := 19 }, rfl, rfl, ?_⟩
    rw [happ, parseUotPacket_tail hlen rfl (parseSocksaddr_inet6 ip port hip hport _) htail]
    simp only [uotHeaderLen]
    congr 1
    omega

theorem linkFrame_trace (owner : Option Handle) (f : OutFrame) (ac : Connection) :
    (linkFrame owner f ac).trace = ac.trace := by
  unfold linkFrame
  cases owner with
  | none => rfl
  | some h =>
    dsimp only
    split_ifs
    · rfl
    · rfl
    · unfold markReady
      dsimp only
      split_ifs <;> rfl

theorem countStreamFrame_trace (owner : Option Handle) (f : OutFrame) (ac : Connection) :
    (countStreamFrame owner f ac).trace = ac.trace := by
  unfold countStreamFrame
  cases owner with
  | none => rfl
  | some h =>
    dsimp only
    split_ifs <;> rfl

/-- A frame that there is a place for is queued. -/
theorem queuePreparedFrame_ok (h : Handle) (f : OutFrame) (ac : Connection)
    (hframes : ac.frames < maxOutFrames) (hown : (ac.streams h).queuedFrames < maxStreamFrames) :
    (queuePreparedFrame (some h) f ac).1 = .ok ∧ ∃ p v,
      (queuePreparedFrame (some h) f ac).2.trace =
        ac.trace ++ [.queued (f.prepare (some h)) p v] := by
  have hpost : ∀ w : Connection, (postWrite w).trace = w.trace := fun w => by
    unfold postWrite armWriteTimer
    split_ifs <;> rfl
  unfold queuePreparedFrame
  rw [if_neg (not_le.mpr hframes), if_neg (by simp [Nat.not_le.mpr hown])]
  dsimp only
  rw [hpost, Connection.log_trace]
  have hlink : ∀ g : OutFrame,
      (countFrame g (linkFrame (some h) g (countStreamFrame (some h) g ac))).trace = ac.trace :=
    fun g => (linkFrame_trace (some h) g _).trans (countStreamFrame_trace (some h) g ac)
  rw [hlink]
  exact ⟨rfl, _, _, rfl⟩

/-- A PSH frame in a buffer with room for the frame header. -/
theorem queueChainFrame_ok (h : Handle) (id : UInt32) (buf : ReadBuf) (len : Nat) (ac : Connection)
    (hlen : len ≤ maxFrameData) (hroom : HasOutputRoom h len ac) (halloc : ac.allocOk = true)
    (hpos : frameHeaderLen ≤ buf.pos) :
    (queueChainFrame (some h) .psh id buf len false ac).1 = .ok ∧ ∃ f p v,
      (queueChainFrame (some h) .psh id buf len false ac).2.trace = ac.trace ++ [.queued f p v] ∧
      f.cmd = .psh ∧ f.stream = some h ∧
      f.rest = writeFrameHeader Cmd.psh.toNat id len ++ buf.data := by
  obtain ⟨hbytes, hframes, hown⟩ := hroom
  unfold queueChainFrame
  have hspace : ¬ (Cmd.psh = .psh ∧ !false ∧ !hasRoom len ac) := by
    rw [hbytes]
    simp
  rw [if_neg (not_lt.mpr hlen), if_neg hspace, if_neg (by rw [halloc]; decide)]
  dsimp only
  rw [if_pos ⟨rfl, hpos⟩]
  generalize hf : ({ cmd := .psh, fin := Cmd.psh == .fin, blocked := !(Cmd.psh == .psh)
                     header := writeFrameHeader Cmd.psh.toNat id len
                     payload := writeFrameHeader Cmd.psh.toNat id len ++ buf.data
                     length := len, inplace := true } : OutFrame) = f
  obtain ⟨hrc, p, v, htrace⟩ := queuePreparedFrame_ok h f ac.allocNext hframes hown
  subst hf
  exact ⟨hrc, _, p, v, htrace, rfl, rfl, rfl⟩

/-- What the relay of a datagram comes to: with memory and room for it the datagram that is read
next becomes one PSH frame of the stream. -/
def UotQueues (h : Handle) (src : SockAddr) (bs : Bytes) : Prop :=
  ∀ ac : Connection, ac.allocOk = true → ac.allocNext.recvFromNext.allocOk = true →
    ac.allocNext.recvFromRes = .dgram src bs → HasOutputRoom h (uotEncode src bs).length ac →
    (uotReadDgram h ac).1 = .ok ∧ ∃ f p v,
      (uotReadDgram h ac).2.trace = ac.trace ++ [.queued f p v] ∧ f.cmd = .psh ∧
      f.stream = some h ∧ f.rest = writeFrameHeader Cmd.psh.toNat (ac.streams h).id
        (uotEncode src bs).length ++ uotEncode src bs

/-- What is promised of a received datagram. -/
structure UotRelays (src : SockAddr) (bs : Bytes) : Prop where
  fits : uotLetsThrough src bs → (uotEncode src bs).length ≤ maxFrameData
  queues : uotLetsThrough src bs → ∀ h, UotQueues h src bs
  reads : uotLetsThrough src bs → ∃ addr : Addr, addr.sockaddr = some src ∧ addr.port = src.port ∧
    parseUotPacket (uotEncode src bs) = .ok (addr, bs) (uotEncode src bs).length
  refuses : ¬ uotLetsThrough src bs ↔ maxFrameData < (uotEncode src bs).length

private theorem uotReadDgram_queues (h : Handle) (src : SockAddr) (bs : Bytes) (hsrc : src.IsInet)
    (hfits : (uotEncode src bs).length ≤ maxFrameData) : UotQueues h src bs := by
  intro ac halloc hframe hread hroom
  obtain ⟨hbytes, hframes, hown⟩ := hroom
  have hlen := uotEncode_length src bs hsrc
  have hshort : bs.length ≤ maxFrameData := by omega
  have hguard : ¬ uotDatagramLimit src.family < bs.length := by
    have := uotDatagramLimit_eq src hsrc
    omega
  have hother : src.family ≠ .other := by
    rcases hsrc with hf | hf <;> rw [hf] <;> decide
  have hhead : uotHeaderLen src.family ≤ uotMaxHeader := by
    rcases hsrc with hf | hf <;> rw [hf] <;> decide
  have hqueue := queueChainFrame_ok h (ac.streams h).id
    { pos := frameHeaderLen + uotMaxHeader - uotHeaderLen src.family
      data := uotPacketHeader src bs.length ++ bs } (bs.length + uotHeaderLen src.family)
    ac.allocNext.recvFromNext (by omega) ⟨by rw [← hlen]; exact hbytes, hframes, hown⟩ hframe
    (by dsimp only; omega)
  unfold uotReadDgram
  simp only [halloc, hread, List.take_of_length_le hshort]
  rw [if_neg (by decide), if_neg hother, if_neg hguard]
  obtain ⟨hrc, f, p, v, htrace, hcmd, hstream, hrest⟩ := hqueue
  rw [hlen]
  have hid : (ac.allocNext.recvFromNext.streams h).id = (ac.streams h).id := rfl
  rw [hid, if_neg (by rw [hrc]; decide)]
  exact ⟨rfl, f, p, v, htrace, hcmd, hstream, hrest⟩

/-- A received datagram is relayed as promised unless its length is the largest one that the guard
lets through. -/
theorem uotRelays_iff (src : SockAddr) (bs : Bytes) (hsrc : src.IsInet) (hport : src.port < 65536)
    (hbs : bs.length ≤ maxFrameData) :
    UotRelays src bs ↔ bs.length ≠ uotDatagramLimit src.family := by
  have hlen := uotEncode_length src bs hsrc
  have hlimit := uotDatagramLimit_eq src hsrc
  have hmax : maxFrameData < 65536 := by decide
  constructor
  · intro hr heq
    have hfits := hr.fits (not_lt.mpr heq.le)
    omega
  · intro hne
    have hguard : ∀ hthrough : uotLetsThrough src bs, (uotEncode src bs).length ≤ maxFrameData :=
      fun hthrough => by
        have := not_lt.mp hthrough
        omega
    refine ⟨hguard, fun hthrough h => uotReadDgram_queues h src bs hsrc (hguard hthrough),
      fun _ => parseUotPacket_encode src bs hsrc hport (by omega), ?_⟩
    rw [uotLetsThrough, not_not]
    omega

/-- The longest datagram that the guard lets through is given up by the queue. -/
theorem uotReadDgram_rejected (h : Handle) (src : SockAddr) (bs : Bytes) (hsrc : src.IsInet)
    (heq : bs.length = uotDatagramLimit src.family) (ac : Connection) (halloc : ac.allocOk = true)
    (hread : ac.allocNext.recvFromRes = .dgram src bs) :
    (uotReadDgram h ac).1 = .again ∧ (uotReadDgram h ac).2.trace = ac.trace := by
  have hlimit := uotDatagramLimit_eq src hsrc
  have hpos : 0 < uotHeaderLen src.family := by
    rcases hsrc with hf | hf <;> rw [hf] <;> decide
  have hother : src.family ≠ .other := by
    rcases hsrc with hf | hf <;> rw [hf] <;> decide
  have hqueue : ∀ buf, queueChainFrame (some h) .psh (ac.streams h).id buf
      (bs.length + uotHeaderLen src.family) false ac.allocNext.recvFromNext =
      (.error, ac.allocNext.recvFromNext) := fun buf => by
    unfold queueChainFrame
    rw [if_pos (by omega)]
  have hid : (ac.allocNext.recvFromNext.streams h).id = (ac.streams h).id := rfl
  unfold uotReadDgram
  simp only [halloc, hread, List.take_of_length_le (show bs.length ≤ maxFrameData by omega)]
  rw [if_neg (by decide), if_neg hother, if_neg (by omega), hid, hqueue, if_pos nofun]
  exact ⟨rfl, rfl⟩

def uotSampleSrc : SockAddr := ⟨.inet6, [0, 0, 0, 0, 0, 0, 0, 0, 0, 0, 0, 0, 0, 0, 0, 1], 53, rfl⟩

theorem uotRelays_sample : UotRelays uotSampleSrc [1, 2, 3] :=
  (uotRelays_iff uotSampleSrc [1, 2, 3] (.inr rfl) (by decide) (by decide)).mpr (by decide)

/-- An IPv6 datagram of 65515 bytes passes the guard and is lost. -/
theorem uotRelays_lost :
    ¬ UotRelays uotSampleSrc (List.replicate 65515 0) ∧
      ∀ h (ac : Connection), ac.allocOk = true →
        ac.allocNext.recvFromRes = .dgram uotSampleSrc (List.replicate 65515 0) →
        (uotReadDgram h ac).1 = .again ∧ (uotReadDgram h ac).2.trace = ac.trace := by
  have hlen : (List.replicate 65515 (0 : UInt8)).length = 65515 := List.length_replicate
  have hfamily : uotDatagramLimit uotSampleSrc.family = 65515 := rfl
  refine ⟨fun hr => ?_, fun h ac halloc hread =>
    uotReadDgram_rejected h _ _ (.inr rfl) (by rw [hlen, hfamily]) ac halloc hread⟩
  have hthrough : uotLetsThrough uotSampleSrc (List.replicate 65515 0) := by
    unfold uotLetsThrough
    rw [hlen, hfamily]
    omega
  have hfits := hr.fits hthrough
  rw [uotEncode_length _ _ (.inr rfl), hlen] at hfits
  exact absurd hfits (by decide)

end NgxAnytls
