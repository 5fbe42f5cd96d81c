import NgxAnytls.Protocol
import NgxAnytls.SocksAddr
import NgxAnytls.Library.Cursor

/-! The law of the incremental parsers: frames, SOCKS addresses and UoT packets over a region of
memory. -/

namespace NgxAnytls

open Library.Cursor

/-- `ngx_anytls_parse_frame` over the region `d`. -/
def parseFrameAt (d : Bytes) : Option (Parse Frame) :=
  if d.length < frameHeaderLen then some .again
  else do
    let c ← d[0]?
    let id := be32 (← d[1]?) (← d[2]?) (← d[3]?) (← d[4]?)
    let len := be16 (← d[5]?) (← d[6]?)
    if d.length < frameHeaderLen + len then some .again
    else if 10 < c.toNat then some (.ok ⟨c, id, len, []⟩ (frameHeaderLen + len))
    else some (.ok ⟨c, id, len, ← slice d frameHeaderLen len⟩ (frameHeaderLen + len))

/-- The literal address of a family and its port, behind the type byte. -/
def literalAt (d : Bytes) (atyp : Nat) (family : Family) : Option (Parse Addr) :=
  if d.length - 1 < family.ipLen + 2 then some .again
  else do
    let ip ← slice d 1 family.ipLen
    let port := be16 (← d[family.ipLen + 1]?) (← d[family.ipLen + 2]?)
    some (.ok { atyp := atyp, port := port, sockaddr := some (.ofBytes family ip port),
                mode := detectUot [], consumed := family.ipLen + 3 } (family.ipLen + 3))

/-- `ngx_anytls_parse_socksaddr` over the region `d`. -/
def parseSocksaddrAt (d : Bytes) (alloc : Bool) : Option (Parse Addr) :=
  if d.length < 1 then some .again
  else do
    match (← d[0]?).toNat with
    | 1 => literalAt d 1 .inet
    | 4 => literalAt d 4 .inet6
    | 3 =>
      if d.length ≤ 1 then some .again
      else
        let len ← d[1]?
        if d.length - 1 < len.toNat + 3 then some .again
        else if !alloc then some .error
        else
          let host ← slice d 2 len.toNat
          let port := be16 (← d[len.toNat + 2]?) (← d[len.toNat + 3]?)
          some (.ok { atyp := 3, host := host, port := port, mode := detectUot host,
                      consumed := len.toNat + 4 } (len.toNat + 4))
    | _ => some .error

/-- What `ngx_anytls_parse_uot_packet` does once the address was read. -/
def uotPayloadAt (d : Bytes) (addr : Addr) : Option (Parse (Addr × Bytes)) :=
  if d.length - addr.consumed < 2 then some .again
  else do
    let plen := be16 (← d[addr.consumed]?) (← d[addr.consumed + 1]?)
    if d.length - (addr.consumed + 2) < plen then some .again
    else some (.ok (addr, ← slice d (addr.consumed + 2) plen) (addr.consumed + 2 + plen))

/-- `ngx_anytls_parse_uot_packet` over the region `d`: the answer and the region afterwards. -/
def parseUotPacketAt (d : Bytes) (alloc : Bool) : Option (Parse (Addr × Bytes) × Bytes) :=
  if d.length < 1 then some (.again, d)
  else do
    let atyp ← d[0]?
    match uotAtyp atyp with
    | none => some (.error, d)
    | some t =>
      let written ← put d 0 t
      let rc ← parseSocksaddrAt written alloc
      let restored ← put written 0 atyp
      match rc with
      | .again => some (.again, restored)
      | .error => some (.error, restored)
      | .ok addr _ => some (← uotPayloadAt restored addr, restored)

private theorem parseFrameAt_eq (d : Bytes) : parseFrameAt d = some (parseFrame d) := by
  unfold parseFrameAt parseFrame
  match d with
  | [] | [_] | [_, _] | [_, _, _] | [_, _, _, _] | [_, _, _, _, _] | [_, _, _, _, _, _] => rfl
  | c :: i3 :: i2 :: i1 :: i0 :: l1 :: l0 :: rest =>
    have hlen : (c :: i3 :: i2 :: i1 :: i0 :: l1 :: l0 :: rest).length =
        frameHeaderLen + rest.length := by
      simp only [List.length_cons, frameHeaderLen]
      omega
    rw [if_neg (by omega)]
    show (if _ then _ else _) = _
    by_cases hshort : rest.length < be16 l1 l0
    · rw [if_pos (by omega)]
      dsimp only
      rw [if_pos hshort]
    · rw [if_neg (by omega)]
      dsimp only
      rw [if_neg hshort]
      by_cases hcmd : 10 < c.toNat
      · rw [if_pos hcmd, if_pos hcmd]
      · have hwindow : window (c :: i3 :: i2 :: i1 :: i0 :: l1 :: l0 :: rest) frameHeaderLen
            (frameHeaderLen + be16 l1 l0) = rest.take (be16 l1 l0) := by
          rw [window, List.drop_take, Nat.add_sub_cancel_left]
          rfl
        rw [if_neg hcmd, if_neg hcmd, slice_eq (by omega), hwindow]
        rfl

private theorem getD_eq {p : Bytes} {i : Nat} (hi : i < p.length) : p[i]? = some (p.getD i 0) := by
  rw [List.getD_eq_getElem?_getD, List.getElem?_eq_getElem hi]
  rfl

private theorem literalAt_eq (b : UInt8) (p : Bytes) (atyp : Nat) (family : Family) :
    literalAt (b :: p) atyp family = some (if p.length < family.ipLen + 2 then .again
      else .ok { atyp := atyp, port := be16 (p.getD family.ipLen 0) (p.getD (family.ipLen + 1) 0),
                 sockaddr := some (.ofBytes family p
                   (be16 (p.getD family.ipLen 0) (p.getD (family.ipLen + 1) 0))),
                 mode := detectUot [], consumed := family.ipLen + 3 } (family.ipLen + 3)) := by
  unfold literalAt
  rw [List.length_cons, Nat.add_sub_cancel]
  by_cases hshort : p.length < family.ipLen + 2
  · rw [if_pos hshort, if_pos hshort]
  · have hip : slice (b :: p) 1 family.ipLen = some (p.take family.ipLen) := by
      rw [slice_eq (by rw [List.length_cons]; omega), window, List.drop_take,
        Nat.add_sub_cancel_left]
      rfl
    have hbytes : SockAddr.ofBytes family (p.take family.ipLen) = SockAddr.ofBytes family p := by
      funext port
      have happ := ofBytes_append family (p.take family.ipLen) (p.drop family.ipLen) port
        (by rw [List.length_take]; omega)
      rw [List.take_append_drop] at happ
      exact happ.symm
    rw [if_neg hshort, if_neg hshort, hip, List.getElem?_cons_succ, List.getElem?_cons_succ,
      getD_eq (by omega), getD_eq (by omega), ← hbytes]
    rfl

/-- A domain. -/
theorem parseSocksaddr_domainType {b : UInt8} (hb : b.toNat = 3) (len : UInt8) (q : Bytes)
    (alloc : Bool) : parseSocksaddr (b :: len :: q) alloc =
      if q.length + 1 < len.toNat + 3 then .again
      else if !alloc then .error
      else .ok { atyp := 3, host := q.take len.toNat,
                 port := be16 (q.getD len.toNat 0) (q.getD (len.toNat + 1) 0),
                 mode := detectUot (q.take len.toNat), consumed := len.toNat + 4 }
        (len.toNat + 4) := by
  unfold parseSocksaddr
  dsimp only
  rw [hb]
  rfl

private theorem parseSocksaddrAt_eq (d : Bytes) (alloc : Bool) :
    parseSocksaddrAt d alloc = some (parseSocksaddr d alloc) := by
  unfold parseSocksaddrAt
  cases d with
  | nil => rfl
  | cons b p =>
    have hone : ¬(b :: p).length < 1 := by
      rw [List.length_cons]
      omega
    rw [if_neg hone, List.getElem?_cons_zero, Option.bind_eq_bind, Option.bind_some]
    split
    · rename_i hatyp
      unfold parseSocksaddr
      dsimp only
      rw [hatyp]
      exact literalAt_eq b p 1 .inet
    · rename_i hatyp
      unfold parseSocksaddr
      dsimp only
      rw [hatyp]
      exact literalAt_eq b p 4 .inet6
    · rename_i hatyp
      cases p with
      | nil =>
        unfold parseSocksaddr
        dsimp only
        rw [hatyp]
        rfl
      | cons len q =>
        have htwo : ¬(b :: len :: q).length ≤ 1 := by
          simp only [List.length_cons]
          omega
        have hlen : (b :: len :: q).length - 1 = q.length + 1 := rfl
        rw [parseSocksaddr_domainType hatyp, if_neg htwo, List.getElem?_cons_succ,
          List.getElem?_cons_zero, Option.bind_some, hlen]
        by_cases hshort : q.length + 1 < len.toNat + 3
        · rw [if_pos hshort, if_pos hshort]
        · have hhost : slice (b :: len :: q) 2 len.toNat = some (q.take len.toNat) := by
            rw [slice_eq (by simp only [List.length_cons]; omega), window, List.drop_take,
              Nat.add_sub_cancel_left]
            rfl
          rw [if_neg hshort, if_neg hshort]
          cases alloc with
          | false => rfl
          | true =>
            rw [hhost, List.getElem?_cons_succ, List.getElem?_cons_succ, List.getElem?_cons_succ,
              List.getElem?_cons_succ, getD_eq (by omega), getD_eq (by omega)]
            rfl
    · rename_i hinet hinet6 hdomain
      unfold parseSocksaddr
      dsimp only
      split
      · exact absurd (by assumption) hinet
      · exact absurd (by assumption) hinet6
      · exact absurd (by assumption) hdomain
      · rfl

private theorem uotPayloadAt_eq {d : Bytes} {addr : Addr} {n : Nat} (hn : addr.consumed = n) :
    uotPayloadAt d addr = some (match d.drop n with
      | l1 :: l0 :: p =>
        if p.length < be16 l1 l0 then .again
        else .ok (addr, p.take (be16 l1 l0)) (n + 2 + be16 l1 l0)
      | _ => .again) := by
  unfold uotPayloadAt
  rw [hn]
  have hlen := List.length_drop (l := d) (i := n)
  have hget : ∀ i, (d.drop n)[i]? = d[n + i]? := fun i => List.getElem?_drop
  cases hd : d.drop n with
  | nil =>
    rw [hd, List.length_nil] at hlen
    rw [if_pos (by omega)]
  | cons l1 q =>
    cases q with
    | nil =>
      rw [hd, List.length_singleton] at hlen
      rw [if_pos (by omega)]
    | cons l0 p =>
      have h1 : d[n]? = some l1 := by
        rw [← Nat.add_zero n, ← hget, hd, List.getElem?_cons_zero]
      have h0 : d[n + 1]? = some l0 := by
        rw [← hget, hd, List.getElem?_cons_succ, List.getElem?_cons_zero]
      rw [hd, List.length_cons, List.length_cons] at hlen
      rw [if_neg (by omega), h1, h0, Option.bind_eq_bind, Option.bind_some, Option.bind_some]
      dsimp only
      by_cases hshort : p.length < be16 l1 l0
      · rw [if_pos (by omega), if_pos hshort]
      · have hpayload : slice d (n + 2) (be16 l1 l0) = some (p.take (be16 l1 l0)) := by
          rw [slice_eq (by omega), window, List.drop_take, Nat.add_sub_cancel_left,
            ← List.drop_drop, hd]
          rfl
        rw [if_neg (by omega), if_neg hshort, hpayload]
        rfl

/-- The type byte is put back on every return. -/
theorem parseUotPacketAt_eq (d : Bytes) (alloc : Bool) :
    parseUotPacketAt d alloc = some (parseUotPacket d alloc, d) := by
  unfold parseUotPacketAt parseUotPacket
  cases d with
  | nil => rfl
  | cons atyp rest =>
    have hone : ¬(atyp :: rest).length < 1 := by
      rw [List.length_cons]
      omega
    simp only [Option.bind_eq_bind]
    rw [if_neg hone, List.getElem?_cons_zero, Option.bind_some]
    cases uotAtyp atyp with
    | none => rfl
    | some t =>
      have hput : ∀ a b : UInt8, put (a :: rest) 0 b = some (b :: rest) := by
        intro a b
        rw [put, if_pos (by simp)]
        rfl
      dsimp only
      rw [hput, Option.bind_some, parseSocksaddrAt_eq, Option.bind_some, hput, Option.bind_some]
      cases haddr : parseSocksaddr (t :: rest) alloc with
      | again => rfl
      | error => rfl
      | ok addr n =>
        dsimp only
        rw [uotPayloadAt_eq (parseSocksaddr_consumed haddr).1]
        rfl

/-- An incremental parser; its flag is the outcome of the copies it makes. What is parsed stays when
more bytes come and needs no more than the bytes it takes, a part of these asks for more, an error
stays, and what asks for more can be completed. -/
structure Incremental {α : Type} (p : Bool → Bytes → Parse α) : Prop where
  consumed : ∀ {b d v c}, p b d = .ok v c → 0 < c ∧ c ≤ d.length
  append : ∀ {b d v c}, p b d = .ok v c → ∀ x, p b (d ++ x) = .ok v c
  take : ∀ {b d v c}, p b d = .ok v c → p b (d.take c) = .ok v c
  part : ∀ {b d v c n}, p b d = .ok v c → n < c → p b (d.take n) = .again
  error : ∀ {b d}, p b d = .error → ∀ x, p b (d ++ x) = .error
  again : ∀ {b d}, p b d = .again → ∃ x v c, p true (d ++ x) = .ok v c

section Law

variable {α : Type} {q : Bytes → Parse α}

/-- A part of what is parsed asks for more: nothing else fits what comes then. -/
theorem part_of_append (hconsumed : ∀ {d v c}, q d = .ok v c → c ≤ d.length)
    (happend : ∀ {d v c}, q d = .ok v c → ∀ x, q (d ++ x) = .ok v c)
    (herror : ∀ {d}, q d = .error → ∀ x, q (d ++ x) = .error)
    {d : Bytes} {v : α} {c n : Nat} (h : q d = .ok v c) (hn : n < c) : q (d.take n) = .again := by
  have hsplit := List.take_append_drop n d
  cases hq : q (d.take n) with
  | again => rfl
  | error =>
    have hall := herror hq (d.drop n)
    rw [hsplit, h] at hall
    cases hall
  | ok w m =>
    have hall := happend hq (d.drop n)
    have hle := hconsumed hq
    rw [hsplit, h] at hall
    obtain ⟨-, rfl⟩ := Parse.ok.inj hall
    rw [List.length_take] at hle
    omega

end Law

private theorem parseFrame_take {d : Bytes} {f : Frame} {c : Nat} (h : parseFrame d = .ok f c) :
    parseFrame (d.take c) = .ok f c := by
  obtain ⟨hc, hle⟩ := parseFrame_consumed h
  unfold parseFrame at h
  split at h
  · rename_i cmd i3 i2 i1 i0 l1 l0 rest
    dsimp only at h
    have hlen : c = frameHeaderLen + be16 l1 l0 := by
      split_ifs at h
      · exact (Parse.ok.inj h).2.symm
      · exact (Parse.ok.inj h).2.symm
    have htake : (cmd :: i3 :: i2 :: i1 :: i0 :: l1 :: l0 :: rest).take c =
        cmd :: i3 :: i2 :: i1 :: i0 :: l1 :: l0 :: rest.take (be16 l1 l0) := by
      rw [hlen, frameHeaderLen, Nat.add_comm]
      rfl
    rw [htake]
    unfold parseFrame
    dsimp only
    split_ifs at h with hshort hcmd
    · rw [if_neg (by rw [List.length_take]; omega), if_pos hcmd]
      exact h
    · rw [if_neg (by rw [List.length_take]; omega), if_neg hcmd, List.take_take, min_self]
      exact h
  · cases h

theorem parseFrame_long {d : Bytes} (hlen : frameHeaderLen + maxFrameData ≤ d.length) :
    ∃ f c, parseFrame d = .ok f c := by
  cases hp : parseFrame d with
  | ok f c => exact ⟨f, c, rfl⟩
  | error => exact absurd hp (parseFrame_ne_error d)
  | again =>
    unfold parseFrame at hp
    unfold frameHeaderLen maxFrameData at hlen
    split at hp
    · rename_i cmd i3 i2 i1 i0 l1 l0 rest
      have hl := be16_lt l1 l0
      simp only [List.length_cons] at hlen
      dsimp only at hp
      rw [if_neg (by omega)] at hp
      split_ifs at hp
    · rename_i hcons
      match d, hlen, hcons with
      | cmd :: i3 :: i2 :: i1 :: i0 :: l1 :: l0 :: rest, _, hcons =>
        exact absurd rfl (hcons cmd i3 i2 i1 i0 l1 l0 rest)

private theorem parseFrame_incremental : Incremental fun _ => parseFrame where
  consumed h := by
    obtain ⟨hc, hle⟩ := parseFrame_consumed h
    refine ⟨?_, hle⟩
    rw [hc]
    exact Nat.add_pos_left (by decide) _
  append h := parseFrame_append h
  take h := parseFrame_take h
  part h hn := part_of_append (fun h => (parseFrame_consumed h).2) parseFrame_append
    (fun h => absurd h (parseFrame_ne_error _)) h hn
  error h := absurd h (parseFrame_ne_error _)
  again _ := by
    refine ⟨List.replicate (frameHeaderLen + maxFrameData) 0, parseFrame_long ?_⟩
    rw [List.length_append, List.length_replicate]
    exact Nat.le_add_left _ _

private theorem parseSocksaddr_take {d : Bytes} {b : Bool} {a : Addr} {c : Nat}
    (h : parseSocksaddr d b = .ok a c) : parseSocksaddr (d.take c) b = .ok a c := by
  have hsplit := List.take_append_drop c d
  obtain ⟨-, -, hle⟩ := parseSocksaddr_consumed h
  cases hp : parseSocksaddr (d.take c) b with
  | ok a' c' =>
    have hall := parseSocksaddr_append hp (d.drop c)
    rw [hsplit, h] at hall
    exact hall.symm
  | error =>
    have hall := parseSocksaddr_append_error hp (d.drop c)
    rw [hsplit, h] at hall
    cases hall
  | again =>
    rw [← hsplit] at h
    have hlt := parseSocksaddr_again_append hp h
    rw [List.length_take] at hlt
    omega

/-- An address that asks for more has a known type. -/
theorem parseSocksaddr_again_ne_error {d x : Bytes} {b : Bool} (hd : d ≠ [])
    (h : parseSocksaddr d b = .again) : parseSocksaddr (d ++ x) true ≠ .error := by
  intro herror
  cases d with
  | nil => exact hd rfl
  | cons atyp p =>
    unfold parseSocksaddr at h herror
    simp only [List.cons_append] at h herror
    split at h
    · rename_i hatyp
      simp only [hatyp] at herror
      split_ifs at herror
    · rename_i hatyp
      simp only [hatyp] at herror
      split_ifs at herror
    · rename_i hatyp
      simp only [hatyp] at herror
      cases hpx : p ++ x with
      | nil =>
        rw [hpx] at herror
        cases herror
      | cons len q =>
        rw [hpx] at herror
        dsimp only at herror
        split_ifs at herror with hshort halloc
        cases halloc
    · cases h

private theorem parseSocksaddr_again_ok {d : Bytes} {b : Bool} (h : parseSocksaddr d b = .again) :
    ∃ x a c, parseSocksaddr (d ++ x) true = .ok a c := by
  by_cases hd : d = []
  · exact ⟨[1, 0, 0, 0, 0, 0, 0], _, _, by rw [hd]; rfl⟩
  · have hfull : parseSocksaddr (d ++ List.replicate maxSocksAddrLen 0) true ≠ .again := by
      apply parseSocksaddr_full
      rw [List.length_append, List.length_replicate]
      exact Nat.le_add_left _ _
    have hvalid := parseSocksaddr_again_ne_error (x := List.replicate maxSocksAddrLen 0) hd h
    refine ⟨List.replicate maxSocksAddrLen 0, ?_⟩
    cases hp : parseSocksaddr (d ++ List.replicate maxSocksAddrLen 0) true with
    | again => exact absurd hp hfull
    | error => exact absurd hp hvalid
    | ok a c => exact ⟨a, c, rfl⟩

private theorem parseSocksaddr_incremental : Incremental fun b d => parseSocksaddr d b where
  consumed h := (parseSocksaddr_consumed h).2
  append h := parseSocksaddr_append h
  take h := parseSocksaddr_take h
  part h hn := part_of_append (fun h => (parseSocksaddr_consumed h).2.2) parseSocksaddr_append
    parseSocksaddr_append_error h hn
  error h := parseSocksaddr_append_error h
  again h := parseSocksaddr_again_ok h

/-- The parts of a packet: its address, the length of the datagram and the datagram. -/
structure UotParts (b : Bool) (d : Bytes) (v : Addr × Bytes) (c : Nat) : Prop where
  parts : ∃ atyp rest t n l1 l0 p, d = atyp :: rest ∧ uotAtyp atyp = some t ∧
    parseSocksaddr (t :: rest) b = .ok v.1 n ∧ d.drop n = l1 :: l0 :: p ∧
    be16 l1 l0 ≤ p.length ∧ v.2 = p.take (be16 l1 l0) ∧ c = n + 2 + be16 l1 l0

private theorem parseUotPacket_ok_iff {b : Bool} {d : Bytes} {v : Addr × Bytes} {c : Nat} :
    parseUotPacket d b = .ok v c ↔ UotParts b d v c := by
  constructor
  · intro h
    unfold parseUotPacket at h
    cases d with
    | nil => cases h
    | cons atyp rest =>
      dsimp only at h
      cases hatyp : uotAtyp atyp with
      | none =>
        rw [hatyp] at h
        cases h
      | some t =>
        rw [hatyp] at h
        dsimp only at h
        cases haddr : parseSocksaddr (t :: rest) b with
        | again =>
          rw [haddr] at h
          cases h
        | error =>
          rw [haddr] at h
          cases h
        | ok addr n =>
          rw [haddr] at h
          dsimp only at h
          split at h
          · rename_i l1 l0 p hdrop
            split_ifs at h with hshort
            obtain ⟨rfl, rfl⟩ := Parse.ok.inj h
            exact ⟨atyp, rest, t, n, l1, l0, p, rfl, hatyp, haddr, hdrop,
              not_lt.mp hshort, rfl, rfl⟩
          · cases h
  · rintro ⟨atyp, rest, t, n, l1, l0, p, rfl, hatyp, haddr, hdrop, hlen, hv, rfl⟩
    unfold parseUotPacket
    dsimp only
    rw [hatyp]
    dsimp only
    rw [haddr]
    dsimp only
    rw [hdrop]
    dsimp only
    rw [if_neg (not_lt.mpr hlen), ← hv]

private theorem parseUotPacket_error_iff {b : Bool} {d : Bytes} :
    parseUotPacket d b = .error ↔ ∃ atyp rest, d = atyp :: rest ∧
      ∀ t, uotAtyp atyp = some t → parseSocksaddr (t :: rest) b = .error := by
  unfold parseUotPacket
  cases d with
  | nil => simp
  | cons atyp rest =>
    dsimp only
    cases hatyp : uotAtyp atyp with
    | none => simp [hatyp]
    | some t =>
      dsimp only
      constructor
      · intro h
        refine ⟨atyp, rest, rfl, fun t' ht' => ?_⟩
        rw [hatyp] at ht'
        cases ht'
        cases haddr : parseSocksaddr (t :: rest) b with
        | again =>
          rw [haddr] at h
          cases h
        | error => rfl
        | ok addr n =>
          rw [haddr] at h
          dsimp only at h
          split at h
          · split_ifs at h
          · cases h
      · rintro ⟨atyp', rest', heq, h⟩
        obtain ⟨rfl, rfl⟩ := List.cons.inj heq
        rw [h t hatyp]

private theorem parseUotPacket_consumed {b : Bool} {d : Bytes} {v : Addr × Bytes} {c : Nat}
    (h : parseUotPacket d b = .ok v c) : 0 < c ∧ c ≤ d.length := by
  obtain ⟨atyp, rest, t, n, l1, l0, p, rfl, hatyp, haddr, hdrop, hlen, hv, rfl⟩ :=
    parseUotPacket_ok_iff.mp h
  have htail := congrArg List.length hdrop
  simp only [List.length_drop, List.length_cons] at htail ⊢
  exact ⟨by omega, by omega⟩

private theorem parseUotPacket_append {b : Bool} {d : Bytes} {v : Addr × Bytes} {c : Nat}
    (h : parseUotPacket d b = .ok v c) (x : Bytes) : parseUotPacket (d ++ x) b = .ok v c := by
  obtain ⟨atyp, rest, t, n, l1, l0, p, rfl, hatyp, haddr, hdrop, hlen, hv, rfl⟩ :=
    parseUotPacket_ok_iff.mp h
  have hle : n ≤ (atyp :: rest).length := (parseSocksaddr_consumed haddr).2.2
  refine parseUotPacket_ok_iff.mpr ⟨atyp, rest ++ x, t, n, l1, l0, p ++ x, rfl, hatyp,
    parseSocksaddr_append haddr x, ?_, ?_, ?_, rfl⟩
  · rw [List.drop_append_of_le_length hle, hdrop]
    rfl
  · rw [List.length_append]
    exact hlen.trans (Nat.le_add_right _ _)
  · rw [hv, List.take_append_of_le_length hlen]

private theorem parseUotPacket_take {b : Bool} {d : Bytes} {v : Addr × Bytes} {c : Nat}
    (h : parseUotPacket d b = .ok v c) : parseUotPacket (d.take c) b = .ok v c := by
  obtain ⟨atyp, rest, t, n, l1, l0, p, rfl, hatyp, haddr, hdrop, hlen, hv, rfl⟩ :=
    parseUotPacket_ok_iff.mp h
  have hsucc : n + 2 + be16 l1 l0 = (n + 1 + be16 l1 l0) + 1 := by omega
  have haddr' : parseSocksaddr (t :: rest.take (n + 1 + be16 l1 l0)) b = .ok v.1 n := by
    have htake := parseSocksaddr_append (parseSocksaddr_take haddr)
      (((t :: rest).take (n + 2 + be16 l1 l0)).drop n)
    have hfront : ((t :: rest).take (n + 2 + be16 l1 l0)).take n = (t :: rest).take n := by
      rw [List.take_take, min_eq_left (by omega)]
    rw [← hfront, List.take_append_drop, hsucc] at htake
    exact htake
  refine parseUotPacket_ok_iff.mpr ⟨atyp, rest.take (n + 1 + be16 l1 l0), t, n, l1, l0,
    p.take (be16 l1 l0), ?_, hatyp, haddr', ?_, ?_, ?_, rfl⟩
  · rw [hsucc]
    rfl
  · have hsize : n + 2 + be16 l1 l0 - n = be16 l1 l0 + 2 := by omega
    rw [List.drop_take, hdrop, hsize]
    rfl
  · rw [List.length_take]
    exact le_min le_rfl hlen
  · rw [hv, List.take_take, min_self]

private theorem parseUotPacket_append_error {b : Bool} {d : Bytes} (h : parseUotPacket d b = .error)
    (x : Bytes) : parseUotPacket (d ++ x) b = .error := by
  obtain ⟨atyp, rest, rfl, hall⟩ := parseUotPacket_error_iff.mp h
  refine parseUotPacket_error_iff.mpr ⟨atyp, rest ++ x, rfl, fun t ht => ?_⟩
  exact parseSocksaddr_append_error (hall t ht) x

/-- An address in front of enough bytes is a packet. -/
theorem parseUotPacket_long {d x : Bytes} {atyp t : UInt8} {addr : Addr} {n : Nat}
    (hatyp : uotAtyp atyp = some t) (haddr : parseSocksaddr (t :: d) true = .ok addr n)
    (hx : 65537 ≤ x.length) : ∃ v c, parseUotPacket (atyp :: (d ++ x)) true = .ok v c := by
  obtain ⟨-, -, hle⟩ := parseSocksaddr_consumed haddr
  have htail : ((atyp :: d) ++ x).drop n = (atyp :: d).drop n ++ x :=
    List.drop_append_of_le_length hle
  cases hdrop : (atyp :: d).drop n ++ x with
  | nil =>
    have hlen := congrArg List.length hdrop
    rw [List.length_append, List.length_nil] at hlen
    omega
  | cons l1 q =>
    cases q with
    | nil =>
      have hlen := congrArg List.length hdrop
      rw [List.length_append, List.length_singleton] at hlen
      omega
    | cons l0 p =>
      have hlen := congrArg List.length hdrop
      rw [List.length_append, List.length_cons, List.length_cons] at hlen
      have hl := be16_lt l1 l0
      refine ⟨(addr, p.take (be16 l1 l0)), n + 2 + be16 l1 l0, parseUotPacket_ok_iff.mpr
        ⟨atyp, d ++ x, t, n, l1, l0, p, rfl, hatyp, parseSocksaddr_append haddr x,
          ?_, by omega, rfl,
          rfl⟩⟩
      rw [← hdrop, ← htail]
      rfl

private theorem parseUotPacket_again_ok {d : Bytes} {b : Bool} (h : parseUotPacket d b = .again) :
    ∃ x v c, parseUotPacket (d ++ x) true = .ok v c := by
  cases d with
  | nil =>
    have hatyp : uotAtyp 0 = some 1 := rfl
    have haddr : ∃ addr n, parseSocksaddr [1, 0, 0, 0, 0, 0, 0] true = .ok addr n := ⟨_, _, rfl⟩
    obtain ⟨addr, n, haddr⟩ := haddr
    exact ⟨_, parseUotPacket_long hatyp haddr (x := List.replicate 65537 0)
      (by rw [List.length_replicate])⟩
  | cons atyp rest =>
    cases hatyp : uotAtyp atyp with
    | none =>
      have herror : parseUotPacket (atyp :: rest) b = .error :=
        parseUotPacket_error_iff.mpr ⟨atyp, rest, rfl, fun t ht => by rw [hatyp] at ht; cases ht⟩
      rw [h] at herror
      cases herror
    | some t =>
      have hsome : ∃ y addr n, parseSocksaddr (t :: (rest ++ y)) true = .ok addr n := by
        cases haddr : parseSocksaddr (t :: rest) b with
        | again => exact parseSocksaddr_again_ok haddr
        | error =>
          have herror : parseUotPacket (atyp :: rest) b = .error :=
            parseUotPacket_error_iff.mpr ⟨atyp, rest, rfl, fun t' ht => by
              rw [hatyp] at ht
              cases ht
              exact haddr⟩
          rw [h] at herror
          cases herror
        | ok addr n =>
          refine ⟨[], addr, n, ?_⟩
          rw [List.append_nil]
          exact parseSocksaddr_ok_true haddr
      obtain ⟨y, addr, n, haddr⟩ := hsome
      have hlong := parseUotPacket_long hatyp haddr
        (x := List.replicate 65537 0) (by rw [List.length_replicate])
      refine ⟨y ++ List.replicate 65537 0, ?_⟩
      rwa [List.append_assoc] at hlong

private theorem parseUotPacket_incremental : Incremental fun b d => parseUotPacket d b where
  consumed h := parseUotPacket_consumed h
  append h := parseUotPacket_append h
  take h := parseUotPacket_take h
  part h hn := part_of_append (fun h => (parseUotPacket_consumed h).2) parseUotPacket_append
    parseUotPacket_append_error h hn
  error h := parseUotPacket_append_error h
  again h := parseUotPacket_again_ok h

/-- The three parsers read inside their input, which the packet parser leaves as it was, and follow
the law. -/
theorem parsers_incremental :
    (∀ d, parseFrameAt d = some (parseFrame d)) ∧
      (∀ d b, parseSocksaddrAt d b = some (parseSocksaddr d b)) ∧
      (∀ d b, parseUotPacketAt d b = some (parseUotPacket d b, d)) ∧
      (Incremental fun _ => parseFrame) ∧ (Incremental fun b d => parseSocksaddr d b) ∧
      Incremental fun b d => parseUotPacket d b :=
  ⟨parseFrameAt_eq, parseSocksaddrAt_eq, parseUotPacketAt_eq, parseFrame_incremental,
    parseSocksaddr_incremental, parseUotPacket_incremental⟩

end NgxAnytls
